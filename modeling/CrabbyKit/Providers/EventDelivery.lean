import CrabbyKit.Core.Run
import Mathlib.Data.List.Basic

/-!
# The event stream

`EventStream` of `ai/src/utils/event-stream.ts` with one consumer: the async generator that
`[Symbol.asyncIterator]` makes. A producer pushes and ends, the consumer asks for the next value,
and the microtasks of the generator run at any time between.
-/

namespace CrabbyKit.Providers

open List

/-- Where the generator stands. -/
inductive Phase (T : Type*)
  /-- At its start, or at a `yield` that was taken. -/
  | idle
  /-- It awaits the promise whose resolver is in `waiting`. -/
  | waiting
  /-- That promise was resolved: with a value, or as done. -/
  | resumed (value : Option T)
  /-- It is about to yield a value. -/
  | yielding (value : T)
  | completed
  deriving DecidableEq, Repr

structure EventStream (T R : Type*) where
  queue : List T
  /-- The resolvers in `waiting`, all of the one generator. -/
  waiting : Nat
  done : Bool
  /-- What `finalResultPromise` was resolved with. -/
  finalResult : Option R
  phase : Phase T
  /-- The `next` calls that are not answered. -/
  requests : Nat
  /-- The answers of `next` in the order of the calls: a value, or done. -/
  settled : List (Option T)
  deriving DecidableEq, Repr

namespace EventStream

variable {T R : Type*}

/-- `constructor`, with an iterator that was not asked yet. -/
def init : EventStream T R where
  queue := []
  waiting := 0
  done := false
  finalResult := none
  phase := .idle
  requests := 0
  settled := []

/-- `resolveFinalResult`; a promise keeps its first value. -/
def resolveFinalResult (result : R) (s : EventStream T R) : EventStream T R :=
  { s with finalResult := s.finalResult <|> some result }

/-- A resolver is called: the generator goes on in a later microtask. -/
def wake (result : Option T) : Phase T → Phase T
  | .waiting => .resumed result
  | phase => phase

def deliver (event : T) (s : EventStream T R) : EventStream T R :=
  if s.waiting > 0 then
    { s with waiting := s.waiting - 1, phase := wake (some event) s.phase }
  else { s with queue := s.queue ++ [event] }

def push (isComplete : T → Bool) (extractResult : T → R) (event : T) (s : EventStream T R) :
    EventStream T R :=
  if s.done then s
  else if isComplete event then
    deliver event (resolveFinalResult (extractResult event) { s with done := true })
  else deliver event s

/-- Notify all waiting consumers that we're done. -/
def notify (s : EventStream T R) : EventStream T R :=
  if s.waiting > 0 then { s with waiting := 0, phase := wake none s.phase } else s

/-- `end`. -/
def endWith (result : Option R) (s : EventStream T R) : EventStream T R :=
  let s := { s with done := true }
  notify (result.elim s fun r => resolveFinalResult r s)

/-- The generator returns: whoever asked is told that it is done. -/
def complete (s : EventStream T R) : EventStream T R :=
  { s with
    phase := .completed
    requests := 0
    settled := s.settled ++ List.replicate s.requests none }

def loop (s : EventStream T R) : EventStream T R :=
  match s.queue with
  | value :: rest => { s with queue := rest, phase := .yielding value }
  | [] =>
    if s.done then complete s else { s with waiting := s.waiting + 1, phase := .waiting }

/-- `next()` of the iterator; it runs the generator if that is not busy. -/
def next (s : EventStream T R) : EventStream T R :=
  let s := { s with requests := s.requests + 1 }
  match s.phase with
  | .idle => loop s
  | .completed => complete s
  | .waiting => s
  | .resumed _ => s
  | .yielding _ => s

/-- A microtask of the generator, if there is one. -/
def tick (s : EventStream T R) : EventStream T R :=
  match s.phase with
  | .resumed none => complete s
  | .resumed (some value) => { s with phase := .yielding value }
  | .yielding value =>
    let s := { s with
      phase := .idle
      requests := s.requests - 1
      settled := s.settled ++ [some value] }
    if s.requests > 0 then loop s else s
  | .idle => s
  | .waiting => s
  | .completed => s

end EventStream

/-- What happens to a stream: calls of the producer and the consumer, and microtasks. -/
inductive StreamOp (T R : Type*)
  | push (event : T)
  | endWith (result : Option R)
  | next
  | tick
  deriving DecidableEq, Repr

variable {T R : Type*}

def streamStep (isComplete : T → Bool) (extractResult : T → R) (s : EventStream T R) :
    StreamOp T R → EventStream T R
  | .push event => s.push isComplete extractResult event
  | .endWith result => s.endWith result
  | .next => s.next
  | .tick => s.tick

/-!
# Delivery of the event stream

An event is in one of three places: at the consumer, in the hands of the generator, or in the
queue. Put together in this order they are what was pushed before the stream was finished, after
every step. Once the stream is finished each microtask brings the next answer closer.
-/

open CrabbyKit.Run (run run_induction run_append run_snoc)

def StreamOp.finishes (isComplete : T → Bool) : StreamOp T R → Bool
  | .push event => isComplete event
  | .endWith _ => true
  | .next => false
  | .tick => false

def finished (isComplete : T → Bool) (ops : List (StreamOp T R)) : Bool :=
  ops.any (StreamOp.finishes isComplete)

def StreamOp.event? : StreamOp T R → Option T
  | .push event => some event
  | .endWith _ => none
  | .next => none
  | .tick => none

/-- The events that are pushed before the stream is finished, with the one that completes it. -/
def accepted (isComplete : T → Bool) : List (StreamOp T R) → List T
  | [] => []
  | op :: rest =>
    op.event?.toList ++ if op.finishes isComplete then [] else accepted isComplete rest

/-- A value that is given to `end`. -/
def StreamOp.given? : StreamOp T R → Option R
  | .endWith result => result
  | .push _ => none
  | .next => none
  | .tick => none

/-- The value of the event that completes the stream, or the first one that is given to `end`;
what is pushed after the end counts for nothing. -/
def answer (isComplete : T → Bool) (extractResult : T → R) : List (StreamOp T R) → Option R
  | [] => none
  | .push event :: rest =>
    if isComplete event then some (extractResult event) else answer isComplete extractResult rest
  | .endWith result :: rest => result <|> rest.findSome? StreamOp.given?
  | .next :: rest => answer isComplete extractResult rest
  | .tick :: rest => answer isComplete extractResult rest

/-- The number of `next` calls. -/
def nexts (ops : List (StreamOp T R)) : Nat :=
  ops.countP fun op => op matches .next

/-- The number of turns that the microtasks get. -/
def ticks (ops : List (StreamOp T R)) : Nat :=
  ops.countP fun op => op matches .tick

theorem accepted_snoc (isComplete : T → Bool) (ops : List (StreamOp T R)) (op : StreamOp T R) :
    accepted isComplete (ops ++ [op]) =
      accepted isComplete ops ++ if finished isComplete ops then [] else op.event?.toList := by
  induction ops with
  | nil => simp [accepted, finished]
  | cons first ops ih =>
    rw [cons_append, accepted, accepted, ih]
    cases ends : first.finishes isComplete <;> simp [finished, ends]

variable {isComplete : T → Bool} {ops : List (StreamOp T R)}

theorem accepted_append (ends : finished isComplete ops = true) (more : List (StreamOp T R)) :
    accepted isComplete (ops ++ more) = accepted isComplete ops := by
  induction ops with
  | nil => exact absurd ends Bool.false_ne_true
  | cons first ops ih =>
    rw [cons_append, accepted, accepted]
    cases last : first.finishes isComplete with
    | true => rfl
    | false =>
      have later : finished isComplete ops = true := by simpa [finished, last] using ends
      simp [ih later]

theorem answer_snoc (isComplete : T → Bool) (extractResult : T → R) (ops : List (StreamOp T R))
    (op : StreamOp T R) :
    answer isComplete extractResult (ops ++ [op]) =
      (answer isComplete extractResult ops <|>
        if finished isComplete ops then op.given? else answer isComplete extractResult [op]) := by
  induction ops with
  | nil => simp [answer, finished]
  | cons first ops ih =>
    cases first with
    | push event =>
      cases complete : isComplete event <;>
        simp [answer, finished, StreamOp.finishes, complete, ih]
    | endWith result =>
      cases result <;> simp [answer, finished, StreamOp.finishes, findSome?_append]
    | next => simp [answer, finished, StreamOp.finishes, ih]
    | tick => simp [answer, finished, StreamOp.finishes, ih]

/-- The event in the hands of the generator. -/
def Phase.held : Phase T → List T
  | .resumed (some value) => [value]
  | .yielding value => [value]
  | .resumed none => []
  | .idle => []
  | .waiting => []
  | .completed => []

def Phase.resolvers : Phase T → Nat
  | .waiting => 1
  | .idle => 0
  | .resumed _ => 0
  | .yielding _ => 0
  | .completed => 0

/-- Who waits has a request and nothing to take; who is done has left nothing behind. -/
def Phase.Fits (requests : Nat) (queue : List T) (done : Bool) : Phase T → Prop
  | .idle => requests = 0
  | .waiting => 0 < requests ∧ queue = [] ∧ done = false
  | .resumed none => 0 < requests ∧ queue = [] ∧ done = true
  | .resumed (some _) => 0 < requests
  | .yielding _ => 0 < requests
  | .completed => requests = 0 ∧ queue = [] ∧ done = true

theorem Phase.Fits.busy {phase : Phase T} {requests : Nat} {queue : List T}
    (h : phase.Fits requests queue false) (busy : phase.resolvers = 0) (queue' : List T)
    (done : Bool) : phase.Fits requests queue' done := by
  cases phase with
  | idle => exact h
  | waiting => exact absurd busy Nat.one_ne_zero
  | resumed value =>
    cases value with
    | none => exact absurd h.2.2 Bool.false_ne_true
    | some value => exact h
  | yielding value => exact h
  | completed => exact absurd h.2.2 Bool.false_ne_true

theorem Phase.Fits.ended {phase : Phase T} {requests : Nat} {queue : List T} {done : Bool}
    (h : phase.Fits requests queue done) (busy : phase.resolvers = 0) :
    phase.Fits requests queue true := by
  cases phase with
  | idle => exact h
  | waiting => exact absurd busy Nat.one_ne_zero
  | resumed value =>
    cases value with
    | none => exact ⟨h.1, h.2.1, rfl⟩
    | some value => exact h
  | yielding value => exact h
  | completed => exact ⟨h.1, h.2.1, rfl⟩

/-- What holds of a stream to which the events `sent` were pushed. -/
structure Custody (sent : List T) (s : EventStream T R) : Prop where
  delivered : ∃ values dones, s.settled = values.map some ++ List.replicate dones none ∧
    sent = values ++ (s.phase.held ++ s.queue) ∧ (dones ≠ 0 → s.phase = .completed)
  waits : s.waiting = s.phase.resolvers
  fits : s.phase.Fits s.requests s.queue s.done

variable {s : EventStream T R}

theorem Custody.ofValues {sent : List T} (values : List T)
    (settled : s.settled = values.map some) (all : sent = values ++ (s.phase.held ++ s.queue))
    (waits : s.waiting = s.phase.resolvers) (fits : s.phase.Fits s.requests s.queue s.done) :
    Custody sent s :=
  ⟨⟨values, 0, by simpa using settled, all, fun positive => absurd rfl positive⟩, waits, fits⟩

theorem Custody.values {sent : List T} (h : Custody sent s) (running : s.phase ≠ .completed) :
    ∃ values, s.settled = values.map some ∧ sent = values ++ (s.phase.held ++ s.queue) := by
  obtain ⟨values, dones, settled, all, returned⟩ := h.delivered
  have zero : dones = 0 := by
    by_contra positive
    exact running (returned positive)
  exact ⟨values, by simpa [zero] using settled, all⟩

namespace EventStream

variable {sent : List T} {s : EventStream T R}

theorem complete_custody (empty : s.queue = []) (done : s.done = true) (waits : s.waiting = 0)
    (delivered : ∃ values dones, s.settled = values.map some ++ List.replicate dones none ∧
      sent = values) : Custody sent s.complete := by
  obtain ⟨values, dones, settled, all⟩ := delivered
  refine ⟨⟨values, dones + s.requests, ?_, ?_, fun _ => rfl⟩, waits, rfl, empty, done⟩
  · rw [complete, settled, append_assoc, replicate_append_replicate]
  · simp [complete, Phase.held, empty, all]

theorem loop_custody (asked : 0 < s.requests) (waits : s.waiting = 0)
    (delivered : ∃ values, s.settled = values.map some ∧ sent = values ++ s.queue) :
    Custody sent s.loop := by
  obtain ⟨values, settled, all⟩ := delivered
  unfold loop
  cases queue : s.queue with
  | cons value rest =>
    refine .ofValues values ?_ ?_ waits asked
    · exact settled
    · simpa [Phase.held, queue] using all
  | nil =>
    simp only
    split
    · next done =>
      apply complete_custody queue done waits
      exact ⟨values, 0, by simpa using settled, by simpa [queue] using all⟩
    · next open_ =>
      refine .ofValues values ?_ ?_ ?_ ?_
      · exact settled
      · simpa [Phase.held, queue] using all
      · simp [waits, Phase.resolvers]
      · exact ⟨asked, rfl, by simpa using open_⟩

theorem next_custody (h : Custody sent s) : Custody sent s.next := by
  have fits := h.fits
  have waits := h.waits
  unfold next
  dsimp only
  split
  · next phase =>
    rw [phase] at waits
    obtain ⟨values, settled, all⟩ := h.values (by simp [phase])
    refine loop_custody (s := { s with requests := s.requests + 1 }) (Nat.succ_pos _) waits
      ⟨values, settled, ?_⟩
    simpa [phase, Phase.held] using all
  · next phase =>
    rw [phase] at fits waits
    obtain ⟨_, empty, done⟩ := fits
    obtain ⟨values, dones, settled, all, _⟩ := h.delivered
    refine complete_custody (s := { s with requests := s.requests + 1 }) empty done waits
      ⟨values, dones, settled, ?_⟩
    simpa [phase, Phase.held, empty] using all
  · next phase =>
    rw [phase] at fits
    exact ⟨h.delivered, waits, by simp [phase, Phase.Fits, fits.2]⟩
  · next value phase =>
    rw [phase] at fits
    cases value with
    | none => exact ⟨h.delivered, waits, by simp [phase, Phase.Fits, fits.2]⟩
    | some value => exact ⟨h.delivered, waits, by simp [phase, Phase.Fits]⟩
  · next value phase => exact ⟨h.delivered, waits, by simp [phase, Phase.Fits]⟩

theorem tick_custody (h : Custody sent s) : Custody sent s.tick := by
  unfold tick
  have fits := h.fits
  have waits := h.waits
  cases phase : s.phase with
  | idle => exact h
  | waiting => exact h
  | completed => exact h
  | resumed value =>
    rw [phase] at fits waits
    obtain ⟨values, settled, all⟩ := h.values (by simp [phase])
    cases value with
    | none =>
      apply complete_custody fits.2.1 fits.2.2 waits
      exact ⟨values, 0, by simpa using settled, by simpa [phase, Phase.held, fits.2.1] using all⟩
    | some value =>
      refine .ofValues values ?_ ?_ waits fits
      · exact settled
      · simpa [phase, Phase.held] using all
  | yielding value =>
    rw [phase] at fits waits
    obtain ⟨values, settled, all⟩ := h.values (by simp [phase])
    rw [phase, Phase.held] at all
    simp only
    split
    · next more =>
      refine loop_custody (s := { s with
        phase := .idle
        requests := s.requests - 1
        settled := s.settled ++ [some value] }) more waits ⟨values ++ [value], ?_, ?_⟩
      · simp [settled]
      · simp [all]
    · next last =>
      refine .ofValues (values ++ [value]) ?_ ?_ waits (Nat.eq_zero_of_not_pos last)
      · simp [settled]
      · simp [all, Phase.held]

theorem waiting_of_resolvers {phase : Phase T} (h : phase.resolvers ≠ 0) : phase = .waiting := by
  cases phase with
  | waiting => rfl
  | idle => exact absurd rfl h
  | resumed _ => exact absurd rfl h
  | yielding _ => exact absurd rfl h
  | completed => exact absurd rfl h

theorem deliver_custody (event : T)
    (delivered : ∃ values, s.settled = values.map some ∧ sent = values ++ (s.phase.held ++ s.queue))
    (waits : s.waiting = s.phase.resolvers) (fits : s.phase.Fits s.requests s.queue false) :
    Custody (sent ++ [event]) (s.deliver event) := by
  obtain ⟨values, settled, all⟩ := delivered
  unfold deliver
  split
  · next waiting =>
    have phase : s.phase = .waiting := waiting_of_resolvers (by omega)
    rw [phase] at waits fits all
    refine .ofValues values ?_ ?_ ?_ ?_
    · exact settled
    · simp [all, phase, wake, Phase.held, fits.2.1]
    · simp [waits, phase, wake, Phase.resolvers]
    · simpa [phase, wake, Phase.Fits] using fits.1
  · next busy =>
    refine .ofValues values ?_ ?_ waits (fits.busy (by omega) _ _)
    · exact settled
    · simp [all]

theorem push_custody (isComplete : T → Bool) (extractResult : T → R) (event : T)
    (h : Custody sent s) :
    Custody (sent ++ if s.done then [] else [event]) (s.push isComplete extractResult event) := by
  unfold push
  split
  · next done => simpa [done] using h
  · next running =>
    have fits := h.fits
    simp only [running] at fits
    have unreturned : s.phase ≠ .completed := by
      intro returned
      rw [returned] at fits
      exact Bool.false_ne_true fits.2.2
    split
    · exact deliver_custody event (h.values unreturned) h.waits fits
    · exact deliver_custody event (h.values unreturned) h.waits fits

theorem notify_custody {done : Bool} (ends : s.done = true)
    (delivered : ∃ values dones, s.settled = values.map some ++ List.replicate dones none ∧
      sent = values ++ (s.phase.held ++ s.queue) ∧ (dones ≠ 0 → s.phase = .completed))
    (waits : s.waiting = s.phase.resolvers) (fits : s.phase.Fits s.requests s.queue done) :
    Custody sent s.notify := by
  unfold notify
  split
  · next waiting =>
    have phase : s.phase = .waiting := waiting_of_resolvers (by omega)
    rw [phase] at fits delivered
    obtain ⟨values, dones, settled, all, returned⟩ := delivered
    have zero : dones = 0 := by
      by_contra positive
      cases returned positive
    refine .ofValues values ?_ ?_ ?_ ?_
    · simpa [zero] using settled
    · simpa [phase, wake, Phase.held] using all
    · simp [phase, wake, Phase.resolvers]
    · simpa [phase, wake, Phase.Fits, ends, fits.2.1] using fits.1
  · next busy => exact ⟨delivered, waits, ends ▸ fits.ended (by omega)⟩

theorem endWith_custody (result : Option R) (h : Custody sent s) :
    Custody sent (s.endWith result) := by
  cases result with
  | none =>
    exact notify_custody (s := { s with done := true }) rfl h.delivered h.waits h.fits
  | some result =>
    exact notify_custody (s := resolveFinalResult result { s with done := true }) rfl h.delivered
      h.waits h.fits

theorem step_custody (isComplete : T → Bool) (extractResult : T → R) (op : StreamOp T R)
    (h : Custody sent s) :
    Custody (sent ++ if s.done then [] else op.event?.toList)
      (streamStep isComplete extractResult s op) := by
  cases op with
  | push event => exact push_custody isComplete extractResult event h
  | endWith result => simpa [streamStep, StreamOp.event?] using endWith_custody result h
  | next => simpa [streamStep, StreamOp.event?] using next_custody h
  | tick => simpa [streamStep, StreamOp.event?] using tick_custody h

@[simp] theorem deliver_done (event : T) : (s.deliver event).done = s.done := by
  unfold deliver
  split <;> rfl

@[simp] theorem deliver_finalResult (event : T) :
    (s.deliver event).finalResult = s.finalResult := by
  unfold deliver
  split <;> rfl

@[simp] theorem deliver_answers (event : T) :
    (s.deliver event).settled = s.settled ∧ (s.deliver event).requests = s.requests := by
  unfold deliver
  split <;> exact ⟨rfl, rfl⟩

@[simp] theorem notify_done : s.notify.done = s.done := by
  unfold notify
  split <;> rfl

@[simp] theorem notify_finalResult : s.notify.finalResult = s.finalResult := by
  unfold notify
  split <;> rfl

@[simp] theorem notify_answers : s.notify.settled = s.settled ∧ s.notify.requests = s.requests := by
  unfold notify
  split <;> exact ⟨rfl, rfl⟩

@[simp] theorem loop_done : s.loop.done = s.done := by
  unfold loop
  split
  · rfl
  · split <;> rfl

@[simp] theorem loop_finalResult : s.loop.finalResult = s.finalResult := by
  unfold loop
  split
  · rfl
  · split <;> rfl

theorem complete_answers :
    s.complete.settled.length + s.complete.requests = s.settled.length + s.requests := by
  simp [complete]

theorem loop_answers : s.loop.settled.length + s.loop.requests = s.settled.length + s.requests := by
  unfold loop
  split
  · rfl
  · split
    · exact complete_answers
    · rfl

theorem loop_settled : s.settled.length ≤ s.loop.settled.length := by
  unfold loop
  split
  · exact Nat.le_refl _
  · split
    · simp [complete]
    · exact Nat.le_refl _

theorem step_done (isComplete : T → Bool) (extractResult : T → R) (op : StreamOp T R) :
    (streamStep isComplete extractResult s op).done = (s.done || op.finishes isComplete) := by
  cases op with
  | push event =>
    cases done : s.done <;> cases completes : isComplete event <;>
      simp [streamStep, push, StreamOp.finishes, done, completes, resolveFinalResult]
  | endWith result => cases result <;> simp [streamStep, endWith, StreamOp.finishes,
      resolveFinalResult]
  | next =>
    simp only [streamStep, next, StreamOp.finishes, Bool.or_false]
    split <;> simp [complete]
  | tick =>
    simp only [streamStep, tick, StreamOp.finishes, Bool.or_false]
    split
    · rfl
    · rfl
    · split <;> simp
    all_goals rfl

theorem step_finalResult (isComplete : T → Bool) (extractResult : T → R) (op : StreamOp T R) :
    (streamStep isComplete extractResult s op).finalResult =
      (s.finalResult <|> if s.done then op.given? else answer isComplete extractResult [op]) := by
  cases op with
  | push event =>
    cases done : s.done <;> cases completes : isComplete event <;>
      simp [streamStep, push, StreamOp.given?, answer, done, completes, resolveFinalResult]
  | endWith result =>
    cases done : s.done <;> cases result <;>
      simp [streamStep, endWith, StreamOp.given?, answer, resolveFinalResult]
  | next =>
    simp only [streamStep, next, StreamOp.given?, answer]
    split <;> simp [complete]
  | tick =>
    simp only [streamStep, tick, StreamOp.given?, answer]
    split
    · simp [complete]
    · simp
    · split <;> simp
    all_goals simp

/-- Each `next` call is answered or outstanding. -/
theorem step_answers (isComplete : T → Bool) (extractResult : T → R) (op : StreamOp T R)
    (h : Custody sent s) :
    (streamStep isComplete extractResult s op).settled.length +
        (streamStep isComplete extractResult s op).requests =
      s.settled.length + s.requests + nexts [op] := by
  cases op with
  | push event =>
    simp only [streamStep, push, nexts]
    split
    · rfl
    · split
      · simp [resolveFinalResult]
      · simp
  | endWith result => cases result <;> simp [streamStep, endWith, nexts, resolveFinalResult]
  | next =>
    simp only [streamStep, next, nexts]
    split
    · exact loop_answers
    · exact complete_answers
    all_goals rfl
  | tick =>
    have fits := h.fits
    simp only [streamStep, tick, nexts]
    split
    · exact complete_answers
    · rfl
    · next value phase =>
      rw [phase] at fits
      have asked : 0 < s.requests := fits
      split
      · rw [loop_answers]
        simp
        omega
      · simp
        omega
    all_goals rfl

theorem step_settled (isComplete : T → Bool) (extractResult : T → R) (op : StreamOp T R) :
    s.settled.length ≤ (streamStep isComplete extractResult s op).settled.length := by
  cases op with
  | push event =>
    simp only [streamStep, push]
    split
    · exact Nat.le_refl _
    · split <;> simp [resolveFinalResult]
  | endWith result => cases result <;> simp [streamStep, endWith, resolveFinalResult]
  | next =>
    simp only [streamStep, next]
    split
    · exact loop_settled (s := { s with requests := s.requests + 1 })
    · simp [complete]
    all_goals exact Nat.le_refl _
  | tick =>
    simp only [streamStep, tick]
    split
    · simp [complete]
    · exact Nat.le_refl _
    · split
      · apply Nat.le_trans _ loop_settled
        simp
      · simp
    all_goals exact Nat.le_refl _

/-- The microtask more that an event costs which was handed over. -/
def lag : Phase T → Nat
  | .resumed (some _) => 1
  | .resumed none => 0
  | .idle => 0
  | .waiting => 0
  | .yielding _ => 0
  | .completed => 0

/-- How many microtasks the first `count` answers need at most in a stream that is done. -/
def owed (count : Nat) (s : EventStream T R) : Nat :=
  if count ≤ s.settled.length then 0 else count - s.settled.length + lag s.phase

variable {count : Nat}

theorem owed_le {s' : EventStream T R}
    (kept : s.settled.length ≤ s'.settled.length) (lags : lag s'.phase ≤ lag s.phase) :
    owed count s' ≤ owed count s := by
  unfold owed
  split_ifs <;> omega

theorem loop_lag (s : EventStream T R) : lag s.loop.phase = 0 := by
  unfold loop
  split
  · rfl
  · split <;> rfl

theorem step_owed (isComplete : T → Bool) (extractResult : T → R) (op : StreamOp T R)
    (count : Nat) (h : Custody sent s) (done : s.done = true) :
    owed count (streamStep isComplete extractResult s op) ≤ owed count s := by
  apply owed_le (step_settled isComplete extractResult op)
  have fits := h.fits
  rw [done] at fits
  cases op with
  | push event => simp [streamStep, push, done]
  | endWith result =>
    have busy : s.waiting = 0 := by
      rw [h.waits]
      by_contra waiting
      rw [waiting_of_resolvers waiting] at fits
      exact Bool.false_ne_true fits.2.2.symm
    cases result <;> simp [streamStep, endWith, notify, busy, resolveFinalResult]
  | next =>
    simp only [streamStep, next]
    split
    · simp [loop_lag]
    · exact Nat.zero_le _
    all_goals exact Nat.le_refl _
  | tick =>
    simp only [streamStep, tick]
    split
    · exact Nat.zero_le _
    · exact Nat.zero_le _
    · split
      · simp [loop_lag]
      · exact Nat.zero_le _
    all_goals exact Nat.le_refl _

theorem tick_owed (h : Custody sent s) (done : s.done = true)
    (asked : count ≤ s.settled.length + s.requests) (open_ : s.settled.length < count) :
    owed count s.tick < owed count s := by
  have fits := h.fits
  rw [done] at fits
  have now : owed count s = count - s.settled.length + lag s.phase := if_neg (by omega)
  rw [now]
  unfold owed tick
  split
  · next phase =>
    rw [if_pos (by simpa [complete] using asked)]
    omega
  · next value phase =>
    rw [if_neg (by simpa using open_), phase]
    exact Nat.lt_succ_self _
  · next value phase =>
    simp only
    split
    · next more =>
      have more := @loop_settled T R { s with
        phase := .idle
        requests := s.requests - 1
        settled := s.settled ++ [some value] }
      rw [length_append, length_singleton] at more
      rw [loop_lag]
      split <;> omega
    · simp only [length_append, length_singleton, lag]
      split <;> omega
  · next phase =>
    rw [phase] at fits
    have : s.requests = 0 := fits
    omega
  · next phase =>
    rw [phase] at fits
    exact absurd fits.2.2 (by simp)
  · next phase =>
    rw [phase] at fits
    have : s.requests = 0 := fits.1
    omega

/-- The first `count` answers come, whatever else is called between the microtasks. -/
theorem run_settles (isComplete : T → Bool) (extractResult : T → R) (ops : List (StreamOp T R)) :
    ∀ {s : EventStream T R}, Custody sent s → s.done = true →
      count ≤ s.settled.length + s.requests → owed count s ≤ ticks ops →
      count ≤ (run (streamStep isComplete extractResult) s ops).settled.length := by
  induction ops with
  | nil =>
    intro s _ _ _ enough
    rw [ticks, countP_nil, Nat.le_zero, owed] at enough
    show count ≤ s.settled.length
    by_contra unsettled
    rw [if_neg unsettled] at enough
    omega
  | cons op ops ih =>
    intro s h done asked enough
    have sound := step_custody isComplete extractResult op h
    simp only [done, if_true, append_nil] at sound
    apply ih sound
    · rw [step_done, done, Bool.true_or]
    · have := step_answers isComplete extractResult op h
      omega
    · have same := step_owed isComplete extractResult op count h done
      rw [ticks, countP_cons] at enough
      cases op with
      | tick =>
        by_cases settled : count ≤ s.settled.length
        · have none : owed count s = 0 := if_pos settled
          omega
        · have shorter := tick_owed h done asked (Nat.lt_of_not_le settled)
          simp only [if_true] at enough
          rw [ticks]
          simp only [streamStep] at *
          omega
      | push event => exact Nat.le_trans same enough
      | endWith result => exact Nat.le_trans same enough
      | next => exact Nat.le_trans same enough

end EventStream

/-- The stream after some calls. -/
def streamRun (isComplete : T → Bool) (extractResult : T → R) (ops : List (StreamOp T R)) :
    EventStream T R :=
  run (streamStep isComplete extractResult) .init ops

theorem init_custody : Custody [] (.init : EventStream T R) :=
  ⟨⟨[], 0, rfl, rfl, fun positive => absurd rfl positive⟩, rfl, rfl⟩

/-- What a run leaves in the stream. -/
structure Accounted (isComplete : T → Bool) (extractResult : T → R) (ops : List (StreamOp T R))
    (s : EventStream T R) : Prop where
  custody : Custody (accepted isComplete ops) s
  done : s.done = finished isComplete ops
  result : s.finalResult = answer isComplete extractResult ops
  asked : s.settled.length + s.requests = nexts ops

theorem run_accounted (isComplete : T → Bool) (extractResult : T → R) (ops : List (StreamOp T R)) :
    Accounted isComplete extractResult ops (streamRun isComplete extractResult ops) := by
  apply run_induction
  · exact ⟨init_custody, rfl, rfl, rfl⟩
  · intro ops op s h
    refine ⟨?_, ?_, ?_, ?_⟩
    · rw [accepted_snoc, ← h.done]
      exact EventStream.step_custody isComplete extractResult op h.custody
    · rw [EventStream.step_done, h.done]
      simp [finished]
    · rw [EventStream.step_finalResult, answer_snoc, h.result, h.done]
    · rw [EventStream.step_answers isComplete extractResult op h.custody, h.asked]
      simp [nexts]

/-- The answers of `next` are the accepted events in order, as far as they came, and `done` only
when all of them were given out and the stream is finished. -/
theorem answers_inOrder (isComplete : T → Bool) (extractResult : T → R)
    (ops : List (StreamOp T R)) :
    ∃ values dones, (streamRun isComplete extractResult ops).settled =
        values.map some ++ List.replicate dones none ∧
      values <+: accepted isComplete ops ∧
      (dones ≠ 0 → values = accepted isComplete ops ∧ finished isComplete ops = true) := by
  have h := run_accounted isComplete extractResult ops
  obtain ⟨values, dones, settled, all, returned⟩ := h.custody.delivered
  refine ⟨values, dones, settled, ⟨_, all.symm⟩, ?_⟩
  intro positive
  have fits := h.custody.fits
  rw [returned positive] at fits
  constructor
  · simpa [returned positive, Phase.held, fits.2.1] using all.symm
  · rw [← h.done]
    exact fits.2.2

/-- Once the stream is finished, every `next` call so far is answered after enough microtasks,
whatever is called between them. -/
theorem next_answered
    (ends : finished isComplete ops = true) (extractResult : T → R) {more : List (StreamOp T R)}
    (enough : (streamRun isComplete extractResult ops).requests < ticks more) :
    nexts ops ≤ (streamRun isComplete extractResult (ops ++ more)).settled.length := by
  have h := run_accounted isComplete extractResult ops
  rw [streamRun, run_append, ← h.asked]
  apply EventStream.run_settles isComplete extractResult more h.custody
  · rw [h.done, ends]
  · exact Nat.le_refl _
  · apply Nat.le_trans _ enough
    unfold EventStream.owed
    have lag : EventStream.lag (streamRun isComplete extractResult ops).phase ≤ 1 := by
      unfold EventStream.lag
      split <;> omega
    split <;> omega

/-- What the consumer and whoever waits for the result get, after any run. -/
structure Delivers (isComplete : T → Bool) (extractResult : T → R) (ops : List (StreamOp T R)) :
    Prop where
  /-- No answer is out of order, twice, or of an event that was not accepted. -/
  inOrder : ∃ values dones, (streamRun isComplete extractResult ops).settled =
      values.map some ++ List.replicate dones none ∧
    values <+: accepted isComplete ops ∧
    (dones ≠ 0 → values = accepted isComplete ops ∧ finished isComplete ops = true)
  /-- Of a finished stream no `next` call waits forever. -/
  noneWaits : finished isComplete ops = true → ∀ more,
    (streamRun isComplete extractResult ops).requests < ticks more →
      nexts ops ≤ (streamRun isComplete extractResult (ops ++ more)).settled.length
  /-- Of a finished stream a consumer that asks for more than was accepted gets all of it. -/
  complete : finished isComplete ops = true → ∀ more,
    (streamRun isComplete extractResult ops).requests < ticks more →
      (accepted isComplete ops).length < nexts ops →
        ∃ dones, (streamRun isComplete extractResult (ops ++ more)).settled =
          (accepted isComplete ops).map some ++ List.replicate dones none
  /-- The result is the answer. -/
  result : (streamRun isComplete extractResult ops).finalResult =
    answer isComplete extractResult ops

/-- Every run of the stream delivers. -/
theorem eventStream_delivers (isComplete : T → Bool) (extractResult : T → R)
    (ops : List (StreamOp T R)) : Delivers isComplete extractResult ops := by
  refine ⟨answers_inOrder isComplete extractResult ops, ?_, ?_,
    (run_accounted isComplete extractResult ops).result⟩
  · intro ends more enough
    exact next_answered ends extractResult enough
  · intro ends more enough longer
    have answered := next_answered ends extractResult enough
    obtain ⟨values, dones, settled, front, all⟩ :=
      answers_inOrder isComplete extractResult (ops ++ more)
    rw [accepted_append ends] at front all
    have positive : dones ≠ 0 := by
      rintro rfl
      rw [settled, replicate_zero, append_nil, length_map] at answered
      have := front.length_le
      omega
    exact ⟨dones, by rw [settled, (all positive).1]⟩

/-- An event that is pushed after an `end` without a value is the first that would complete the
stream, and the result never comes. -/
theorem ended_without_result :
    ¬ (streamRun (fun _ => true) id [.endWith none, .push 7]).finalResult =
      ([.endWith none, .push 7] : List (StreamOp Nat Nat)).findSome? fun op =>
        answer (fun _ => true) id [op] := by
  decide

end CrabbyKit.Providers
