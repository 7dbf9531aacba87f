import CrabbyKit.AgentCore.Brackets

/-!
# Steering and follow-up messages

What a supplier hands over waits in a local variable until the next iteration puts it
into the records. A run loses it only when it goes past the iteration limit.
-/

namespace CrabbyKit.AgentCore

open List

variable {σ τ : Type}

/-- The messages a supplier handed over. -/
def Observation.supplied? : Observation → Option (List AgentMessage)
  | .supplied batch => some batch
  | _ => none

/-- The reply and the tool results of a turn, as its end announces them. -/
def Observation.produced? : Observation → Option (List AgentMessage)
  | .event (.turnEnd message toolResults) => some (message :: resultMessages toolResults)
  | _ => none

/-- The messages obtained from the suppliers, in order. -/
def supplied (t : Trace) : List AgentMessage := (t.filterMap Observation.supplied?).flatten

/-- The messages that turns brought themselves, in order. -/
def produced (t : Trace) : List AgentMessage := (t.filterMap Observation.produced?).flatten

/-- Every supplied batch ends the context of the next model call; batches that no model
call followed yet are the end of what waits. -/
def Seen (waiting : List AgentMessage) : Trace → Prop
  | [] => True
  | .supplied batch :: rest => batch <:+ (nextContext rest).getD waiting ∧ Seen waiting rest
  | _ :: rest => Seen waiting rest

section Projections

theorem supplied_marks (t : Trace) : supplied (marks t) = supplied t := by
  refine congrArg List.flatten (filterMap_marks ?_ t)
  rintro (e | _ | _ | _) h
  · cases e <;> rfl
  all_goals first | rfl | cases h

theorem produced_marks (t : Trace) : produced (marks t) = produced t := by
  refine congrArg List.flatten (filterMap_marks ?_ t)
  rintro (e | _ | _ | _) h
  · cases e <;> first | rfl | cases h
  all_goals rfl

@[simp] theorem supplied_append (t t' : Trace) :
    supplied (t ++ t') = supplied t ++ supplied t' := by
  simp [supplied]

@[simp] theorem produced_append (t t' : Trace) :
    produced (t ++ t') = produced t ++ produced t' := by
  simp [produced]

@[simp] theorem supplied_endedAll (messages : List AgentMessage) :
    supplied (endedAll messages) = [] := by
  induction messages with
  | nil => rfl
  | cons m rest ih => exact ih

@[simp] theorem produced_endedAll (messages : List AgentMessage) :
    produced (endedAll messages) = [] := by
  induction messages with
  | nil => rfl
  | cons m rest ih => exact ih

variable (firstTurn : Bool)

@[simp] theorem supplied_opening : supplied (opening firstTurn) = [] := by
  cases firstTurn <;> rfl

@[simp] theorem produced_opening : produced (opening firstTurn) = [] := by
  cases firstTurn <;> rfl

@[simp] theorem supplied_attemptMarks (attempts : List Attempt) :
    supplied (attemptMarks attempts) = [] := by
  induction attempts with
  | nil => rfl
  | cons a rest ih => exact ih

@[simp] theorem produced_attemptMarks (attempts : List Attempt) :
    produced (attemptMarks attempts) = [] := by
  induction attempts with
  | nil => rfl
  | cons a rest ih => exact ih

/-- A turn obtains nothing from the suppliers itself. -/
@[simp] theorem supplied_turn (t : Turn) : supplied (t.marks firstTurn) = [] := by
  have hend : supplied [.event (.turnEnd t.last.reply.toAgentMessage t.results)] = [] := rfl
  simp [Turn.marks, hend]

@[simp] theorem produced_turn (t : Turn) : produced (t.marks firstTurn) = t.produced := by
  have hend : produced [.event (.turnEnd t.last.reply.toAgentMessage t.results)] = t.produced :=
    append_nil _
  simp [Turn.marks, hend]

variable {s s' : LoopState (σ × Trace)} {c r : List AgentMessage}

theorem Adds.supplied {t : Trace}
    (h : Adds s s' c r t) : supplied s'.host.2 = supplied s.host.2 ++ AgentCore.supplied t := by
  rw [← supplied_marks, h.trace, supplied_append, supplied_marks]

theorem Adds.produced {t : Trace}
    (h : Adds s s' c r t) : produced s'.host.2 = produced s.host.2 ++ AgentCore.produced t := by
  rw [← produced_marks, h.trace, produced_append, produced_marks]

end Projections

section Contexts

theorem nextContext_append_or (t t' : Trace) :
    nextContext (t ++ t') = (nextContext t).or (nextContext t') := by
  induction t with
  | nil => rfl
  | cons o rest ih =>
    cases o with
    | context seen => rfl
    | event e => exact ih
    | answer answer => exact ih
    | supplied batch => exact ih

theorem nextContext_marks (t : Trace) : nextContext (marks t) = nextContext t := by
  induction t with
  | nil => rfl
  | cons o rest ih =>
    rcases o with e | _ | _ | _
    · cases e <;> exact ih
    all_goals first | rfl | exact ih

theorem nextContext_endedAll (messages : List AgentMessage) :
    nextContext (endedAll messages) = none := by
  induction messages with
  | nil => rfl
  | cons m rest ih => exact ih

theorem nextContext_opening (firstTurn : Bool) : nextContext (opening firstTurn) = none := by
  cases firstTurn <;> rfl

variable {waiting : List AgentMessage}

theorem seen_marks (t : Trace) : Seen waiting (marks t) ↔ Seen waiting t := by
  induction t with
  | nil => rfl
  | cons o rest ih =>
    rcases o with e | _ | _ | batch
    · cases e <;> exact ih
    · exact ih
    · exact ih
    · have hnext := nextContext_marks rest
      change batch <:+ (nextContext (marks rest)).getD waiting ∧ Seen waiting (marks rest) ↔
        batch <:+ (nextContext rest).getD waiting ∧ Seen waiting rest
      rw [hnext, ih]

theorem Seen.append {waiting' : List AgentMessage} {t t' : Trace} (h : Seen waiting t)
    (hnext : waiting <:+ (nextContext t').getD waiting') (h' : Seen waiting' t') :
    Seen waiting' (t ++ t') := by
  induction t with
  | nil => exact h'
  | cons o rest ih =>
    cases o with
    | event e => exact ih h
    | context seen => exact ih h
    | answer answer => exact ih h
    | supplied batch =>
      refine ⟨?_, ih h.2⟩
      change batch <:+ (nextContext (rest ++ t')).getD waiting'
      rw [nextContext_append_or]
      cases hrest : nextContext rest with
      | some seen =>
        have hbatch := h.1
        rw [hrest] at hbatch
        exact hbatch
      | none =>
        have hbatch := h.1
        rw [hrest] at hbatch
        exact hbatch.trans hnext

theorem Seen.next {batch messages : List AgentMessage} {before after : Trace}
    (h : Seen waiting (before ++ .supplied batch :: after))
    (hnext : nextContext after = some messages) : batch <:+ messages := by
  induction before with
  | nil =>
    have hbatch := h.1
    rw [hnext] at hbatch
    exact hbatch
  | cons o rest ih =>
    cases o with
    | supplied earlier => exact ih h.2
    | event e => exact ih h
    | context seen => exact ih h
    | answer answer => exact ih h

theorem seen_endedAll (waiting messages : List AgentMessage) :
    Seen waiting (endedAll messages) := by
  induction messages with
  | nil => trivial
  | cons m rest ih => exact ih

theorem seen_attemptMarks (waiting : List AgentMessage) (attempts : List Attempt) :
    Seen waiting (attemptMarks attempts) := by
  induction attempts with
  | nil => trivial
  | cons a rest ih => exact ih

theorem Seen.quiet {t t' : Trace} (h : ∀ w, Seen w t)
    (h' : Seen waiting t') : Seen waiting (t ++ t') :=
  (h _).append (suffix_refl _) h'

theorem seen_call {firstTurn : Bool} {pending : List AgentMessage}
    {attempts : List Attempt} {rest : Trace} (hrest : Seen waiting rest) :
    Seen waiting (opening firstTurn ++ (endedAll pending ++ (attemptMarks attempts ++ rest))) := by
  refine Seen.quiet ?_ (Seen.quiet (fun w => seen_endedAll w pending)
    (Seen.quiet (fun w => seen_attemptMarks w attempts) hrest))
  intro w
  cases firstTurn
  · trivial
  · trivial

theorem nextContext_call (firstTurn : Bool) (pending : List AgentMessage) (t : Trace) :
    nextContext (opening firstTurn ++ (endedAll pending ++ t)) = nextContext t := by
  rw [nextContext_append_or, nextContext_opening, nextContext_append_or, nextContext_endedAll]
  rfl

end Contexts

section Keeping

variable {H : LoopHost σ τ} {s s' : LoopState (σ × Trace)} {prompts : List AgentMessage}

/-- What was obtained from the suppliers is in the new messages, next to the prompts and to
what turns brought, or still waits; and it was seen by the model. -/
structure Keeping (prompts : List AgentMessage) (waiting : List AgentMessage)
    (s : LoopState (σ × Trace)) : Prop where
  kept : ∃ taken, supplied s.host.2 = taken ++ waiting ∧
    Interleaved taken (prompts ++ produced s.host.2) s.newMessages
  seen : Seen waiting s.host.2

variable {pending : List AgentMessage}

variable {waiting c : List AgentMessage}

theorem Keeping.call {r brought : List AgentMessage} {t : Trace}
    (h : Keeping prompts pending s) (hadds : Adds s s' c (pending ++ r) t)
    (hsupplied : supplied t = waiting) (hproduced : produced t = brought) (hr : r = brought)
    (hsees : nextContext t = some (s.messages ++ pending)) (hseen : Seen waiting t) :
    Keeping prompts waiting s' := by
  obtain ⟨taken, htaken, hinterleaved⟩ := h.kept
  constructor
  · refine ⟨taken ++ pending, ?_, ?_⟩
    · rw [hadds.supplied, htaken, hsupplied]
    · rw [hadds.produced, hproduced, hadds.newMessages, hr, ← append_assoc prompts]
      exact hinterleaved.append (Interleaved.concat pending brought)
  · rw [← seen_marks, hadds.trace]
    refine (seen_marks _ |>.mpr h.seen).append ?_ hseen
    rw [hsees]
    exact suffix_append _ _

theorem Keeping.turn {t : Turn} {firstTurn : Bool}
    {rest : Trace} (h : Keeping prompts pending s) (ht : TurnOf H pending s t)
    (hadds : Adds s s' c t.recorded (t.marks firstTurn ++ rest))
    (hsupplied : supplied rest = waiting) (hproduced : produced rest = [])
    (hseen : Seen waiting rest) : Keeping prompts waiting s' := by
  have hrecorded : t.recorded = pending ++ t.produced := by
    rw [Turn.recorded, ht.injected]
  rw [hrecorded] at hadds
  refine h.call hadds ?_ ?_ rfl ?_ ?_
  · rw [supplied_append, supplied_turn, hsupplied, nil_append]
  · rw [produced_append, produced_turn, hproduced, append_nil]
  · rw [Turn.marks, append_assoc, append_assoc, nextContext_call]
    simp only [append_assoc]
    exact nextContext_append _ ht.sees
  · have hends : ∀ w, Seen w (endedAll (resultMessages t.results)) :=
      fun w => seen_endedAll w _
    simp only [Turn.marks, append_assoc]
    exact seen_call (Seen.quiet hends hseen)

theorem keeping_start (hnew : s.newMessages = prompts)
    (hmarks : marks s.host.2 = .event .turnStart :: endedAll prompts ++ [.supplied pending]) :
    Keeping prompts pending s := by
  have hsupplied : AgentCore.supplied s.host.2 = pending := by
    rw [← supplied_marks, hmarks]
    change AgentCore.supplied (endedAll prompts ++ [.supplied pending]) = pending
    rw [supplied_append, supplied_endedAll]
    exact append_nil pending
  have hproduced : AgentCore.produced s.host.2 = [] := by
    rw [← produced_marks, hmarks]
    change AgentCore.produced (endedAll prompts ++ [.supplied pending]) = []
    rw [produced_append, produced_endedAll]
    rfl
  constructor
  · refine ⟨[], hsupplied, ?_⟩
    rw [hproduced, hnew, append_nil]
    exact .rightOnly prompts
  · rw [← seen_marks, hmarks]
    exact Seen.quiet (fun w => seen_endedAll w prompts) ⟨suffix_refl pending, trivial⟩

theorem Keeping.exceed (h : Keeping prompts pending s) :
    Keeping prompts pending (exceedIterations H.traced s) := by
  obtain ⟨m, hadds⟩ := exceedIterations_adds H s
  obtain ⟨taken, htaken, hinterleaved⟩ := h.kept
  constructor
  · refine ⟨taken, ?_, ?_⟩
    · rw [hadds.supplied, htaken]
      exact append_nil _
    · have hall := hinterleaved.append (.rightOnly [m.toAgentMessage])
      rw [append_nil, append_assoc] at hall
      rw [hadds.produced, hadds.newMessages]
      exact hall
  · rw [← seen_marks, hadds.trace]
    exact (seen_marks _ |>.mpr h.seen).append (suffix_refl pending) trivial

theorem Started.keeping {messages : List AgentMessage} {host : σ}
    {r : LoopState (σ × Trace) × LoopEnd} (h : Started H.traced messages (host, []) prompts r) :
    Keeping prompts ((waitingAtLimit H prompts messages host).getD []) r.1 := by
  obtain ⟨pending, s, rfl, -, hnew, hmarks, hwaiting⟩ := h.iterates
  refine runTurns_rule
    (fun left firstTurn pending s => Keeping prompts pending s ∧
      pendingAtLimit H.traced left firstTurn pending s = waitingAtLimit H prompts messages host)
    (fun r => Keeping prompts ((waitingAtLimit H prompts messages host).getD []) r.1) ?_ ?_ ?_
    ⟨keeping_start hnew hmarks, hwaiting⟩
  · rintro firstTurn pending s ⟨hs, hw⟩
    rw [← hw]
    exact hs.exceed
  · rintro left firstTurn pending s s' ended ⟨hs, hw⟩ hturn hran
    have hnone : waitingAtLimit H prompts messages host = none := by
      rw [← hw, pendingAtLimit, hturn]
    rw [hnone]
    cases hran with
    | threw failed context seen answer hretries hsees hadds =>
      have hcall : Adds s s' (pending ++ context) (pending ++ []) (opening firstTurn ++
          (endedAll pending ++ (attemptMarks failed ++ [.context seen, .answer answer]))) :=
        hadds.congr rfl (append_nil _).symm rfl
      refine hs.call hcall ?_ ?_ rfl ?_ (seen_call trivial)
      · rw [supplied_append, supplied_append, supplied_append, supplied_opening, supplied_endedAll,
          supplied_attemptMarks]
        rfl
      · rw [produced_append, produced_append, produced_append, produced_opening, produced_endedAll,
          produced_attemptMarks]
        rfl
      · rw [nextContext_call]
        have hlast := nextContext_append [.answer answer] hsees
        rwa [append_assoc] at hlast
    | stopped t ht hadds => exact hs.turn ht hadds rfl rfl trivial
    | idle t ht hreply hadds =>
      exact hs.turn ht hadds rfl rfl ⟨suffix_refl _, suffix_refl _, trivial⟩
  · rintro left firstTurn pending s s' next ⟨hs, hw⟩ hturn hran
    have hnext : pendingAtLimit H.traced left false next s' =
        waitingAtLimit H prompts messages host := by
      rw [← hw, pendingAtLimit, hturn]
    refine ⟨?_, hnext⟩
    cases hran with
    | steered t ht hreply next hadds =>
      exact hs.turn ht hadds (append_nil next) rfl ⟨suffix_refl _, trivial⟩
    | followed t ht hreply next hadds =>
      exact hs.turn ht hadds (append_nil next) rfl ⟨nil_suffix, suffix_refl _, trivial⟩

end Keeping

/-- What a run obtained from the suppliers is in its new messages, each message once and in
the order obtained, next to its prompts and to what its turns brought, exactly unless messages
wait when the run goes past the iteration limit. The model sees every batch as the end of its
next context; and when the loop returns, its context has the initial and the new messages once
and in order, next to what streams left behind. -/
theorem supplied_kept {H : LoopHost σ τ} {messages prompts : List AgentMessage} {host : σ}
    {r : LoopState (σ × Trace) × LoopEnd} (h : Started H.traced messages (host, []) prompts r) :
    (Interleaved (supplied r.1.host.2) (prompts ++ produced r.1.host.2) r.1.newMessages ↔
      ∀ waiting, waitingAtLimit H prompts messages host = some waiting → waiting = []) ∧
    (∀ before batch after seen, r.1.host.2 = before ++ .supplied batch :: after →
      nextContext after = some seen → batch <:+ seen) ∧
    (r.2 = .returned → Interleaved (messages ++ r.1.newMessages) (leftovers (answers r.1.host.2))
      r.1.messages) := by
  have hkeeping := h.keeping
  refine ⟨?_, ?_, fun hr => (h.booked hr).context⟩
  · obtain ⟨taken, htaken, hinterleaved⟩ := hkeeping.kept
    constructor
    · intro hall waiting hwaiting
      have hlength := hall.length
      have htakenLength := hinterleaved.length
      rw [htaken, length_append, hwaiting, Option.getD_some] at hlength
      exact length_eq_zero_iff.mp (by omega)
    · intro hnone
      have hwaiting : (waitingAtLimit H prompts messages host).getD [] = [] := by
        cases hw : waitingAtLimit H prompts messages host with
        | none => rfl
        | some waiting => exact hnone waiting hw
      rw [hwaiting, append_nil] at htaken
      rw [htaken]
      exact hinterleaved
  · intro before batch after seen htrace hnext
    have hseen := hkeeping.seen
    rw [htrace] at hseen
    exact hseen.next hnext

def steeredRun : LoopState (Script × Trace) × LoopEnd :=
  runAgentLoop (scriptHost 1).traced [userMessage "hi"] []
    (⟨[.ok (streamOf (textReply "hello"))], [[], [userMessage "wait"]], []⟩, [])

/-- A steering message that arrives in the last iteration is taken off its queue and lost. -/
theorem steeredRun_loses :
    steeredRun.2 = .returned ∧ supplied steeredRun.1.host.2 = [userMessage "wait"] ∧
      userMessage "wait" ∉ steeredRun.1.newMessages ∧
      userMessage "wait" ∉ steeredRun.1.messages ∧
      ¬ Interleaved (supplied steeredRun.1.host.2)
        ([userMessage "hi"] ++ produced steeredRun.1.host.2) steeredRun.1.newMessages := by
  refine ⟨by decide, by decide, by decide, by decide, ?_⟩
  intro h
  have hlength := h.length
  revert hlength
  decide

/-- A run with room for another iteration when a steering message arrives. -/
def answeredRun : LoopState (Script × Trace) × LoopEnd :=
  runAgentLoop (scriptHost 5).traced [userMessage "hi"] []
    (⟨[.ok (streamOf (textReply "hello")), .ok (streamOf (textReply "ok"))],
      [[], [userMessage "wait"]], []⟩, [])

/-- With room for another iteration the steering message is kept. -/
theorem answeredRun_keeps :
    supplied answeredRun.1.host.2 = [userMessage "wait"] ∧
      Interleaved (supplied answeredRun.1.host.2)
        ([userMessage "hi"] ++ produced answeredRun.1.host.2) answeredRun.1.newMessages := by
  have hstart : Started (scriptHost 5).traced [] (_, []) [userMessage "hi"] answeredRun :=
    .prompted [userMessage "hi"]
  refine ⟨by decide, (supplied_kept hstart).1.mpr ?_⟩
  intro waiting hwaiting
  have hnone : waitingAtLimit (scriptHost 5) [userMessage "hi"] []
      ⟨[.ok (streamOf (textReply "hello")), .ok (streamOf (textReply "ok"))],
        [[], [userMessage "wait"]], []⟩ = none := by decide
  rw [hnone] at hwaiting
  cases hwaiting

end CrabbyKit.AgentCore
