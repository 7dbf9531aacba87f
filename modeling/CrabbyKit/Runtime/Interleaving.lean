import CrabbyKit.Core.Run
import CrabbyKit.Runtime.Queue

/-!
# Interleaved prompts of one session

`handlePrompt`, `handleAgentPrompt`, the queue action, `processQueue` and the `agent_end`
listener of `agent-runtime.ts`, cut at their awaits. Handlers in flight may go on in any
order; every agent that `ensureAgent` creates replaces the one registered before.
-/

namespace CrabbyKit

open List

/-- What a handler of a prompt awaits: the bundle, the creation of its agent, or its turn to
go on after that. -/
inductive Stage
  | dispatching | creating | created
  deriving DecidableEq, Repr

structure Handler where
  text : String
  stage : Stage
  deriving DecidableEq, Repr

/-- A run in progress: its agent and its prompt. -/
structure ActiveRun where
  agent : Nat
  text : String
  deriving DecidableEq, Repr

/-- A session with its handlers in flight. The lists `accepted`, `started` and `errors` are
kept for the record only. -/
structure SessionTasks where
  hasBundle : Bool := false
  accepted : List String := []
  entries : List String := []
  queue : QueueStore := {}
  handlers : List Handler := []
  registered : Option Nat := none
  agents : Nat := 0
  active : List ActiveRun := []
  started : List String := []
  errors : List String := []
  deriving DecidableEq, Repr

/-- What may happen next. A queued message takes its id and its time from `nanoid` and
`now`. -/
inductive TaskEvent
  | prompt (text nanoid : String) (now : Instant)
  | agentPrompt (text : String)
  | queueMessage (text nanoid : String) (now : Instant)
  | bundleReturned (text : String) (handled : Bool) (nanoid : String) (now : Instant)
  | agentCreated (text : String) (outcome : Except String Unit)
  | resumed (text : String)
  | agentEnded (run : ActiveRun) (nanoid : String) (now : Instant)

namespace SessionTasks

variable (sessionId : String)

/-- `existingAgent?.state.isStreaming`. -/
def isStreaming (s : SessionTasks) : Bool :=
  s.registered.any fun agent => s.active.any fun run => run.agent = agent

def queued (s : SessionTasks) : List String := s.queue.texts sessionId

def pending (s : SessionTasks) : List String := s.handlers.map Handler.text

def suspend (h : Handler) (s : SessionTasks) : SessionTasks :=
  { s with handlers := s.handlers ++ [h] }

def finish (h : Handler) (s : SessionTasks) : SessionTasks :=
  { s with handlers := s.handlers.erase h }

def fail (e : String) (s : SessionTasks) : SessionTasks := { s with errors := s.errors ++ [e] }

/-- Queue a prompt. -/
def enqueue (text nanoid : String) (now : Instant) (s : SessionTasks) : SessionTasks :=
  match s.queue.enqueue sessionId text nanoid now with
  | .ok queue => { s with queue := queue }
  | .error e => s.fail e

/-- `handlePrompt` from its streaming check on. -/
def checkStreaming (text nanoid : String) (now : Instant) (s : SessionTasks) : SessionTasks :=
  if s.isStreaming then s.enqueue sessionId text nanoid now else s.suspend ⟨text, .creating⟩

/-- Persist the user message entry of a prompt. -/
def persist (text : String) (s : SessionTasks) : SessionTasks :=
  { s with entries := s.entries ++ [text] }

/-- `handlePrompt` up to its first await. -/
def handlePrompt (text nanoid : String) (now : Instant) (s : SessionTasks) : SessionTasks :=
  let s := s.persist text
  if s.hasBundle then s.suspend ⟨text, .dispatching⟩
  else s.checkStreaming sessionId text nanoid now

/-- Count a prompt as accepted. -/
def accept (text : String) (s : SessionTasks) : SessionTasks :=
  { s with accepted := s.accepted ++ [text] }

/-- `handleAgentPrompt` up to its first await: it refuses while the agent is busy. -/
def handleAgentPrompt (text : String) (s : SessionTasks) : SessionTasks :=
  if s.isStreaming then s.fail "Agent is busy on this session"
  else ((s.accept text).persist text).suspend ⟨text, .creating⟩

/-- The queue action `message`: queue behind a busy agent, or handle the prompt. -/
def queueMessage (text nanoid : String) (now : Instant) (s : SessionTasks) : SessionTasks :=
  if s.isStreaming then (s.accept text).enqueue sessionId text nanoid now
  else (s.accept text).handlePrompt sessionId text nanoid now

def bundleReturned (text : String) (handled : Bool) (nanoid : String) (now : Instant)
    (s : SessionTasks) : SessionTasks :=
  if ⟨text, .dispatching⟩ ∈ s.handlers then
    let s := s.finish ⟨text, .dispatching⟩
    if handled then s else s.checkStreaming sessionId text nanoid now
  else s

/-- `ensureAgent` of a handler ends: it registers a new agent, or throws. -/
def agentCreated (text : String) (outcome : Except String Unit) (s : SessionTasks) :
    SessionTasks :=
  if ⟨text, .creating⟩ ∈ s.handlers then
    let s := s.finish ⟨text, .creating⟩
    match outcome with
    | .error e => s.fail e
    | .ok () =>
      { s.suspend ⟨text, .created⟩ with registered := some s.agents, agents := s.agents + 1 }
  else s

/-- A handler goes on after `ensureAgent`: it prompts the agent that is registered then. -/
def resumed (text : String) (s : SessionTasks) : SessionTasks :=
  if ⟨text, .created⟩ ∈ s.handlers then
    let s := s.finish ⟨text, .created⟩
    match s.registered with
    | none => s.fail "Agent failed to initialize"
    | some agent =>
      if s.isStreaming then s.fail "Agent is already processing a prompt."
      else { s with active := s.active ++ [⟨agent, text⟩], started := s.started ++ [text] }
  else s

/-- Handle the oldest queued prompt, if there is one. -/
def processQueue (nanoid : String) (now : Instant) (s : SessionTasks) : SessionTasks :=
  match s.queue.dequeue sessionId with
  | (_, none) => s
  | (queue, some next) =>
    { s with queue := queue }.handlePrompt sessionId next.text nanoid now

/-- `agent_end` of a run: the registered agent goes, whichever it is, and the queue is
processed. -/
def agentEnded (run : ActiveRun) (nanoid : String) (now : Instant) (s : SessionTasks) :
    SessionTasks :=
  if run ∈ s.active then
    { s with active := s.active.erase run, registered := none }.processQueue sessionId nanoid now
  else s

/-- The state after an event. -/
def step (s : SessionTasks) : TaskEvent → SessionTasks
  | .prompt text nanoid now => (s.accept text).handlePrompt sessionId text nanoid now
  | .agentPrompt text => s.handleAgentPrompt text
  | .queueMessage text nanoid now => s.queueMessage sessionId text nanoid now
  | .bundleReturned text handled nanoid now => s.bundleReturned sessionId text handled nanoid now
  | .agentCreated text outcome => s.agentCreated text outcome
  | .resumed text => s.resumed text
  | .agentEnded run nanoid now => s.agentEnded sessionId run nanoid now

/-- No prompt is lost, duplicated or clobbered: at most one run is active, every accepted
prompt is queued or persisted once, and queued, in flight or started once, and a prompt
waits in the queue only while a run or a handler is there whose end will process it. -/
structure PromptsKept (s : SessionTasks) : Prop where
  oneRun : s.active.length ≤ 1
  persisted : (s.entries ++ s.queued sessionId).Perm s.accepted
  started : (s.started ++ s.pending ++ s.queued sessionId).Perm s.accepted
  awaited : s.queued sessionId ≠ [] → s.active ≠ [] ∨ s.handlers ≠ []

/-- The events that go right: no handler that checks finds its agent busy, the bundle, if
there is one, leaves the turn to the agent, the id of a queued message is new, and
`ensureAgent` returns, while no run is active and no other handler is about to prompt. -/
def Serial (s : SessionTasks) : TaskEvent → Prop
  | .prompt _ _ _ => s.hasBundle = false → s.isStreaming = false
  | .queueMessage _ nanoid _ => s.isStreaming = true → s.queue.get nanoid = none
  | .bundleReturned text handled _ _ => ⟨text, .dispatching⟩ ∈ s.handlers →
    handled = false ∧ s.isStreaming = false
  | .agentCreated text outcome => ⟨text, .creating⟩ ∈ s.handlers →
    outcome = .ok () ∧ s.active = [] ∧ ∀ h ∈ s.handlers, h.stage ≠ .created
  | _ => True

/-- The runs that are active or about to be. -/
def turns (s : SessionTasks) : Nat :=
  s.active.length + s.handlers.countP fun h => h.stage = .created

/-- The invariant of serial events. -/
structure Sound (s : SessionTasks) : Prop where
  keyed : s.queue.Keyed
  persisted : ∀ t, s.entries.count t + (s.queued sessionId).count t = s.accepted.count t
  started : ∀ t, s.started.count t + s.pending.count t + (s.queued sessionId).count t =
    s.accepted.count t
  oneTurn : s.turns ≤ 1
  registered : ∀ h ∈ s.handlers, h.stage = .created → s.registered ≠ none
  streams : ∀ run ∈ s.active, s.registered = some run.agent
  awaited : s.queued sessionId ≠ [] → s.active ≠ [] ∨ s.handlers ≠ []

section Steps

variable {sessionId : String} {s : SessionTasks} {text nanoid : String} {now : Instant}

theorem sound_start (hasBundle : Bool) : Sound sessionId { hasBundle := hasBundle } where
  keyed := nodup_nil
  persisted := fun _ => rfl
  started := fun _ => rfl
  oneTurn := Nat.zero_le 1
  registered := fun _ h => absurd h not_mem_nil
  streams := fun _ h => absurd h not_mem_nil
  awaited := fun h => absurd rfl h

theorem Sound.promptsKept (h : Sound sessionId s) : PromptsKept sessionId s where
  oneRun := by
    have hturn := h.oneTurn
    unfold turns at hturn
    omega
  persisted := by
    rw [perm_iff_count]
    intro t
    rw [count_append]
    exact h.persisted t
  started := by
    rw [perm_iff_count]
    intro t
    rw [count_append, count_append]
    exact h.started t
  awaited := h.awaited

theorem Sound.isStreaming_eq (h : Sound sessionId s) : s.isStreaming = true ↔ s.active ≠ [] := by
  unfold isStreaming
  rw [Option.any_eq_true]
  constructor
  · rintro ⟨agent, -, hany⟩ hnil
    rw [hnil] at hany
    cases hany
  · intro hne
    obtain ⟨run, hrun⟩ := exists_mem_of_ne_nil _ hne
    refine ⟨run.agent, h.streams run hrun, ?_⟩
    rw [any_eq_true]
    exact ⟨run, hrun, decide_eq_true rfl⟩

theorem count_finish {h : Handler} (hmem : h ∈ s.handlers) (t : String) :
    s.pending.count t = (if h.text = t then 1 else 0) + (s.finish h).pending.count t := by
  have hperm := ((perm_cons_erase hmem).map Handler.text).count_eq t
  unfold pending finish
  rw [hperm, map_cons, count_cons]
  simp only [beq_iff_eq]
  omega

theorem turns_finish {h : Handler} (hmem : h ∈ s.handlers) :
    s.turns = (s.finish h).turns + if h.stage = .created then 1 else 0 := by
  have hperm := (perm_cons_erase hmem).countP_eq fun h => h.stage = .created
  unfold turns finish
  rw [hperm, countP_cons]
  simp only [decide_eq_true_eq]
  omega

theorem count_suspend (h : Handler) (t : String) :
    (s.suspend h).pending.count t = s.pending.count t + if h.text = t then 1 else 0 := by
  unfold pending suspend
  rw [map_append, count_append]
  simp [count_cons]

theorem turns_suspend (h : Handler) :
    (s.suspend h).turns = s.turns + if h.stage = .created then 1 else 0 := by
  unfold turns suspend
  rw [countP_append]
  simp only [countP_cons, countP_nil, decide_eq_true_eq]
  omega

theorem Sound.persistNew (h : Sound sessionId s) (text : String) {stage : Stage}
    (hstage : stage ≠ .created) :
    Sound sessionId (((s.accept text).persist text).suspend ⟨text, stage⟩) where
  keyed := h.keyed
  persisted := by
    intro t
    have hold := h.persisted t
    simp only [suspend, persist, accept, count_append, count_singleton, queued] at hold ⊢
    omega
  started := by
    intro t
    have hold := h.started t
    rw [count_suspend]
    simp only [suspend, persist, accept, count_append, count_singleton, queued, pending,
      beq_iff_eq] at hold ⊢
    omega
  oneTurn := by
    rw [turns_suspend, if_neg hstage]
    exact h.oneTurn
  registered := by
    intro q hq hcreated
    rcases mem_append.mp hq with hq | hq
    · exact h.registered q hq hcreated
    · obtain rfl := mem_singleton.mp hq
      exact absurd hcreated hstage
  streams := h.streams
  awaited := fun _ => Or.inr (by simp [suspend])

theorem Sound.enqueueNew (h : Sound sessionId s) (hbusy : s.active ≠ [])
    (hfresh : s.queue.get nanoid = none) (text : String) (now : Instant) :
    Sound sessionId ((s.accept text).enqueue sessionId text nanoid now) := by
  obtain ⟨queue, hqueue⟩ := QueueStore.enqueue_of_none hfresh sessionId text now
  have htexts : ∀ t, (queue.texts sessionId).count t =
      (s.queued sessionId).count t + if text = t then 1 else 0 := by
    intro t
    rw [(QueueStore.texts_enqueue hqueue).count_eq t, count_cons]
    simp only [beq_iff_eq, queued]
  have hstate : (s.accept text).enqueue sessionId text nanoid now =
      { s.accept text with queue := queue } := by
    unfold SessionTasks.enqueue
    simp only [accept, hqueue]
  rw [hstate]
  refine ⟨h.keyed.enqueue hqueue, fun t => ?_, fun t => ?_, h.oneTurn, h.registered, h.streams,
    fun _ => Or.inl hbusy⟩
  · have hold := h.persisted t
    have hnew := htexts t
    simp only [accept, count_append, count_singleton, queued, beq_iff_eq] at hold hnew ⊢
    omega
  · have hold := h.started t
    have hnew := htexts t
    simp only [accept, count_append, count_singleton, queued, pending, beq_iff_eq] at hold hnew ⊢
    omega

theorem handlePrompt_eq (s : SessionTasks) (h : s.hasBundle = false → s.isStreaming = false)
    (sessionId text nanoid : String) (now : Instant) : ∃ stage, stage ≠ .created ∧
      s.handlePrompt sessionId text nanoid now = (s.persist text).suspend ⟨text, stage⟩ := by
  unfold handlePrompt
  by_cases hbundle : s.hasBundle = true
  · exact ⟨.dispatching, nofun, if_pos hbundle⟩
  · have hidle : (s.persist text).isStreaming = false := h (Bool.eq_false_iff.mpr hbundle)
    refine ⟨.creating, nofun, (if_neg hbundle).trans ?_⟩
    unfold checkStreaming
    rw [hidle]
    rfl

theorem Sound.dispatched (h : Sound sessionId s) (hmem : ⟨text, .dispatching⟩ ∈ s.handlers) :
    Sound sessionId ((s.finish ⟨text, .dispatching⟩).suspend ⟨text, .creating⟩) where
  keyed := h.keyed
  persisted := h.persisted
  started := by
    intro t
    have hold := h.started t
    rw [count_finish hmem t] at hold
    rw [count_suspend]
    simp only [suspend, finish, queued] at hold ⊢
    omega
  oneTurn := by
    have hold := h.oneTurn
    rw [turns_finish hmem] at hold
    rw [turns_suspend]
    simp only [reduceCtorEq, if_false] at hold ⊢
    exact hold
  registered := by
    intro q hq hcreated
    rcases mem_append.mp hq with hq | hq
    · exact h.registered q (mem_of_mem_erase hq) hcreated
    · obtain rfl := mem_singleton.mp hq
      cases hcreated
  streams := h.streams
  awaited := fun _ => Or.inr (by simp [suspend])

theorem Sound.agentCreated (h : Sound sessionId s) (hmem : ⟨text, .creating⟩ ∈ s.handlers)
    (hactive : s.active = []) (hcreated : ∀ h ∈ s.handlers, h.stage ≠ .created) :
    Sound sessionId { (s.finish ⟨text, .creating⟩).suspend ⟨text, .created⟩ with
      registered := some s.agents, agents := s.agents + 1 } where
  keyed := h.keyed
  persisted := h.persisted
  started := by
    intro t
    have hold := h.started t
    have hnew := count_suspend (s := s.finish ⟨text, .creating⟩) ⟨text, .created⟩ t
    rw [count_finish hmem t] at hold
    simp only [suspend, finish, queued, pending] at hold hnew ⊢
    omega
  oneTurn := by
    have hnone : s.turns = 0 := by
      have hcount : s.handlers.countP (fun h => h.stage = .created) = 0 := by
        rw [countP_eq_zero]
        intro q hq
        simpa using hcreated q hq
      unfold turns
      rw [hcount, hactive]
      rfl
    have hnew := turns_suspend (s := s.finish ⟨text, .creating⟩) ⟨text, .created⟩
    rw [turns_finish hmem] at hnone
    simp only [turns, suspend, finish, reduceCtorEq, if_false, if_true] at hnone hnew ⊢
    omega
  registered := fun _ _ _ => Option.some_ne_none s.agents
  streams := by
    intro run hrun
    have hrun' : run ∈ s.active := hrun
    rw [hactive] at hrun'
    exact absurd hrun' not_mem_nil
  awaited := fun _ => Or.inr (by simp [suspend])

theorem Sound.resumed (h : Sound sessionId s) (text : String) :
    Sound sessionId (s.resumed text) := by
  unfold SessionTasks.resumed
  by_cases hmem : ⟨text, .created⟩ ∈ s.handlers
  · have hturns : s.active = [] ∧ (s.finish ⟨text, .created⟩).turns = 0 := by
      have hold := h.oneTurn
      have hlength : s.active.length ≤ (s.finish ⟨text, .created⟩).turns :=
        Nat.le_add_right s.active.length _
      rw [turns_finish hmem, if_pos rfl] at hold
      refine ⟨length_eq_zero_iff.mp ?_, ?_⟩
      · omega
      · omega
    obtain ⟨hactive, hnone⟩ := hturns
    have hidle : (s.finish ⟨text, .created⟩).isStreaming = false := by
      rw [Bool.eq_false_iff]
      intro hstream
      exact h.isStreaming_eq.mp hstream hactive
    obtain ⟨agent, hagent⟩ := Option.ne_none_iff_exists'.mp (h.registered _ hmem rfl)
    have hregistered : (s.finish ⟨text, .created⟩).registered = some agent := hagent
    rw [if_pos hmem]
    simp only [hregistered, hidle, Bool.false_eq_true, if_false]
    refine ⟨h.keyed, h.persisted, fun t => ?_, ?_, ?_, ?_, ?_⟩
    · have hold := h.started t
      rw [count_finish hmem t] at hold
      simp only [finish, queued, pending, count_append, count_singleton, beq_iff_eq] at hold ⊢
      omega
    · simp only [turns, finish, length_append, length_singleton] at hnone ⊢
      omega
    · intro q hq hcreated
      exact hagent ▸ Option.some_ne_none agent
    · intro run hrun
      have hrun' : run ∈ s.active ++ [⟨agent, text⟩] := hrun
      rw [hactive, nil_append] at hrun'
      obtain rfl := mem_singleton.mp hrun'
      rfl
    · exact fun _ => Or.inl (by simp)
  · rw [if_neg hmem]
    exact h

theorem Sound.runEnded (h : Sound sessionId s) {run : ActiveRun} (hmem : run ∈ s.active) :
    s.active.erase run = [] ∧ ∀ q ∈ s.handlers, q.stage ≠ .created := by
  have hturn := h.oneTurn
  have hlength := length_erase_of_mem hmem
  have hpos := length_pos_of_mem hmem
  unfold turns at hturn
  refine ⟨length_eq_zero_iff.mp ?_, ?_⟩
  · omega
  · intro q hq hcreated
    have hcount : 0 < s.handlers.countP fun h => h.stage = .created :=
      countP_pos_iff.mpr ⟨q, hq, decide_eq_true hcreated⟩
    omega

theorem Sound.agentEnded (h : Sound sessionId s) (run : ActiveRun) (nanoid : String)
    (now : Instant) : Sound sessionId (s.agentEnded sessionId run nanoid now) := by
  unfold SessionTasks.agentEnded
  by_cases hmem : run ∈ s.active
  · obtain ⟨hactive, hcreated⟩ := h.runEnded hmem
    rw [if_pos hmem, hactive]
    unfold processQueue
    simp only
    cases hdequeue : s.queue.dequeue sessionId with
    | mk queue item =>
      cases item with
      | none =>
        have hnone := QueueStore.texts_of_dequeue_none (congrArg Prod.snd hdequeue)
        refine ⟨h.keyed, h.persisted, h.started, ?_, ?_, ?_, fun hne => absurd hnone.2 hne⟩
        · have hold := h.oneTurn
          simp only [turns, length_nil] at hold ⊢
          omega
        · exact fun q hq hstage => absurd hstage (hcreated q hq)
        · exact fun _ hrun => absurd hrun not_mem_nil
      | some next =>
        have htexts : ∀ t, (s.queued sessionId).count t =
            (queue.texts sessionId).count t + if next.text = t then 1 else 0 := by
          intro t
          have hperm := (h.keyed.texts_dequeue hdequeue).count_eq t
          rw [count_cons] at hperm
          simp only [beq_iff_eq] at hperm
          exact hperm
        have hkeyed : queue.Keyed := by
          have hnew := h.keyed.dequeue sessionId
          rw [hdequeue] at hnew
          exact hnew
        obtain ⟨stage, hstage, heq⟩ :=
          handlePrompt_eq { s with active := [], registered := none, queue := queue }
            (fun _ => rfl) sessionId next.text nanoid now
        simp only
        rw [heq]
        refine ⟨hkeyed, fun t => ?_, fun t => ?_, ?_, ?_, ?_, ?_⟩
        · have hold := h.persisted t
          have hnew := htexts t
          simp only [suspend, persist, queued, count_append, count_singleton,
            beq_iff_eq] at hold hnew ⊢
          omega
        · have hold := h.started t
          have hnew := htexts t
          rw [count_suspend]
          simp only [suspend, persist, queued, pending] at hold hnew ⊢
          omega
        · have hold := h.oneTurn
          rw [turns_suspend, if_neg hstage]
          simp only [turns, persist, length_nil] at hold ⊢
          omega
        · intro q hq hstage'
          rcases mem_append.mp hq with hq | hq
          · exact absurd hstage' (hcreated q hq)
          · obtain rfl := mem_singleton.mp hq
            exact absurd hstage' hstage
        · exact fun _ hrun => absurd hrun not_mem_nil
        · exact fun _ => Or.inr (by simp [suspend])
  · rw [if_neg hmem]
    exact h

theorem Sound.step (h : Sound sessionId s) {e : TaskEvent} (he : Serial s e) :
    Sound sessionId (step sessionId s e) := by
  cases e with
  | prompt text nanoid now =>
    obtain ⟨stage, hstage, heq⟩ := handlePrompt_eq (s.accept text) he sessionId text nanoid now
    simp only [SessionTasks.step, heq]
    exact h.persistNew text hstage
  | agentPrompt text =>
    simp only [SessionTasks.step, handleAgentPrompt]
    split_ifs
    · exact ⟨h.keyed, h.persisted, h.started, h.oneTurn, h.registered, h.streams, h.awaited⟩
    · exact h.persistNew text nofun
  | queueMessage text nanoid now =>
    simp only [SessionTasks.step, SessionTasks.queueMessage]
    split_ifs with hstream
    · exact h.enqueueNew (h.isStreaming_eq.mp hstream) (he hstream) text now
    · have hidle : (s.accept text).hasBundle = false → (s.accept text).isStreaming = false :=
        fun _ => Bool.eq_false_iff.mpr hstream
      obtain ⟨stage, hstage, heq⟩ := handlePrompt_eq (s.accept text) hidle sessionId text nanoid now
      rw [heq]
      exact h.persistNew text hstage
  | bundleReturned text handled nanoid now =>
    simp only [SessionTasks.step, SessionTasks.bundleReturned]
    by_cases hmem : ⟨text, .dispatching⟩ ∈ s.handlers
    · obtain ⟨rfl, hidle⟩ := he hmem
      have hidle' : (s.finish ⟨text, .dispatching⟩).isStreaming = false := hidle
      rw [if_pos hmem]
      simp only [checkStreaming, hidle', Bool.false_eq_true, if_false]
      exact h.dispatched hmem
    · rw [if_neg hmem]
      exact h
  | agentCreated text outcome =>
    simp only [SessionTasks.step, SessionTasks.agentCreated]
    by_cases hmem : ⟨text, .creating⟩ ∈ s.handlers
    · obtain ⟨rfl, hactive, hcreated⟩ := he hmem
      rw [if_pos hmem]
      exact h.agentCreated hmem hactive hcreated
    · rw [if_neg hmem]
      exact h
  | resumed text => exact h.resumed text
  | agentEnded run nanoid now => exact h.agentEnded run nanoid now

end Steps

/-- In every run of serial events the prompts are kept in every state. -/
theorem promptsKept_run {sessionId : String} {hasBundle : Bool} {events : List TaskEvent}
    (h : Run.Allowed Serial (step sessionId) { hasBundle := hasBundle } events) :
    ∀ before after, events = before ++ after →
      PromptsKept sessionId (Run.run (step sessionId) { hasBundle := hasBundle } before) := by
  intro before after hsplit
  have hstep : ∀ s e, Sound sessionId s → Serial s e → Sound sessionId (step sessionId s e) :=
    fun s e hs he => hs.step he
  exact (Run.invariant_of_allowed (sound_start hasBundle) hstep h before after hsplit).promptsKept

/-- A prompt, and a message queued behind its run. -/
def queuedEvents : List TaskEvent :=
  [.prompt "a" "m" 0, .agentCreated "a" (.ok ()), .resumed "a", .queueMessage "b" "m" 1,
    .agentEnded ⟨0, "a"⟩ "n" 2, .agentCreated "b" (.ok ()), .resumed "b"]

theorem queuedEvents_serial : Run.Allowed Serial (step "s") {} queuedEvents := by
  refine Run.allowed_cons (fun _ => rfl) ?_
  refine Run.allowed_cons (fun _ => ⟨rfl, rfl, by decide⟩) ?_
  refine Run.allowed_cons trivial ?_
  refine Run.allowed_cons (fun _ => rfl) ?_
  refine Run.allowed_cons trivial ?_
  refine Run.allowed_cons (fun _ => ⟨rfl, rfl, by decide⟩) ?_
  exact Run.allowed_cons trivial (Run.allowed_nil _ _ _)

/-- After them the prompts are kept. -/
theorem promptsKept_run_queued : PromptsKept "s" (Run.run (step "s") {} queuedEvents) :=
  promptsKept_run queuedEvents_serial queuedEvents [] (append_nil _).symm

/-- A prompt that comes while a run is active: it is persisted, queued, and persisted again
when it is taken from the queue. -/
def lateEvents : List TaskEvent :=
  [.prompt "a" "m" 0, .agentCreated "a" (.ok ()), .resumed "a", .prompt "b" "m" 1,
    .agentEnded ⟨0, "a"⟩ "n" 2]

/-- Two prompts whose agents are created one after the other. -/
def overlappingEvents : List TaskEvent :=
  [.prompt "a" "m" 0, .prompt "b" "n" 0, .agentCreated "a" (.ok ()), .resumed "a",
    .agentCreated "b" (.ok ()), .resumed "b"]

/-- The late prompt is persisted twice, and the overlapping prompts run at the same time. -/
theorem late_and_overlapping_prompts :
    ((Run.run (step "s") {} lateEvents).entries = ["a", "b", "b"] ∧
        ¬ PromptsKept "s" (Run.run (step "s") {} lateEvents)) ∧
      (Run.run (step "s") {} overlappingEvents).active.length = 2 ∧
        ¬ PromptsKept "s" (Run.run (step "s") {} overlappingEvents) := by
  have hentries : (Run.run (step "s") {} lateEvents).entries = ["a", "b", "b"] := by decide
  have haccepted : (Run.run (step "s") {} lateEvents).accepted = ["a", "b"] := by decide
  have hactive : (Run.run (step "s") {} overlappingEvents).active.length = 2 := by decide
  refine ⟨⟨hentries, fun h => ?_⟩, hactive, fun h => ?_⟩
  · have hlength := h.persisted.length_eq
    rw [length_append, hentries, haccepted] at hlength
    simp only [length_cons, length_nil] at hlength
    omega
  · have hone := h.oneRun
    omega

end SessionTasks

end CrabbyKit
