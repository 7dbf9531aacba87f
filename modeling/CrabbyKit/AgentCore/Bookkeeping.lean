import CrabbyKit.AgentCore.Turns
import CrabbyKit.AgentCore.Invariant
import CrabbyKit.Core.Interleaved

/-!
# The three records of a run

The context, the new messages and the announced messages of a run differ by what
streams leave behind and by the replies that a retry gives up, and by nothing else.
-/

namespace CrabbyKit.AgentCore

open List

variable {σ τ : Type}

def Observation.event? : Observation → Option AgentEvent
  | .event e => some e
  | _ => none

/-- The message announced as whole. -/
def Observation.ended? : Observation → Option AgentMessage
  | .event (.messageEnd m) => some m
  | _ => none

def Observation.answer? : Observation → Option (Except String Response)
  | .answer a => some a
  | _ => none

def Observation.agentEnd? : Observation → Option (List AgentMessage)
  | .event (.agentEnd messages) => some messages
  | _ => none

def events (t : Trace) : List AgentEvent := t.filterMap Observation.event?

/-- The messages announced as whole. -/
def endedMessages (t : Trace) : List AgentMessage := t.filterMap Observation.ended?

def answers (t : Trace) : List (Except String Response) := t.filterMap Observation.answer?

def agentEnds (t : Trace) : List (List AgentMessage) := t.filterMap Observation.agentEnd?

/-- The messages of `Agent.state` follow the announced ones. -/
def processLoopEvent (messages : List AgentMessage) : AgentEvent → List AgentMessage
  | .messageEnd m => messages ++ [m]
  | _ => messages

/-- The messages of `Agent.state` after a run. -/
def stateMessages (messages : List AgentMessage) (t : Trace) : List AgentMessage :=
  (events t).foldl processLoopEvent messages

def transientReply : Except String Response → Option AgentMessage
  | .error _ => none
  | .ok response =>
    match response.result with
    | .error _ => none
    | .ok m => if m.transient then some m.toAgentMessage else none

/-- What the streams of some answers leave behind in the context. -/
def leftovers (as : List (Except String Response)) : List AgentMessage :=
  as.flatMap fun
    | .error _ => []
    | .ok response => response.leftovers

section Projections

theorem filterMap_marks {β : Type} {f : Observation → Option β}
    (hf : ∀ o : Observation, o.counted = false → f o = none) (t : Trace) :
    (marks t).filterMap f = t.filterMap f := by
  induction t with
  | nil => rfl
  | cons o rest ih =>
    cases hcount : o.counted with
    | true =>
      have hmarks : marks (o :: rest) = o :: marks rest := filter_cons_of_pos hcount
      rw [hmarks, filterMap_cons, filterMap_cons, ih]
    | false =>
      have hmarks : marks (o :: rest) = marks rest :=
        filter_cons_of_neg (by rw [hcount]; decide)
      rw [hmarks, ih, filterMap_cons_none (hf o hcount)]

theorem endedMessages_marks (t : Trace) : endedMessages (marks t) = endedMessages t := by
  apply filterMap_marks
  rintro (e | _ | _ | _) h
  · cases e <;> first | rfl | cases h
  all_goals rfl

theorem answers_marks (t : Trace) : answers (marks t) = answers t := by
  apply filterMap_marks
  rintro (e | _ | _ | _) h
  · cases e <;> rfl
  all_goals first | rfl | cases h

theorem agentEnds_marks (t : Trace) : agentEnds (marks t) = agentEnds t := by
  apply filterMap_marks
  rintro (e | _ | _ | _) h
  · cases e <;> first | rfl | cases h
  all_goals rfl

variable (messages : List AgentMessage)

/-- `Agent.state` appends what is announced. -/
theorem stateMessages_eq (t : Trace) : stateMessages messages t = messages ++ endedMessages t := by
  induction t generalizing messages with
  | nil => simp [stateMessages, events, endedMessages]
  | cons o rest ih =>
    rcases o with e | _ | _ | _
    · have hrest := ih (processLoopEvent messages e)
      cases e with
      | messageEnd m =>
        refine hrest.trans ?_
        exact append_assoc messages [m] (endedMessages rest)
      | _ => exact hrest
    all_goals exact ih messages

@[simp] theorem endedMessages_append (t t' : Trace) :
    endedMessages (t ++ t') = endedMessages t ++ endedMessages t' := filterMap_append

@[simp] theorem answers_append (t t' : Trace) : answers (t ++ t') = answers t ++ answers t' :=
  filterMap_append

@[simp] theorem agentEnds_append (t t' : Trace) :
    agentEnds (t ++ t') = agentEnds t ++ agentEnds t' := filterMap_append

@[simp] theorem endedMessages_endedAll : endedMessages (endedAll messages) = messages := by
  induction messages with
  | nil => rfl
  | cons m rest ih => exact congrArg (m :: ·) ih

@[simp] theorem answers_endedAll : answers (endedAll messages) = [] := by
  induction messages with
  | nil => rfl
  | cons m rest ih => exact ih

@[simp] theorem agentEnds_endedAll : agentEnds (endedAll messages) = [] := by
  induction messages with
  | nil => rfl
  | cons m rest ih => exact ih

variable (firstTurn : Bool)

@[simp] theorem endedMessages_opening : endedMessages (opening firstTurn) = [] := by
  cases firstTurn <;> rfl

@[simp] theorem answers_opening : answers (opening firstTurn) = [] := by
  cases firstTurn <;> rfl

@[simp] theorem agentEnds_opening : agentEnds (opening firstTurn) = [] := by
  cases firstTurn <;> rfl

def attemptReplies (attempts : List Attempt) : List AgentMessage :=
  attempts.map fun a => a.reply.toAgentMessage

def attemptAnswers (attempts : List Attempt) : List (Except String Response) :=
  attempts.map fun a => .ok a.response

variable (attempts : List Attempt)

@[simp] theorem endedMessages_attemptMarks :
    endedMessages (attemptMarks attempts) = attemptReplies attempts := by
  induction attempts with
  | nil => rfl
  | cons a rest ih => exact congrArg (a.reply.toAgentMessage :: ·) ih

@[simp] theorem answers_attemptMarks :
    answers (attemptMarks attempts) = attemptAnswers attempts := by
  induction attempts with
  | nil => rfl
  | cons a rest ih => exact congrArg (.ok a.response :: ·) ih

@[simp] theorem agentEnds_attemptMarks : agentEnds (attemptMarks attempts) = [] := by
  induction attempts with
  | nil => rfl
  | cons a rest ih => exact ih

@[simp] theorem endedMessages_turn (t : Turn) :
    endedMessages (t.marks firstTurn) = t.injected ++ (attemptReplies t.failed ++ t.produced) := by
  have hend : endedMessages [.event (.turnEnd t.last.reply.toAgentMessage t.results)] = [] := rfl
  have hlast : endedMessages t.last.marks = [t.last.reply.toAgentMessage] := rfl
  simp [Turn.marks, Turn.attempts, Turn.produced, hend, hlast]

@[simp] theorem answers_turn (t : Turn) :
    answers (t.marks firstTurn) = attemptAnswers t.attempts := by
  have hend : answers [.event (.turnEnd t.last.reply.toAgentMessage t.results)] = [] := rfl
  simp [Turn.marks, hend]

@[simp] theorem agentEnds_turn (t : Turn) : agentEnds (t.marks firstTurn) = [] := by
  have hend : agentEnds [.event (.turnEnd t.last.reply.toAgentMessage t.results)] = [] := rfl
  simp [Turn.marks, hend]

end Projections

section Accounts

/-- The transient failures among some answers that another answer follows: each was
retried. -/
def retried (as : List (Except String Response)) : List AgentMessage :=
  as.dropLast.filterMap transientReply

/-- The three records of a run up to the given answers: the context has what the streams
left behind besides the messages, the announcements have the failures that were retried. -/
structure Booked (messages : List AgentMessage) (s : LoopState (σ × Trace)) : Prop where
  context : Interleaved (messages ++ s.newMessages) (leftovers (answers s.host.2)) s.messages
  announced : Interleaved s.newMessages (retried (answers s.host.2)) (endedMessages s.host.2)

/-- Between two turns no transient failure is left to be retried. -/
def Settled (s : LoopState (σ × Trace)) : Prop :=
  ∀ a ∈ (answers s.host.2).getLast?, transientReply a = none

variable {H : LoopHost σ τ} {s s' : LoopState (σ × Trace)} {messages : List AgentMessage}

variable {c : List AgentMessage}

variable {t : Trace}

theorem Adds.endedMessages {r : List AgentMessage} (h : Adds s s' c r t) :
    endedMessages s'.host.2 = endedMessages s.host.2 ++ AgentCore.endedMessages t := by
  rw [← endedMessages_marks, h.trace, endedMessages_append, endedMessages_marks]

theorem Adds.answers {r : List AgentMessage} (h : Adds s s' c r t) :
    answers s'.host.2 = answers s.host.2 ++ AgentCore.answers t := by
  rw [← answers_marks, h.trace, answers_append, answers_marks]

theorem Adds.agentEnds {r : List AgentMessage} (h : Adds s s' c r t) :
    agentEnds s'.host.2 = agentEnds s.host.2 ++ AgentCore.agentEnds t := by
  rw [← agentEnds_marks, h.trace, agentEnds_append, agentEnds_marks]

theorem transientReply_attempt (a : Attempt) : transientReply (.ok a.response) =
    if a.reply.transient then some a.reply.toAgentMessage else none := by
  simp only [transientReply, a.result]

theorem leftovers_attempts (attempts : List Attempt) :
    leftovers (attemptAnswers attempts) = attemptLeftovers attempts := by
  simp only [leftovers, attemptAnswers, attemptLeftovers, flatMap_map]

@[simp] theorem leftovers_append (as as' : List (Except String Response)) :
    leftovers (as ++ as') = leftovers as ++ leftovers as' := flatMap_append

theorem filterMap_attemptAnswers {attempts : List Attempt}
    (h : ∀ a ∈ attempts, a.reply.transient = true) :
    (attemptAnswers attempts).filterMap transientReply = attemptReplies attempts := by
  induction attempts with
  | nil => rfl
  | cons a rest ih =>
    have hfirst : transientReply (.ok a.response) = some a.reply.toAgentMessage := by
      rw [transientReply_attempt, h a mem_cons_self]
      rfl
    have hrest := ih fun b hb => h b (mem_cons_of_mem a hb)
    change (.ok a.response :: attemptAnswers rest).filterMap transientReply = _
    rw [filterMap_cons_some hfirst, hrest]
    rfl

theorem retried_turn {as : List (Except String Response)} {t : Turn}
    (hsettled : ∀ a ∈ as.getLast?, transientReply a = none)
    (ht : ∀ a ∈ t.failed, a.reply.transient = true) :
    retried (as ++ attemptAnswers t.attempts) = retried as ++ attemptReplies t.failed := by
  have hdrop : (as ++ attemptAnswers t.attempts).dropLast = as ++ attemptAnswers t.failed := by
    simp only [Turn.attempts, attemptAnswers, map_append, map_cons, map_nil,
      ← append_assoc, dropLast_concat]
  have hlast : as.filterMap transientReply = as.dropLast.filterMap transientReply := by
    rcases eq_nil_or_concat as with rfl | ⟨init, a, rfl⟩
    · rfl
    · have hquiet := hsettled a (by simp)
      rw [concat_eq_append, filterMap_append, dropLast_concat, filterMap_cons_none hquiet]
      exact append_nil _
  rw [retried, hdrop, filterMap_append, filterMap_attemptAnswers ht, hlast, retried]

variable {pending : List AgentMessage}

theorem Booked.turn {t : Turn} {firstTurn : Bool} {rest : Trace}
    (h : Booked messages s) (hsettled : Settled s) (ht : TurnOf H pending s t)
    (hends : endedMessages rest = []) (hanswers : answers rest = [])
    (hadds : Adds s s' t.context t.recorded (t.marks firstTurn ++ rest)) : Booked messages s' := by
  have hanswer : answers s'.host.2 = answers s.host.2 ++ attemptAnswers t.attempts := by
    rw [hadds.answers, answers_append, answers_turn, hanswers, append_nil]
  have hinjected := Interleaved.leftOnly t.injected
  constructor
  · rw [hadds.messages, hadds.newMessages, hanswer, leftovers_append, leftovers_attempts,
      ← append_assoc]
    exact h.context.append (hinjected.append (.concatRight t.produced _))
  · rw [hadds.endedMessages, endedMessages_append, endedMessages_turn, hends, append_nil,
      hadds.newMessages, hanswer, retried_turn hsettled ht.transient]
    exact h.announced.append (hinjected.append (.concatRight t.produced _))

theorem Booked.plain (h : Booked messages s)
    (hadds : Adds s s' c c t) (hends : AgentCore.endedMessages t = c)
    (hanswers : AgentCore.answers t = []) : Booked messages s' := by
  have hanswer : answers s'.host.2 = answers s.host.2 := by
    rw [hadds.answers, hanswers, append_nil]
  constructor
  · have hcontext := h.context.append (.leftOnly c)
    rw [append_nil] at hcontext
    rwa [hadds.messages, hadds.newMessages, hanswer, ← append_assoc]
  · have hannounced := h.announced.append (.leftOnly c)
    rw [append_nil] at hannounced
    rwa [hadds.endedMessages, hadds.newMessages, hends, hanswer]

theorem Settled.turn {r : List AgentMessage} {t : Turn} {firstTurn : Bool} {rest : Trace}
    (hreply : t.last.reply.transient = false) (hanswers : AgentCore.answers rest = [])
    (hadds : Adds s s' c r (t.marks firstTurn ++ rest)) : Settled s' := by
  intro a ha
  rw [hadds.answers, answers_append, answers_turn, hanswers, append_nil, Turn.attempts,
    attemptAnswers, map_append, map_singleton, ← append_assoc, getLast?_concat] at ha
  cases ha
  rw [transientReply_attempt, hreply]
  rfl

theorem endedMessages_start (prompts pending : List AgentMessage) :
    AgentCore.endedMessages (.event .turnStart :: endedAll prompts ++ [.supplied pending]) =
      prompts := by
  change AgentCore.endedMessages (endedAll prompts ++ [.supplied pending]) = prompts
  rw [endedMessages_append, endedMessages_endedAll]
  exact append_nil prompts

theorem answers_start (prompts pending : List AgentMessage) :
    AgentCore.answers (.event .turnStart :: endedAll prompts ++ [.supplied pending]) = [] := by
  change AgentCore.answers (endedAll prompts ++ [.supplied pending]) = []
  rw [answers_append, answers_endedAll]
  rfl

theorem agentEnds_start (prompts pending : List AgentMessage) :
    AgentCore.agentEnds (.event .turnStart :: endedAll prompts ++ [.supplied pending]) = [] := by
  change AgentCore.agentEnds (endedAll prompts ++ [.supplied pending]) = []
  rw [agentEnds_append, agentEnds_endedAll]
  rfl

variable {prompts : List AgentMessage}

theorem booked_start (hmessages : s.messages = messages ++ prompts) (hnew : s.newMessages = prompts)
    (hmarks : marks s.host.2 = .event .turnStart :: endedAll prompts ++ [.supplied pending]) :
    Booked messages s ∧ Settled s := by
  have hended : AgentCore.endedMessages s.host.2 = prompts := by
    rw [← endedMessages_marks, hmarks, endedMessages_start]
  have hanswer : AgentCore.answers s.host.2 = [] := by
    rw [← answers_marks, hmarks, answers_start]
  refine ⟨⟨?_, ?_⟩, ?_⟩
  · rw [hmessages, hnew, hanswer]
    exact .leftOnly (messages ++ prompts)
  · rw [hended, hnew, hanswer]
    exact .leftOnly prompts
  · intro a ha
    rw [hanswer] at ha
    cases ha

variable {r : LoopState (σ × Trace) × LoopEnd}

variable {host : σ}

theorem Started.booked (h : Started H.traced messages (host, []) prompts r)
    (hr : r.2 = .returned) : Booked messages r.1 := by
  obtain ⟨pending, s, rfl, hmessages, hnew, hmarks, -⟩ := h.iterates
  refine runTurns_rule (fun _ _ _ s => Booked messages s ∧ Settled s)
    (fun r => r.2 = .returned → Booked messages r.1) ?_ ?_ ?_
    (booked_start hmessages hnew hmarks) hr
  · intro firstTurn pending s hs _
    obtain ⟨m, hadds⟩ := exceedIterations_adds H s
    exact hs.1.plain hadds rfl rfl
  · intro left firstTurn pending s s' ended hs _ hran hreturned
    cases hran with
    | threw failed context seen answer hretries hsees hadds => cases hreturned
    | stopped t ht hadds => exact hs.1.turn hs.2 ht rfl rfl hadds
    | idle t ht hreply hadds => exact hs.1.turn hs.2 ht rfl rfl hadds
  · intro left firstTurn pending s s' next hs _ hran
    cases hran with
    | steered t ht hreply next hadds =>
      exact ⟨hs.1.turn hs.2 ht rfl rfl hadds, Settled.turn hreply rfl hadds⟩
    | followed t ht hreply next hadds =>
      exact ⟨hs.1.turn hs.2 ht rfl rfl hadds, Settled.turn hreply rfl hadds⟩

theorem Started.ends (h : Started H.traced messages (host, []) prompts r)
    (hr : r.2 = .returned) : agentEnds r.1.host.2 = [r.1.newMessages] := by
  obtain ⟨pending, s, rfl, hmessages, hnew, hmarks, -⟩ := h.iterates
  have hstart : agentEnds s.host.2 = [] := by
    rw [← agentEnds_marks, hmarks, agentEnds_start]
  refine runTurns_rule (fun _ _ _ s => agentEnds s.host.2 = [])
    (fun r => r.2 = .returned → agentEnds r.1.host.2 = [r.1.newMessages]) ?_ ?_ ?_ hstart hr
  · intro firstTurn pending s hs _
    obtain ⟨m, hadds⟩ := exceedIterations_adds H s
    rw [hadds.agentEnds, hs]
    rfl
  · intro left firstTurn pending s s' ended hs _ hran hreturned
    cases hran with
    | threw failed context seen answer hretries hsees hadds => cases hreturned
    | stopped t ht hadds =>
      rw [hadds.agentEnds, hs, agentEnds_append, agentEnds_turn]
      rfl
    | idle t ht hreply hadds =>
      rw [hadds.agentEnds, hs, agentEnds_append, agentEnds_turn]
      rfl
  · intro left firstTurn pending s s' next hs _ hran
    cases hran with
    | steered t ht hreply next hadds =>
      rw [hadds.agentEnds, hs, agentEnds_append, agentEnds_turn]
      rfl
    | followed t ht hreply next hadds =>
      rw [hadds.agentEnds, hs, agentEnds_append, agentEnds_turn]
      rfl

theorem Started.endsLast (h : Started H.traced messages (host, []) prompts r)
    (hr : r.2 = .returned) :
    ∃ before, r.1.host.2 = before ++ [.event (.agentEnd r.1.newMessages)] ∧
      agentEnds before = [] := by
  have hends := h.ends hr
  obtain ⟨pending, s, rfl, -, -, -, -⟩ := h.iterates
  obtain ⟨before, announced, hlast⟩ := runTurns_returned
    (E := fun host : σ × Trace =>
      ∃ before announced, host.2 = before ++ [.event (.agentEnd announced)])
    (fun announced host => ⟨host.2, announced, rfl⟩) hr
  rw [hlast, agentEnds_append] at hends
  have hone : agentEnds [.event (.agentEnd announced)] = [announced] := rfl
  rw [hone] at hends
  obtain ⟨hbefore, hnew⟩ := append_singleton_inj.mp (hends.trans (nil_append _).symm)
  subst hnew
  exact ⟨before, hlast, hbefore⟩

theorem leftovers_eq_nil_iff (as : List (Except String Response)) :
    leftovers as = [] ↔ ∀ response, .ok response ∈ as → starts response.events ≤ 1 := by
  simp only [leftovers, flatMap_eq_nil_iff]
  constructor
  · intro h response hin
    exact response.leftovers_eq_nil_iff.mp (h (.ok response) hin)
  · rintro h (e | response) hin
    · rfl
    · exact response.leftovers_eq_nil_iff.mpr (h response hin)

theorem retried_eq_nil_iff (as : List (Except String Response)) :
    retried as = [] ↔ ∀ a ∈ as.dropLast, transientReply a = none := by
  simp only [retried, filterMap_eq_nil_iff]

end Accounts

/-- A host that plays back answers and supplied messages. -/
structure Script where
  answers : List (Except String Response)
  steering : List (List AgentMessage)
  followUps : List (List AgentMessage)

/-- The loop over a script; the one tool is `read`. -/
def scriptHost (maxIterations : Nat) : LoopHost Script Unit where
  emit _ s := s
  transformContext messages s := (messages, s)
  convertToLlm messages := messages
  streamFn _ s := (s.answers.headD (.error "no answer"), { s with answers := s.answers.tail })
  aborted _ := false
  sleep _ s := s
  getSteeringMessages s := (s.steering.headD [], { s with steering := s.steering.tail })
  getFollowUpMessages s := (s.followUps.headD [], { s with followUps := s.followUps.tail })
  findTool name := if name = "read" then some () else none
  toolNotFoundError name := "Tool \"" ++ name ++ "\" not found"
  validateToolArguments _ call := .ok call.arguments
  beforeToolCall _ _ _ s := (.ok none, s)
  execute _ _ call s := (.ok ⟨[.text call.id], "done"⟩, s)
  afterToolCall _ _ _ s := (none, s)
  now _ := 0
  toolExecution := .parallel
  maxIterations := maxIterations
  maxStreamRetries := 2
  baseRetryDelayMs := 1000

def userMessage (text : String) : AgentMessage :=
  { role := .user, content := .plain text, timestamp := 0 }

def textReply (text : String) : AssistantMessage :=
  { content := [.text text], stopReason := .stop, timestamp := 0 }

def rateLimited : AssistantMessage :=
  { content := [], stopReason := .error, errorMessage := some "429", timestamp := 0 }

def streamOf (m : AssistantMessage) : Response := ⟨[.start m, .finish], none, .ok m⟩

/-- A run whose first model call fails on a rate limit and whose second one answers. -/
def limitedRun : LoopState (Script × Trace) × LoopEnd :=
  runAgentLoop (scriptHost 5).traced [userMessage "hi"] []
    (⟨[.ok (streamOf rateLimited), .ok (streamOf (textReply "hello"))], [], []⟩, [])

def plainRun : LoopState (Script × Trace) × LoopEnd :=
  runAgentLoop (scriptHost 5).traced [userMessage "hi"] []
    (⟨[.ok (streamOf (textReply "hello"))], [], []⟩, [])

end CrabbyKit.AgentCore
