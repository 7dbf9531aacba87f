import CrabbyKit.AgentCore.Transcript

/-!
# Turns of the loop

What a whole turn adds to the context, to the new messages and to the trace, for each
way in which it can end; the rule for runs that follows from it.
-/

namespace CrabbyKit.AgentCore

variable {σ τ : Type}

def resultMessages (results : List ToolResultMessage) : List AgentMessage :=
  results.map ToolResultMessage.toAgentMessage

def endedAll (messages : List AgentMessage) : Trace := messages.map ended

@[simp] theorem resultMessages_nil : resultMessages [] = [] := rfl

@[simp] theorem resultMessages_cons (r : ToolResultMessage) (results : List ToolResultMessage) :
    resultMessages (r :: results) = r.toAgentMessage :: resultMessages results := rfl

@[simp] theorem resultMessages_append (results results' : List ToolResultMessage) :
    resultMessages (results ++ results') = resultMessages results ++ resultMessages results' :=
  List.map_append

@[simp] theorem endedAll_nil : endedAll [] = [] := rfl

@[simp] theorem endedAll_cons (m : AgentMessage) (messages : List AgentMessage) :
    endedAll (m :: messages) = ended m :: endedAll messages := rfl

@[simp] theorem endedAll_append (messages messages' : List AgentMessage) :
    endedAll (messages ++ messages') = endedAll messages ++ endedAll messages' :=
  List.map_append

section Tools

variable (H : LoopHost σ τ)

variable (call : ToolCall)

theorem emitToolCallOutcome_adds (result : AgentToolResult) (isError : Bool)
    (s : LoopState (σ × Trace)) :
    Adds s (emitToolCallOutcome H.traced call result isError s).1 [] []
      [ended (emitToolCallOutcome H.traced call result isError s).2.toAgentMessage] :=
  (((Adds.refl s).emitUncounted rfl).emitUncounted rfl).emit rfl

variable (message : AssistantMessage)

theorem prepareToolCall_adds (call : ToolCall) (s : LoopState (σ × Trace)) :
    Adds s (prepareToolCall H.traced message call s).1 [] [] [] := by
  have hstay := Adds.refl s
  simp only [prepareToolCall]
  cases H.traced.findTool call.name with
  | none => exact hstay
  | some tool =>
    simp only
    cases H.traced.validateToolArguments tool call with
    | error e => exact hstay
    | ok args =>
      have hhook := hstay.withHost (H.beforeToolCall message call args s.host.1).2
      simp only [traced_beforeToolCall]
      rcases (H.beforeToolCall message call args s.host.1).1 with e | _ | before
      · exact hhook
      · exact hhook
      · simp only
        split_ifs
        · exact hhook
        · exact hhook

theorem executePreparedToolCall_adds (tool : τ) (args : String) (s : LoopState (σ × Trace)) :
    Adds s (executePreparedToolCall H.traced call tool args s).1 [] [] [] := by
  have hrun := (Adds.refl s).withHost (H.execute tool args call s.host.1).2
  simp only [executePreparedToolCall, traced_execute]
  cases (H.execute tool args call s.host.1).1 with
  | error e => exact hrun
  | ok result => exact hrun

theorem finalizeExecutedToolCall_adds (result : AgentToolResult)
    (isError : Bool) (s : LoopState (σ × Trace)) :
    Adds s (finalizeExecutedToolCall H.traced call result isError s).1 [] []
      [ended (finalizeExecutedToolCall H.traced call result isError s).2.toAgentMessage] := by
  have hafter := (Adds.refl s).withHost (H.afterToolCall call result isError s.host.1).2
  simp only [finalizeExecutedToolCall, traced_afterToolCall]
  cases (H.afterToolCall call result isError s.host.1).1 with
  | none => exact hafter.trans (emitToolCallOutcome_adds H call result isError _)
  | some after => exact hafter.trans (emitToolCallOutcome_adds H call _ _ _)

theorem runPrepared_adds (tool : τ) (args : String) (s : LoopState (σ × Trace)) :
    Adds s (runPrepared H.traced call tool args s).1 [] []
      [ended (runPrepared H.traced call tool args s).2.toAgentMessage] :=
  (executePreparedToolCall_adds H call tool args s).trans
    (finalizeExecutedToolCall_adds H call _ _ _)

theorem executeToolCallsSequential_adds (calls : List ToolCall) (s : LoopState (σ × Trace)) :
    Adds s (executeToolCallsSequential H.traced message calls s).1 [] []
      (endedAll (resultMessages (executeToolCallsSequential H.traced message calls s).2)) := by
  induction calls generalizing s with
  | nil => exact Adds.refl s
  | cons call rest ih =>
    have hstart := (Adds.refl s).emitUncounted (H := H) (e := .toolExecutionStart call) rfl
    have hprepare := hstart.trans (prepareToolCall_adds H message call _)
    simp only [executeToolCallsSequential]
    generalize prepareToolCall H.traced message call
      (s.emit H.traced (.toolExecutionStart call)) = outcome at hprepare ⊢
    obtain ⟨s₁, preparation⟩ := outcome
    cases preparation with
    | immediate result isError =>
      exact (hprepare.trans (emitToolCallOutcome_adds H call result isError s₁)).trans (ih _)
    | prepared tool args =>
      exact (hprepare.trans (runPrepared_adds H call tool args s₁)).trans (ih _)

theorem prepareToolCalls_adds (calls : List ToolCall) (s : LoopState (σ × Trace)) :
    Adds s (prepareToolCalls H.traced message calls s).1 [] []
      (endedAll (resultMessages (prepareToolCalls H.traced message calls s).2.1)) := by
  induction calls generalizing s with
  | nil => exact Adds.refl s
  | cons call rest ih =>
    have hstart := (Adds.refl s).emitUncounted (H := H) (e := .toolExecutionStart call) rfl
    have hprepare := hstart.trans (prepareToolCall_adds H message call _)
    simp only [prepareToolCalls]
    generalize prepareToolCall H.traced message call
      (s.emit H.traced (.toolExecutionStart call)) = outcome at hprepare ⊢
    obtain ⟨s₁, preparation⟩ := outcome
    cases preparation with
    | immediate result isError =>
      exact (hprepare.trans (emitToolCallOutcome_adds H call result isError s₁)).trans (ih _)
    | prepared tool args => exact hprepare.trans (ih s₁)

theorem finishToolCalls_adds (runnable : List (ToolCall × τ × String)) (s : LoopState (σ × Trace)) :
    Adds s (finishToolCalls H.traced runnable s).1 [] []
      (endedAll (resultMessages (finishToolCalls H.traced runnable s).2)) := by
  induction runnable generalizing s with
  | nil => exact Adds.refl s
  | cons prepared rest ih =>
    obtain ⟨call, tool, args⟩ := prepared
    exact (runPrepared_adds H call tool args s).trans (ih _)

theorem executeToolCalls_adds (s : LoopState (σ × Trace)) :
    Adds s (executeToolCalls H.traced message s).1 [] []
      (endedAll (resultMessages (executeToolCalls H.traced message s).2)) := by
  simp only [executeToolCalls, traced_toolExecution]
  cases H.toolExecution with
  | sequential => exact executeToolCallsSequential_adds H message message.toolCalls s
  | parallel =>
    have hprepare := prepareToolCalls_adds H message message.toolCalls s
    have hfinish := finishToolCalls_adds H
      (prepareToolCalls H.traced message message.toolCalls s).2.2
      (prepareToolCalls H.traced message message.toolCalls s).1
    have hall := hprepare.trans hfinish
    rw [← endedAll_append, ← resultMessages_append] at hall
    exact hall

theorem pushResults_adds (results : List ToolResultMessage) (s : LoopState (σ × Trace)) :
    Adds s (results.foldl pushResult s) (resultMessages results) (resultMessages results) [] := by
  induction results generalizing s with
  | nil => exact Adds.refl s
  | cons result rest ih =>
    exact (((Adds.refl s).push result.toAgentMessage).record result.toAgentMessage).trans (ih _)

theorem injectAll_adds (pending : List AgentMessage) (s : LoopState (σ × Trace)) :
    Adds s (pending.foldl (injectPending H.traced) s) pending pending (endedAll pending) := by
  induction pending generalizing s with
  | nil => exact Adds.refl s
  | cons m rest ih =>
    have hannounce := ((Adds.refl s).emitUncounted (H := H) (e := .messageStart m) rfl).emit
      (H := H) (e := .messageEnd m) rfl
    exact ((hannounce.push m).record m).trans (ih _)

theorem announcePrompts_adds (prompts : List AgentMessage) (s : LoopState (σ × Trace)) :
    Adds s (prompts.foldl (announcePrompt H.traced) s) [] [] (endedAll prompts) := by
  induction prompts generalizing s with
  | nil => exact Adds.refl s
  | cons m rest ih =>
    have hannounce := ((Adds.refl s).emitUncounted (H := H) (e := .messageStart m) rfl).emit
      (H := H) (e := .messageEnd m) rfl
    exact hannounce.trans (ih _)

end Tools

/-- A turn that came to its end: what was injected, the failed attempts, the attempt that
counts, and the tool results. -/
structure Turn where
  injected : List AgentMessage
  failed : List Attempt
  last : Attempt
  results : List ToolResultMessage

def opening (firstTurn : Bool) : Trace := if firstTurn then [] else [.event .turnStart]

namespace Turn

def attempts (t : Turn) : List Attempt := t.failed ++ [t.last]

def produced (t : Turn) : List AgentMessage :=
  t.last.reply.toAgentMessage :: resultMessages t.results

def recorded (t : Turn) : List AgentMessage := t.injected ++ t.produced

def context (t : Turn) : List AgentMessage :=
  t.injected ++ (attemptLeftovers t.attempts ++ t.produced)

def marks (firstTurn : Bool) (t : Turn) : Trace :=
  opening firstTurn ++ (endedAll t.injected ++ (attemptMarks t.attempts ++
    (endedAll (resultMessages t.results) ++
      [.event (.turnEnd t.last.reply.toAgentMessage t.results)])))

end Turn

structure TurnOf (H : LoopHost σ τ) (pending : List AgentMessage) (s : LoopState (σ × Trace))
    (t : Turn) : Prop where
  injected : t.injected = pending
  retries : t.failed.length ≤ H.maxStreamRetries
  transient : ∀ a ∈ t.failed, a.reply.transient = true
  sees : nextContext (attemptMarks t.attempts) = some (s.messages ++ pending)

/-- The ways in which an iteration of the loop ends. -/
inductive TurnRan (H : LoopHost σ τ) (firstTurn : Bool) (pending : List AgentMessage)
    (s : LoopState (σ × Trace)) : LoopState (σ × Trace) × TurnEnd → Prop
  | threw {s' : LoopState (σ × Trace)} {e : String} (failed : List Attempt)
      (context seen : List AgentMessage) (answer : Except String Response)
      (hretries : failed.length ≤ H.maxStreamRetries)
      (hsees : nextContext (attemptMarks failed ++ [.context seen]) = some (s.messages ++ pending))
      (h : Adds s s' (pending ++ context) pending (opening firstTurn ++ (endedAll pending ++
        (attemptMarks failed ++ [.context seen, .answer answer])))) :
      TurnRan H firstTurn pending s (s', .done (.threw e))
  | stopped {s' : LoopState (σ × Trace)} (t : Turn) (ht : TurnOf H pending s t)
      (h : Adds s s' t.context t.recorded
        (t.marks firstTurn ++ [.event (.agentEnd s'.newMessages)])) :
      TurnRan H firstTurn pending s (s', .done .returned)
  | idle {s' : LoopState (σ × Trace)} (t : Turn) (ht : TurnOf H pending s t)
      (hreply : t.last.reply.transient = false)
      (h : Adds s s' t.context t.recorded
        (t.marks firstTurn ++ [.supplied [], .supplied [], .event (.agentEnd s'.newMessages)])) :
      TurnRan H firstTurn pending s (s', .done .returned)
  | steered {s' : LoopState (σ × Trace)} (t : Turn) (ht : TurnOf H pending s t)
      (hreply : t.last.reply.transient = false) (next : List AgentMessage)
      (h : Adds s s' t.context t.recorded (t.marks firstTurn ++ [.supplied next])) :
      TurnRan H firstTurn pending s (s', .again next)
  | followed {s' : LoopState (σ × Trace)} (t : Turn) (ht : TurnOf H pending s t)
      (hreply : t.last.reply.transient = false) (next : List AgentMessage)
      (h : Adds s s' t.context t.recorded (t.marks firstTurn ++ [.supplied [], .supplied next])) :
      TurnRan H firstTurn pending s (s', .again next)

section Ran

variable {H : LoopHost σ τ} {s s₁ : LoopState (σ × Trace)}

theorem Adds.congr {s s' : LoopState (σ × Trace)} {c c' r r' : List AgentMessage} {t t' : Trace}
    (h : Adds s s' c r t) (hc : c = c') (hr : r = r') (ht : t = t') : Adds s s' c' r' t' := by
  subst hc hr ht
  exact h

theorem Adds.agentEnd {s s' : LoopState (σ × Trace)} {c r : List AgentMessage} {t : Trace}
    (h : Adds s s' c r t) :
    Adds s (s'.emit H.traced (.agentEnd s'.newMessages)) c r
      (t ++ [.event (.agentEnd (s'.emit H.traced (.agentEnd s'.newMessages)).newMessages)]) :=
  h.emit rfl

theorem transient_eq_false {m : AssistantMessage}
    (h : ¬ (m.stopReason = .error ∨ m.stopReason = .aborted)) : m.transient = false := by
  have hne : m.stopReason ≠ .error := fun he => h (Or.inl he)
  simp [AssistantMessage.transient, hne]

theorem afterReply_ran {firstTurn : Bool} {pending : List AgentMessage} (failed : List Attempt)
    (last : Attempt) (ht : ∀ results, TurnOf H pending s ⟨pending, failed, last, results⟩)
    (hreply : last.reply.transient = false)
    (h : Adds s s₁ (pending ++ (attemptLeftovers (failed ++ [last]) ++ [last.reply.toAgentMessage]))
      (pending ++ [last.reply.toAgentMessage])
      (opening firstTurn ++ (endedAll pending ++ attemptMarks (failed ++ [last])))) :
    TurnRan H firstTurn pending s (afterReply H.traced last.reply s₁) := by
  have htools : Adds s₁
      (if last.reply.toolCalls = [] then (s₁, []) else executeToolCalls H.traced last.reply s₁).1
      [] [] (endedAll (resultMessages (if last.reply.toolCalls = [] then (s₁, [])
        else executeToolCalls H.traced last.reply s₁).2)) := by
    split_ifs
    · exact Adds.refl s₁
    · exact executeToolCalls_adds H last.reply s₁
  simp only [afterReply]
  generalize (if last.reply.toolCalls = [] then (s₁, [])
    else executeToolCalls H.traced last.reply s₁) = outcome at htools ⊢
  obtain ⟨s₂, results⟩ := outcome
  have hpushed := (h.trans htools).trans (pushResults_adds results s₂)
  have hended := hpushed.emit (H := H) (e := .turnEnd last.reply.toAgentMessage results) rfl
  have hturn : Adds s ((results.foldl pushResult s₂).emit H.traced
      (.turnEnd last.reply.toAgentMessage results))
      (Turn.context ⟨pending, failed, last, results⟩)
      (Turn.recorded ⟨pending, failed, last, results⟩)
      (Turn.marks firstTurn ⟨pending, failed, last, results⟩) := by
    refine hended.congr ?_ ?_ ?_
    · simp [Turn.context, Turn.produced, Turn.attempts]
    · simp [Turn.recorded, Turn.produced]
    · simp [Turn.marks, Turn.attempts]
  simp only
  generalize (results.foldl pushResult s₂).emit H.traced
    (.turnEnd last.reply.toAgentMessage results) = s₃ at hturn ⊢
  simp only [traced_getSteeringMessages, traced_getFollowUpMessages]
  have hsteer := hturn.note (H.getSteeringMessages s₃.host.1).2
    (o := .supplied (H.getSteeringMessages s₃.host.1).1) rfl
  by_cases hmore : last.reply.toolCalls ≠ [] ∨ (H.getSteeringMessages s₃.host.1).1 ≠ []
  · simp only [hmore, if_true]
    exact .steered _ (ht results) hreply _ hsteer
  have hquiet : (H.getSteeringMessages s₃.host.1).1 = [] := by
    by_contra hne
    exact hmore (Or.inr hne)
  have hfollow := hsteer.note (H.getFollowUpMessages (H.getSteeringMessages s₃.host.1).2).2
    (o := .supplied (H.getFollowUpMessages (H.getSteeringMessages s₃.host.1).2).1) rfl
  have hpolled := hfollow.congr rfl rfl (List.append_assoc _ _ _)
  simp only [hmore, if_false]
  by_cases hnext : (H.getFollowUpMessages (H.getSteeringMessages s₃.host.1).2).1 = []
  · simp only [hquiet, hnext] at hpolled
    simp only [hquiet, hnext, ne_eq, not_true, if_false]
    refine .idle _ (ht results) hreply (hpolled.agentEnd.congr rfl rfl ?_)
    simp
  · simp only [hquiet] at hpolled
    simp only [hquiet, hnext, ne_eq, not_false_iff, if_true]
    exact .followed _ (ht results) hreply _ hpolled

theorem runTurn_ran (H : LoopHost σ τ) (firstTurn : Bool) (pending : List AgentMessage)
    (s : LoopState (σ × Trace)) :
    TurnRan H firstTurn pending s (runTurn H.traced firstTurn pending s) := by
  have hopen : Adds s (if firstTurn then s else s.emit H.traced .turnStart) [] []
      (opening firstTurn) := by
    cases firstTurn with
    | true => exact Adds.refl s
    | false => exact (Adds.refl s).emit rfl
  simp only [runTurn]
  generalize (if firstTurn then s else s.emit H.traced .turnStart) = s₀ at hopen ⊢
  have hinject := hopen.trans (injectAll_adds H pending s₀)
  generalize pending.foldl (injectPending H.traced) s₀ = s₁ at hinject ⊢
  have hmessages : s₁.messages = s.messages ++ pending := hinject.messages
  have hanswer := streamWithRetry_answered H s₁
  generalize streamWithRetry H.traced s₁ = outcome at hanswer ⊢
  cases hanswer with
  | threw failed context seen answer hretries htransient hsees h =>
    rw [hmessages] at hsees
    refine .threw failed context seen answer hretries hsees ((hinject.trans h).congr ?_ ?_ ?_)
    · simp
    · simp
    · simp
  | @replied s₂ failed last hretries htransient hsees h =>
    rw [hmessages] at hsees
    have ht : ∀ results, TurnOf H pending s ⟨pending, failed, last, results⟩ :=
      fun results => ⟨rfl, hretries, htransient, hsees⟩
    have hrecorded := (hinject.trans h).record last.reply.toAgentMessage
    simp only
    split_ifs with hstop
    · refine .stopped ⟨pending, failed, last, []⟩ (ht []) ?_
      have hended := (hrecorded.emit (H := H)
        (e := .turnEnd last.reply.toAgentMessage []) rfl).agentEnd (H := H)
      refine hended.congr ?_ ?_ ?_
      · simp [Turn.context, Turn.produced, Turn.attempts]
      · simp [Turn.recorded, Turn.produced]
      · simp [Turn.marks, Turn.attempts]
    · refine afterReply_ran failed last ht (transient_eq_false hstop) (hrecorded.congr ?_ ?_ ?_)
      · simp
      · simp
      · simp

theorem exceedIterations_adds (H : LoopHost σ τ) (s : LoopState (σ × Trace)) :
    ∃ m : AssistantMessage, Adds s (exceedIterations H.traced s) [m.toAgentMessage]
      [m.toAgentMessage] [ended m.toAgentMessage, .event (.turnEnd m.toAgentMessage []),
        .event (.agentEnd (exceedIterations H.traced s).newMessages)] :=
  ⟨_, ((((((Adds.refl s).push _).record _).emitUncounted rfl).emit rfl).emit rfl).agentEnd⟩

/-- What holds before an iteration, is kept by turns that call for another one and gives
`Post` at the others, gives `Post` at the end of the iterations. -/
theorem runTurns_rule (Inv : Nat → Bool → List AgentMessage → LoopState (σ × Trace) → Prop)
    (Post : LoopState (σ × Trace) × LoopEnd → Prop)
    (hlimit : ∀ firstTurn pending s, Inv 0 firstTurn pending s →
      Post (exceedIterations H.traced s, .returned))
    (hdone : ∀ left firstTurn pending s s' ended, Inv (left + 1) firstTurn pending s →
      runTurn H.traced firstTurn pending s = (s', .done ended) →
      TurnRan H firstTurn pending s (s', .done ended) → Post (s', ended))
    (hagain : ∀ left firstTurn pending s s' next, Inv (left + 1) firstTurn pending s →
      runTurn H.traced firstTurn pending s = (s', .again next) →
      TurnRan H firstTurn pending s (s', .again next) → Inv left false next s')
    {left : Nat} {firstTurn : Bool} {pending : List AgentMessage}
    (h : Inv left firstTurn pending s) : Post (runTurns H.traced left firstTurn pending s) := by
  induction left generalizing firstTurn pending s with
  | zero => exact hlimit firstTurn pending s h
  | succ left ih =>
    have hran := runTurn_ran H firstTurn pending s
    simp only [runTurns]
    generalize hturn : runTurn H.traced firstTurn pending s = outcome at hran ⊢
    obtain ⟨s', ended⟩ := outcome
    cases ended with
    | done ended => exact hdone left firstTurn pending s s' ended h hturn hran
    | again next => exact ih (hagain left firstTurn pending s s' next h hturn hran)

end Ran

/-- The messages that wait when the iterations go past the limit, if they do. -/
def pendingAtLimit (H : LoopHost σ τ) :
    Nat → Bool → List AgentMessage → LoopState σ → Option (List AgentMessage)
  | 0, _, pending, _ => some pending
  | left + 1, firstTurn, pending, s =>
    match runTurn H firstTurn pending s with
    | (_, .done _) => none
    | (s, .again pending) => pendingAtLimit H left false pending s

/-- The messages that wait when a run goes past the iteration limit, if it does. -/
def waitingAtLimit (H : LoopHost σ τ) (prompts messages : List AgentMessage) (host : σ) :
    Option (List AgentMessage) :=
  let s : LoopState σ := ⟨messages ++ prompts, prompts, host⟩
  let s := prompts.foldl (announcePrompt H) ((s.emit H .agentStart).emit H .turnStart)
  let (pending, host) := H.getSteeringMessages s.host
  pendingAtLimit H H.maxIterations true pending { s with host := host }

theorem erase_pendingAtLimit (H : LoopHost σ τ) (left : Nat) (firstTurn : Bool)
    (pending : List AgentMessage) (s : LoopState (σ × Trace)) :
    pendingAtLimit H.traced left firstTurn pending s =
      pendingAtLimit H left firstTurn pending s.erase := by
  induction left generalizing firstTurn pending s with
  | zero => rfl
  | succ left ih =>
    simp only [pendingAtLimit]
    rw [← erase_runTurn]
    generalize runTurn H.traced firstTurn pending s = outcome
    obtain ⟨s', ended⟩ := outcome
    cases ended with
    | done ended => rfl
    | again next => exact ih false next s'

/-- The runs of the loop: with prompts, or going on from the context as it is. -/
inductive Started (H : LoopHost σ τ) (messages : List AgentMessage) (host : σ) :
    List AgentMessage → LoopState σ × LoopEnd → Prop
  | prompted (prompts : List AgentMessage) :
      Started H messages host prompts (runAgentLoop H prompts messages host)
  | continued {r : LoopState σ × LoopEnd} (h : runAgentLoopContinue H messages host = .ok r) :
      Started H messages host [] r

theorem runAgentLoopContinue_eq {H : LoopHost σ τ} {messages : List AgentMessage} {host : σ}
    {r : LoopState σ × LoopEnd} (h : runAgentLoopContinue H messages host = .ok r) :
    r = runAgentLoop H [] messages host := by
  unfold runAgentLoopContinue at h
  split at h
  · cases h
  · split_ifs at h
    cases h
    simp only [runAgentLoop, List.append_nil, List.foldl_nil]

theorem Started.iterates {H : LoopHost σ τ} {messages prompts : List AgentMessage} {host : σ}
    {r : LoopState (σ × Trace) × LoopEnd} (h : Started H.traced messages (host, []) prompts r) :
    ∃ pending s, r = runTurns H.traced H.maxIterations true pending s ∧
      s.messages = messages ++ prompts ∧ s.newMessages = prompts ∧
      marks s.host.2 = .event .turnStart :: endedAll prompts ++ [.supplied pending] ∧
      pendingAtLimit H.traced H.maxIterations true pending s =
        waitingAtLimit H prompts messages host := by
  have hrun : r = runAgentLoop H.traced prompts messages (host, []) := by
    cases h with
    | prompted prompts => rfl
    | continued h => exact runAgentLoopContinue_eq h
  subst hrun
  have hstart := ((Adds.refl (LoopState.mk (messages ++ prompts) prompts (host, ([] : Trace)))
    ).emitUncounted (H := H) (e := .agentStart) rfl).emit (H := H) (e := .turnStart) rfl
  have hannounced := hstart.trans (announcePrompts_adds H prompts _)
  have herase := erase_announcePrompts H prompts (((LoopState.mk (messages ++ prompts) prompts
    (host, ([] : Trace))).emit H.traced .agentStart).emit H.traced .turnStart)
  simp only [erase_emit, erase_mk] at herase
  simp only [runAgentLoop, runLoop, traced_getSteeringMessages, waitingAtLimit]
  rw [← herase]
  generalize prompts.foldl (announcePrompt H.traced) _ = s at hannounced ⊢
  have hpolled := hannounced.note (H.getSteeringMessages s.host.1).2
    (o := .supplied (H.getSteeringMessages s.host.1).1) rfl
  refine ⟨_, _, rfl, ?_, ?_, ?_, erase_pendingAtLimit H _ true _ _⟩
  · simpa using hpolled.messages
  · simpa using hpolled.newMessages
  · simpa [marks] using hpolled.trace

end CrabbyKit.AgentCore
