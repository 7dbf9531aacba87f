import CrabbyKit.AgentCore.Loop

/-!
# The trace of a run

A host that also notes what the loop exchanges with it: the events, the context of
every model call and its answer, and what the message suppliers hand over. Noting does
not change a run.
-/

namespace CrabbyKit.AgentCore

variable {σ τ : Type}

/-- One exchange between the loop and its host. -/
inductive Observation
  | event (e : AgentEvent)
  | context (messages : List AgentMessage)
  | answer (answer : Except String Response)
  | supplied (messages : List AgentMessage)

/-- What the loop exchanged with its host, in order. -/
abbrev Trace := List Observation

def LoopHost.traced (H : LoopHost σ τ) : LoopHost (σ × Trace) τ where
  emit e s := (H.emit e s.1, s.2 ++ [.event e])
  transformContext messages s :=
    ((H.transformContext messages s.1).1, (H.transformContext messages s.1).2,
      s.2 ++ [.context messages])
  convertToLlm := H.convertToLlm
  streamFn messages s :=
    ((H.streamFn messages s.1).1, (H.streamFn messages s.1).2,
      s.2 ++ [.answer (H.streamFn messages s.1).1])
  aborted s := H.aborted s.1
  sleep delay s := (H.sleep delay s.1, s.2)
  getSteeringMessages s :=
    ((H.getSteeringMessages s.1).1, (H.getSteeringMessages s.1).2,
      s.2 ++ [.supplied (H.getSteeringMessages s.1).1])
  getFollowUpMessages s :=
    ((H.getFollowUpMessages s.1).1, (H.getFollowUpMessages s.1).2,
      s.2 ++ [.supplied (H.getFollowUpMessages s.1).1])
  findTool := H.findTool
  toolNotFoundError := H.toolNotFoundError
  validateToolArguments := H.validateToolArguments
  beforeToolCall message call args s :=
    ((H.beforeToolCall message call args s.1).1, (H.beforeToolCall message call args s.1).2, s.2)
  execute tool args call s :=
    ((H.execute tool args call s.1).1, (H.execute tool args call s.1).2, s.2)
  afterToolCall call result isError s :=
    ((H.afterToolCall call result isError s.1).1, (H.afterToolCall call result isError s.1).2, s.2)
  now s := H.now s.1
  toolExecution := H.toolExecution
  maxIterations := H.maxIterations
  maxStreamRetries := H.maxStreamRetries
  baseRetryDelayMs := H.baseRetryDelayMs

section Fields

variable (H : LoopHost σ τ) (s : σ × Trace)

variable (messages : List AgentMessage)

@[simp] theorem traced_transformContext :
    H.traced.transformContext messages s = ((H.transformContext messages s.1).1,
      (H.transformContext messages s.1).2, s.2 ++ [.context messages]) := rfl

@[simp] theorem traced_convertToLlm :
    H.traced.convertToLlm messages = H.convertToLlm messages := rfl

@[simp] theorem traced_streamFn :
    H.traced.streamFn messages s = ((H.streamFn messages s.1).1, (H.streamFn messages s.1).2,
      s.2 ++ [.answer (H.streamFn messages s.1).1]) := rfl

@[simp] theorem traced_aborted : H.traced.aborted s = H.aborted s.1 := rfl

@[simp] theorem traced_sleep (delay : Nat) :
    H.traced.sleep delay s = (H.sleep delay s.1, s.2) := rfl

@[simp] theorem traced_findTool (name : String) : H.traced.findTool name = H.findTool name := rfl

@[simp] theorem traced_toolNotFoundError (name : String) :
    H.traced.toolNotFoundError name = H.toolNotFoundError name := rfl

@[simp] theorem traced_validateToolArguments (tool : τ) (call : ToolCall) :
    H.traced.validateToolArguments tool call = H.validateToolArguments tool call := rfl

@[simp] theorem traced_beforeToolCall (message : AssistantMessage) (call : ToolCall)
    (args : String) :
    H.traced.beforeToolCall message call args s = ((H.beforeToolCall message call args s.1).1,
      (H.beforeToolCall message call args s.1).2, s.2) := rfl

@[simp] theorem traced_execute (tool : τ) (args : String) (call : ToolCall) :
    H.traced.execute tool args call s =
      ((H.execute tool args call s.1).1, (H.execute tool args call s.1).2, s.2) := rfl

@[simp] theorem traced_afterToolCall (call : ToolCall) (result : AgentToolResult)
    (isError : Bool) :
    H.traced.afterToolCall call result isError s = ((H.afterToolCall call result isError s.1).1,
      (H.afterToolCall call result isError s.1).2, s.2) := rfl

@[simp] theorem traced_getSteeringMessages :
    H.traced.getSteeringMessages s = ((H.getSteeringMessages s.1).1,
      (H.getSteeringMessages s.1).2, s.2 ++ [.supplied (H.getSteeringMessages s.1).1]) := rfl

@[simp] theorem traced_getFollowUpMessages :
    H.traced.getFollowUpMessages s = ((H.getFollowUpMessages s.1).1,
      (H.getFollowUpMessages s.1).2, s.2 ++ [.supplied (H.getFollowUpMessages s.1).1]) := rfl

@[simp] theorem traced_toolExecution : H.traced.toolExecution = H.toolExecution := rfl

@[simp] theorem traced_maxIterations : H.traced.maxIterations = H.maxIterations := rfl

@[simp] theorem traced_maxStreamRetries : H.traced.maxStreamRetries = H.maxStreamRetries := rfl

@[simp] theorem traced_baseRetryDelayMs : H.traced.baseRetryDelayMs = H.baseRetryDelayMs := rfl

end Fields

def LoopState.erase (s : LoopState (σ × Trace)) : LoopState σ :=
  ⟨s.messages, s.newMessages, s.host.1⟩

section Erase

variable (H : LoopHost σ τ)

@[simp] theorem erase_emit (e : AgentEvent) (s : LoopState (σ × Trace)) :
    (s.emit H.traced e).erase = s.erase.emit H e := rfl

@[simp] theorem erase_push (m : AgentMessage) (s : LoopState (σ × Trace)) :
    (s.push m).erase = s.erase.push m := rfl

@[simp] theorem erase_record (m : AgentMessage) (s : LoopState (σ × Trace)) :
    (s.record m).erase = s.erase.record m := rfl

@[simp] theorem erase_replaceLast (m : AgentMessage) (s : LoopState (σ × Trace)) :
    (s.replaceLast m).erase = s.erase.replaceLast m := rfl

@[simp] theorem erase_mk (messages newMessages : List AgentMessage) (host : σ × Trace) :
    (LoopState.mk messages newMessages host).erase = ⟨messages, newMessages, host.1⟩ := rfl

variable (s : LoopState (σ × Trace))

@[simp] theorem erase_messages : s.erase.messages = s.messages := rfl

@[simp] theorem erase_newMessages :
    s.erase.newMessages = s.newMessages := rfl

@[simp] theorem erase_host : s.erase.host = s.host.1 := rfl

/-- The outcome of a step without the trace. -/
def erased {β : Type} (r : LoopState (σ × Trace) × β) : LoopState σ × β := (r.1.erase, r.2)

theorem erase_finishStream (result : Except String AssistantMessage) (addedPartial : Bool)
    (s : LoopState (σ × Trace)) :
    erased (finishStream H.traced result addedPartial s) =
      finishStream H result addedPartial s.erase := by
  cases result with
  | error e => rfl
  | ok final => cases addedPartial <;> rfl

theorem erase_consumeStream (response : Response) (events : List StreamEvent)
    (addedPartial : Bool) (s : LoopState (σ × Trace)) :
    erased (consumeStream H.traced response events addedPartial s) =
      consumeStream H response events addedPartial s.erase := by
  induction events generalizing addedPartial s with
  | nil =>
    simp only [consumeStream]
    cases response.interrupted with
    | none => exact erase_finishStream H response.result addedPartial s
    | some e => rfl
  | cons event rest ih =>
    cases event with
    | start reply => exact ih true _
    | update reply =>
      cases addedPartial with
      | false => exact ih false s
      | true => exact ih true _
    | finish => exact erase_finishStream H response.result addedPartial s

theorem erase_streamAssistantResponse :
    erased (streamAssistantResponse H.traced s) = streamAssistantResponse H s.erase := by
  simp only [streamAssistantResponse, LoopHost.traced, erase_messages, erase_host]
  cases (H.streamFn (H.convertToLlm (H.transformContext s.messages s.host.1).1)
    (H.transformContext s.messages s.host.1).2).1 with
  | error e => rfl
  | ok response => exact erase_consumeStream H response response.events false _

theorem erase_popFailed (m : AssistantMessage) (s : LoopState (σ × Trace)) :
    (popFailed m s).erase = popFailed m s.erase := by
  by_cases hlast : s.messages.getLast? = some m.toAgentMessage
  · simp only [popFailed, hlast, erase_messages, if_true]
    rfl
  · simp only [popFailed, hlast, erase_messages, if_false]

theorem erase_retryStream (left attempt : Nat) (message : AssistantMessage)
    (s : LoopState (σ × Trace)) :
    erased (retryStream H.traced left attempt message s) =
      retryStream H left attempt message s.erase := by
  induction left generalizing attempt message s with
  | zero => rfl
  | succ left ih =>
    have hstream := erase_streamAssistantResponse H (popFailed message
      { s with host := (H.sleep (H.baseRetryDelayMs * 2 ^ attempt) s.host.1, s.host.2) })
    rw [erase_popFailed, erase_mk] at hstream
    simp only [retryStream, traced_aborted, traced_sleep, traced_baseRetryDelayMs, erase_host]
    by_cases hbefore : H.aborted s.host.1
    · simp only [hbefore, if_true]
      rfl
    · by_cases hafter : H.aborted (H.sleep (H.baseRetryDelayMs * 2 ^ attempt) s.host.1)
      · simp only [hbefore, hafter, if_true]
        rfl
      · simp only [hbefore, hafter, Bool.false_eq_true, if_false, erase_messages, erase_newMessages]
        rw [← hstream]
        generalize streamAssistantResponse H.traced _ = outcome
        obtain ⟨s', answer⟩ := outcome
        cases answer with
        | error e => rfl
        | ok next =>
          simp only [erased]
          split_ifs
          · exact ih (attempt + 1) next s'
          · rfl

theorem erase_streamWithRetry :
    erased (streamWithRetry H.traced s) = streamWithRetry H s.erase := by
  unfold streamWithRetry
  rw [← erase_streamAssistantResponse H s]
  generalize streamAssistantResponse H.traced s = outcome
  obtain ⟨s', answer⟩ := outcome
  cases answer with
  | error e => rfl
  | ok message =>
    simp only [erased]
    split_ifs
    · exact erase_retryStream H _ 0 message s'
    · rfl

variable (message : AssistantMessage)

theorem erase_prepareToolCall (call : ToolCall) (s : LoopState (σ × Trace)) :
    erased (prepareToolCall H.traced message call s) = prepareToolCall H message call s.erase := by
  simp only [prepareToolCall, traced_findTool, traced_toolNotFoundError,
    traced_validateToolArguments]
  cases H.findTool call.name with
  | none => rfl
  | some tool =>
    simp only
    cases H.validateToolArguments tool call with
    | error e => rfl
    | ok args =>
      simp only [traced_beforeToolCall, erase_host]
      rcases (H.beforeToolCall message call args s.host.1).1 with e | _ | before
      · rfl
      · rfl
      · simp only
        split_ifs
        · rfl
        · rfl

theorem erase_runPrepared (call : ToolCall) (tool : τ) (args : String) (s : LoopState (σ × Trace)) :
    erased (runPrepared H.traced call tool args s) = runPrepared H call tool args s.erase := by
  have hafter : ∀ (result : AgentToolResult) (isError : Bool) (s : LoopState (σ × Trace)),
      erased (finalizeExecutedToolCall H.traced call result isError s) =
        finalizeExecutedToolCall H call result isError s.erase := by
    intro result isError s
    simp only [finalizeExecutedToolCall, traced_afterToolCall, erase_host]
    cases (H.afterToolCall call result isError s.host.1).1 with
    | none => rfl
    | some after => rfl
  simp only [runPrepared, executePreparedToolCall, traced_execute, erase_host]
  rcases (H.execute tool args call s.host.1).1 with e | result
  · exact hafter _ true _
  · exact hafter result false _

theorem erase_executeToolCallsSequential (calls : List ToolCall) (s : LoopState (σ × Trace)) :
    erased (executeToolCallsSequential H.traced message calls s) =
      executeToolCallsSequential H message calls s.erase := by
  induction calls generalizing s with
  | nil => rfl
  | cons call rest ih =>
    have hprepare := erase_prepareToolCall H message call
      (s.emit H.traced (.toolExecutionStart call))
    simp only [executeToolCallsSequential]
    rw [← erase_emit, ← hprepare]
    generalize prepareToolCall H.traced message call _ = outcome
    obtain ⟨s', preparation⟩ := outcome
    cases preparation with
    | immediate result isError => exact congrArg (fun r => (r.1, _ :: r.2)) (ih _)
    | prepared tool args =>
      simp only [erased]
      rw [← erase_runPrepared]
      exact congrArg (fun r => (r.1, _ :: r.2)) (ih _)

theorem erase_prepareToolCalls (calls : List ToolCall) (s : LoopState (σ × Trace)) :
    erased (prepareToolCalls H.traced message calls s) =
      prepareToolCalls H message calls s.erase := by
  induction calls generalizing s with
  | nil => rfl
  | cons call rest ih =>
    have hprepare := erase_prepareToolCall H message call
      (s.emit H.traced (.toolExecutionStart call))
    simp only [prepareToolCalls]
    rw [← erase_emit, ← hprepare]
    generalize prepareToolCall H.traced message call _ = outcome
    obtain ⟨s', preparation⟩ := outcome
    cases preparation with
    | immediate result isError => exact congrArg (fun r => (r.1, _ :: r.2.1, r.2.2)) (ih _)
    | prepared tool args => exact congrArg (fun r => (r.1, r.2.1, _ :: r.2.2)) (ih s')

theorem erase_finishToolCalls (runnable : List (ToolCall × τ × String))
    (s : LoopState (σ × Trace)) :
    erased (finishToolCalls H.traced runnable s) = finishToolCalls H runnable s.erase := by
  induction runnable generalizing s with
  | nil => rfl
  | cons prepared rest ih =>
    obtain ⟨call, tool, args⟩ := prepared
    simp only [finishToolCalls]
    rw [← erase_runPrepared]
    exact congrArg (fun r => (r.1, _ :: r.2)) (ih _)

theorem erase_executeToolCalls (s : LoopState (σ × Trace)) :
    erased (executeToolCalls H.traced message s) = executeToolCalls H message s.erase := by
  simp only [executeToolCalls, traced_toolExecution]
  cases H.toolExecution with
  | sequential => exact erase_executeToolCallsSequential H message message.toolCalls s
  | parallel =>
    simp only [executeToolCallsParallel]
    rw [← erase_prepareToolCalls]
    exact congrArg (fun r => (r.1, _ ++ r.2)) (erase_finishToolCalls H _ _)

theorem erase_pushResults (results : List ToolResultMessage) (s : LoopState (σ × Trace)) :
    (results.foldl pushResult s).erase = results.foldl pushResult s.erase := by
  induction results generalizing s with
  | nil => rfl
  | cons result rest ih => exact ih (pushResult s result)

theorem erase_injectAll (pending : List AgentMessage) (s : LoopState (σ × Trace)) :
    (pending.foldl (injectPending H.traced) s).erase = pending.foldl (injectPending H) s.erase := by
  induction pending generalizing s with
  | nil => rfl
  | cons m rest ih => exact ih (injectPending H.traced s m)

theorem erase_afterReply (s : LoopState (σ × Trace)) :
    erased (afterReply H.traced message s) = afterReply H message s.erase := by
  have htools :
      erased (if message.toolCalls = [] then (s, []) else executeToolCalls H.traced message s) =
        if message.toolCalls = [] then (s.erase, []) else executeToolCalls H message s.erase := by
    split_ifs
    · rfl
    · exact erase_executeToolCalls H message s
  simp only [afterReply]
  rw [← htools]
  generalize (if message.toolCalls = [] then (s, []) else executeToolCalls H.traced message s) =
    outcome
  obtain ⟨s', results⟩ := outcome
  simp only [erased, ← erase_pushResults, ← erase_emit]
  generalize (results.foldl pushResult s').emit H.traced (.turnEnd message.toAgentMessage results) =
    s''
  simp only [traced_getSteeringMessages, traced_getFollowUpMessages, erase_host]
  by_cases hmore : message.toolCalls ≠ [] ∨ (H.getSteeringMessages s''.host.1).1 ≠ []
  · simp only [hmore, if_true]
    rfl
  · simp only [hmore, if_false]
    by_cases hfollow : (H.getFollowUpMessages (H.getSteeringMessages s''.host.1).2).1 = []
    · simp only [hfollow, ne_eq, not_true, if_false]
      rfl
    · simp only [hfollow, ne_eq, not_false_iff, if_true]
      rfl

theorem erase_runTurn (firstTurn : Bool) (pending : List AgentMessage) (s : LoopState (σ × Trace)) :
    erased (runTurn H.traced firstTurn pending s) = runTurn H firstTurn pending s.erase := by
  have hstart : (if firstTurn then s else s.emit H.traced .turnStart).erase =
      if firstTurn then s.erase else s.erase.emit H .turnStart := by
    cases firstTurn
    · rfl
    · rfl
  simp only [runTurn]
  rw [← hstart, ← erase_injectAll, ← erase_streamWithRetry]
  generalize streamWithRetry H.traced _ = outcome
  obtain ⟨s', answer⟩ := outcome
  cases answer with
  | error e => rfl
  | ok message =>
    simp only [erased]
    split_ifs
    · rfl
    · exact erase_afterReply H message _

theorem erase_announcePrompts (prompts : List AgentMessage) (s : LoopState (σ × Trace)) :
    (prompts.foldl (announcePrompt H.traced) s).erase =
      prompts.foldl (announcePrompt H) s.erase := by
  induction prompts generalizing s with
  | nil => rfl
  | cons m rest ih => exact ih (announcePrompt H.traced s m)

end Erase

end CrabbyKit.AgentCore
