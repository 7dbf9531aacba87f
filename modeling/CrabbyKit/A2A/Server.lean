import CrabbyKit.A2A.TaskStore
import CrabbyKit.Core.JsonString
import CrabbyKit.Session.Store

/-!
# The A2A server

`A2AHandler` of `server/handler.ts` and `ClawExecutor` of `server/claw-executor.ts`, cut at their
awaits: a request runs until its prompt is sent, and goes on when the prompt settles. Drawn ids,
clock readings, the outcome of a prompt and the sessions that are streaming are arguments.
-/

namespace CrabbyKit.A2A

/-- A call of `sendPrompt` that has not settled, and what its continuation knows. -/
structure PromptCall where
  taskId : String
  contextId : String
  sessionId : String
  text : String
  blocking : Bool
  stream : Bool
  deriving DecidableEq, Repr

/-- The ways in which the state of a task is made known. -/
inductive Channel
  | response | cancelResponse | stream | push
  deriving DecidableEq, Repr

/-- A state of a task that was made known. -/
structure Report where
  channel : Channel
  taskId : String
  state : TaskState
  deriving DecidableEq, Repr

/-- The stores of a host, its calls that are waiting, and what has gone out. -/
structure ServerState where
  taskStore : TaskStore := {}
  sessionStore : SessionStore := {}
  prompts : List PromptCall := []
  /-- Requests of `tasks/cancel` between the abort and the write. -/
  cancels : List String := []
  /-- The tasks whose prompt has settled. -/
  settled : List String := []
  /-- The calls of `sendPrompt` so far. -/
  ran : List PromptCall := []
  reports : List Report := []

namespace ServerState

def report (s : ServerState) (channel : Channel) (tasks : List Task) : ServerState :=
  { s with reports := s.reports ++ tasks.map fun task => ⟨channel, task.id, task.status.state⟩ }

/-- The answer to `message/send`. -/
def answer (s : ServerState) (stream : Bool) (task : Option Task) : ServerState :=
  if stream then s else s.report .response task.toList

variable (s : ServerState) (stream : Bool) (task : Option Task)

@[simp] theorem answer_taskStore : (s.answer stream task).taskStore = s.taskStore := by
  cases stream <;> rfl

@[simp] theorem answer_sessionStore : (s.answer stream task).sessionStore = s.sessionStore := by
  cases stream <;> rfl

@[simp] theorem answer_prompts : (s.answer stream task).prompts = s.prompts := by
  cases stream <;> rfl

@[simp] theorem answer_cancels : (s.answer stream task).cancels = s.cancels := by
  cases stream <;> rfl

@[simp] theorem answer_settled : (s.answer stream task).settled = s.settled := by
  cases stream <;> rfl

@[simp] theorem answer_ran : (s.answer stream task).ran = s.ran := by
  cases stream <;> rfl

end ServerState

def extractText (message : Message) : Option String :=
  match message.parts.filterMap Part.asText with
  | [] => none
  | texts => some ("\n".intercalate texts)

def statusMessage (messageId text : String) : Message where
  messageId := messageId
  role := .agent
  parts := [.text text]

def failedStatus (taskId error : String) (now : Instant) : TaskStatus where
  state := .failed
  message := some (statusMessage (taskId ++ "-error") error)
  timestamp := now

def completedStatus (taskId response : String) (now : Instant) : TaskStatus where
  state := .completed
  message := some (statusMessage (taskId ++ "-response") response)
  timestamp := now

/-- What `execute` returns before its first await, or that it waits. -/
inductive ExecuteResult
  | threw (message : String)
  | returned (task : Option Task)
  | waits

/-- The part of `execute` up to its first await, with the events it emits. -/
structure Executed where
  state : ServerState
  events : List BusEvent
  result : ExecuteResult

/-- The session of a context: the one of its latest task if it exists, else a new one. -/
def resolveSession (s : ServerState) (contextId text sessionNanoid : String) (now : Instant) :
    Except StoreError (SessionStore × String) :=
  match (s.taskStore.getSessionIdForContext contextId).filter
    fun id => id ≠ "" ∧ (s.sessionStore.get id).isSome with
  | some sessionId => .ok (s.sessionStore, sessionId)
  | none =>
    match s.sessionStore.create
        { name := some ("A2A: " ++ sliceText 50 text), source := some "a2a" }
      sessionNanoid now with
    | .error e => .error e
    | .ok (sessionStore, session) => .ok (sessionStore, session.id)

def contextOf (taskId : String) (message : Message) : String := message.contextId.getD taskId

def execute (stream : Bool) (s : ServerState) (taskId : String) (params : MessageSendParams)
    (sessionNanoid : String) (now : Instant) : Executed :=
  match SessionStore.truthy (extractText params.message) with
  | none =>
    let status := failedStatus taskId "Message contained no text content" now
    let s := { s with taskStore := s.taskStore.updateStatus taskId status now }
    ⟨s, [.statusUpdate taskId taskId status true], .returned (s.taskStore.get taskId)⟩
  | some text =>
    let contextId := contextOf taskId params.message
    match resolveSession s contextId text sessionNanoid now with
    | .error e => ⟨s, [], .threw (e.message.getD "")⟩
    | .ok (sessionStore, sessionId) =>
      let blocking := (params.configuration.bind MessageSendConfiguration.blocking).getD true
      let working : TaskStatus := { state := .working, timestamp := now }
      let call : PromptCall := ⟨taskId, contextId, sessionId, text, blocking, stream⟩
      let s :=
        { s with
          taskStore := s.taskStore.updateStatus taskId working now
          sessionStore := sessionStore
          prompts := s.prompts ++ [call]
          ran := s.ran ++ [call] }
      ⟨s, [.statusUpdate taskId contextId { state := .submitted, timestamp := now } false,
          .statusUpdate taskId contextId working false],
        if blocking then .waits else .returned (s.taskStore.get taskId)⟩

section Execute

variable {stream : Bool} {s : ServerState} {taskId : String} {params : MessageSendParams}
  {sessionNanoid text : String} {now : Instant}

theorem execute_no_text (h : SessionStore.truthy (extractText params.message) = none) :
    execute stream s taskId params sessionNanoid now =
      let status := failedStatus taskId "Message contained no text content" now
      let store := s.taskStore.updateStatus taskId status now
      ⟨{ s with taskStore := store }, [.statusUpdate taskId taskId status true],
        .returned (store.get taskId)⟩ := by
  simp only [execute, h]

theorem execute_threw (h : SessionStore.truthy (extractText params.message) = some text)
    {e : StoreError}
    (hsession : resolveSession s (contextOf taskId params.message) text sessionNanoid now =
      .error e) :
    execute stream s taskId params sessionNanoid now = ⟨s, [], .threw (e.message.getD "")⟩ := by
  simp only [execute, h, hsession]

theorem execute_prompts (h : SessionStore.truthy (extractText params.message) = some text)
    {sessionStore : SessionStore} {sessionId : String}
    (hsession : resolveSession s (contextOf taskId params.message) text sessionNanoid now =
      .ok (sessionStore, sessionId)) :
    execute stream s taskId params sessionNanoid now =
      let contextId := contextOf taskId params.message
      let blocking := (params.configuration.bind MessageSendConfiguration.blocking).getD true
      let working : TaskStatus := { state := .working, timestamp := now }
      let call : PromptCall := ⟨taskId, contextId, sessionId, text, blocking, stream⟩
      let store := s.taskStore.updateStatus taskId working now
      ⟨{ s with
          taskStore := store
          sessionStore := sessionStore
          prompts := s.prompts ++ [call]
          ran := s.ran ++ [call] },
        [.statusUpdate taskId contextId { state := .submitted, timestamp := now } false,
          .statusUpdate taskId contextId working false],
        if blocking then .waits else .returned (store.get taskId)⟩ := by
  simp only [execute, h, hsession]

end Execute

def settledStatus (call : PromptCall) (outcome : Except String String) (now : Instant) :
    TaskStatus :=
  match outcome with
  | .ok response => completedStatus call.taskId response now
  | .error message => failedStatus call.taskId message now

/-- The events of the continuation: a failure without blocking emits none. -/
def settledEvents (call : PromptCall) (outcome : Except String String) (now : Instant)
    (task : Option Task) : List BusEvent :=
  let status := settledStatus call outcome now
  let update : BusEvent := .statusUpdate call.taskId call.contextId status true
  match call.blocking, outcome with
  | true, _ => update :: (task.map fun task => .complete call.taskId task).toList
  | false, .ok _ => [update]
  | false, .error _ => []

/-- What the continuation makes known: its status updates to the reader of a stream, and without
blocking a push where one is configured. -/
def settledReports (call : PromptCall) (state : TaskState) (events : List BusEvent)
    (pushConfig : Option PushNotificationConfig) : List Report :=
  (if call.stream then events.filterMap fun
      | .statusUpdate _ _ _ _ => some ⟨.stream, call.taskId, state⟩
      | _ => none
    else []) ++
  if call.blocking then [] else pushConfig.toList.map fun _ => ⟨.push, call.taskId, state⟩

/-- The continuation of `executeBlocking` or `executeNonBlocking`, with the events it emits. -/
def settle (s : ServerState) (call : PromptCall) (outcome : Except String String)
    (now : Instant) : ServerState × List BusEvent :=
  let status := settledStatus call outcome now
  let store := s.taskStore.updateStatus call.taskId status now
  let task := store.get call.taskId
  let events := settledEvents call outcome now task
  let s :=
    { s with
      taskStore := store
      prompts := s.prompts.filter fun other => other.taskId ≠ call.taskId
      settled := s.settled ++ [call.taskId]
      reports := s.reports ++
        settledReports call status.state events (store.getPushConfig call.taskId) }
  (if call.blocking then s.answer call.stream task else s, events)

section Settle

variable (s : ServerState) (call : PromptCall) (outcome : Except String String) (now : Instant)

theorem settle_taskStore : (settle s call outcome now).1.taskStore =
    s.taskStore.updateStatus call.taskId (settledStatus call outcome now) now := by
  unfold settle
  cases call.blocking <;> simp

theorem settle_prompts : (settle s call outcome now).1.prompts =
    s.prompts.filter fun other => other.taskId ≠ call.taskId := by
  unfold settle
  cases call.blocking <;> simp

theorem settle_cancels : (settle s call outcome now).1.cancels = s.cancels := by
  unfold settle
  cases call.blocking <;> simp

theorem settle_settled : (settle s call outcome now).1.settled = s.settled ++ [call.taskId] := by
  unfold settle
  cases call.blocking <;> simp

theorem settle_ran : (settle s call outcome now).1.ran = s.ran := by
  unfold settle
  cases call.blocking <;> simp

end Settle

/-- `validateMessageParams`; the message is there and has a role by its type. -/
def validateMessageParams (params : MessageSendParams) : Option RpcError :=
  if params.message.parts = [] then
    some (.invalidParams "Message must contain at least one part")
  else if params.message.messageId = "" then
    some (.invalidParams "Message must have a messageId")
  else none

/-- The check of `message/send` on the task that a message refers to. -/
def checkReferencedTask (s : ServerState) (params : MessageSendParams) : Option RpcError :=
  match SessionStore.truthy params.message.taskId with
  | none => none
  | some taskId =>
    match s.taskStore.get taskId with
    | none => some (.taskNotFound taskId)
    | some task =>
      if isTerminalState task.status.state then
        some (.unsupportedOperation
          s!"Task {taskId} is in terminal state: {task.status.state.name}")
      else none

/-- The rows that `message/send` and `message/stream` write before they execute: the session is that
of the context's latest task, or else the context id stands for it. -/
def createTask (s : ServerState) (taskId : String) (params : MessageSendParams) (now : Instant) :
    Option ServerState :=
  let contextId := contextOf taskId params.message
  let sessionId := (s.taskStore.getSessionIdForContext contextId).getD contextId
  match s.taskStore.create taskId contextId sessionId params.message.metadata now with
  | none => none
  | some taskStore =>
    some { s with
      taskStore :=
        match params.configuration.bind MessageSendConfiguration.pushNotificationConfig with
        | some config => taskStore.setPushConfig taskId config
        | none => taskStore }

/-- `handleSendMessage` and `handleStreamMessage` up to the first await. -/
def handleMessage (stream : Bool) (s : ServerState) (params : MessageSendParams)
    (taskNanoid sessionNanoid : String) (now : Instant) : Except RpcError Executed :=
  match validateMessageParams params with
  | some e => .error e
  | none =>
    match if stream then none else checkReferencedTask s params with
    | some e => .error e
    | none =>
      match createTask s taskNanoid params now with
      | none => .error (.internal "UNIQUE constraint failed: a2a_tasks.id")
      | some s => .ok (execute stream s taskNanoid params sessionNanoid now)

theorem handleMessage_cases (stream : Bool) (s : ServerState) (params : MessageSendParams)
    (taskNanoid sessionNanoid : String) (now : Instant) :
    (∃ e, handleMessage stream s params taskNanoid sessionNanoid now = .error e) ∨
      ∃ created, createTask s taskNanoid params now = some created ∧
        handleMessage stream s params taskNanoid sessionNanoid now =
          .ok (execute stream created taskNanoid params sessionNanoid now) := by
  unfold handleMessage
  split
  · exact Or.inl ⟨_, rfl⟩
  · split
    · exact Or.inl ⟨_, rfl⟩
    · split
      · exact Or.inl ⟨_, rfl⟩
      · rename_i created hcreated
        exact Or.inr ⟨created, hcreated, rfl⟩

/-- The state after the first part of a request, with its answer. -/
def afterMessage (stream : Bool) (s : ServerState) :
    Except RpcError Executed → ServerState
  | .error _ => s
  | .ok executed =>
    match executed.result with
    | .returned task => executed.state.answer stream task
    | _ => executed.state

/-- `handleCancelTask` up to the write: the task is running and its session has been aborted. -/
def cancelGoesOn (s : ServerState) (taskId : String) (isStreaming : Option (String → Bool)) :
    Bool :=
  match s.taskStore.get taskId, isStreaming, s.taskStore.getSessionId taskId with
  | some task, some isStreaming, some sessionId =>
    taskId ≠ "" && !isTerminalState task.status.state && sessionId ≠ "" && isStreaming sessionId
  | _, _, _ => false

/-- The end of `handleCancelTask`. -/
def finishCancel (s : ServerState) (taskId : String) (now : Instant) : ServerState :=
  let status : TaskStatus := { state := .canceled, timestamp := now }
  let s :=
    { s with
      taskStore := s.taskStore.updateStatus taskId status now
      cancels := s.cancels.erase taskId }
  s.report .cancelResponse (s.taskStore.get taskId).toList

/-- What happens at a server: requests, continuations, and sessions that come and go otherwise. -/
inductive ServerLabel
  | message (stream : Bool) (params : MessageSendParams) (taskNanoid sessionNanoid : String)
    (now : Instant)
  | settle (taskId : String) (outcome : Except String String) (now : Instant)
  | getTask (taskId : String)
  | listTasks (contextId : Option String) (limit offset : Option Nat)
  | cancel (taskId : String) (isStreaming : Option (String → Bool))
  | finishCancel (taskId : String) (now : Instant)
  | createSession (opts : CreateOpts) (nanoid : String) (now : Instant)
  | deleteSession (sessionId : String)

/-- The call of `sendPrompt` for a task. -/
def ServerState.promptOf (s : ServerState) (taskId : String) : Option PromptCall :=
  s.prompts.find? fun call => call.taskId = taskId

/-- One step; what is not under way does nothing. -/
def ServerState.step (s : ServerState) : ServerLabel → ServerState
  | .message stream params taskNanoid sessionNanoid now =>
    afterMessage stream s (handleMessage stream s params taskNanoid sessionNanoid now)
  | .settle taskId outcome now =>
    match s.promptOf taskId with
    | some call => (settle s call outcome now).1
    | none => s
  | .getTask taskId => s.report .response (s.taskStore.get taskId).toList
  | .listTasks contextId limit offset =>
    s.report .response (s.taskStore.list contextId limit offset)
  | .cancel taskId isStreaming =>
    if cancelGoesOn s taskId isStreaming then { s with cancels := s.cancels ++ [taskId] } else s
  | .finishCancel taskId now => if taskId ∈ s.cancels then finishCancel s taskId now else s
  | .createSession opts nanoid now =>
    match s.sessionStore.create opts nanoid now with
    | .error _ => s
    | .ok (sessionStore, _) => { s with sessionStore := sessionStore }
  | .deleteSession sessionId => { s with sessionStore := s.sessionStore.delete sessionId }

theorem ServerState.step_settle_none {s : ServerState} {taskId : String}
    (h : s.promptOf taskId = none) (outcome : Except String String) (now : Instant) :
    s.step (.settle taskId outcome now) = s := by
  simp only [step, h]

theorem ServerState.step_settle_some {s : ServerState} {taskId : String} {call : PromptCall}
    (h : s.promptOf taskId = some call) (outcome : Except String String) (now : Instant) :
    s.step (.settle taskId outcome now) = (settle s call outcome now).1 := by
  simp only [step, h]

theorem ServerState.step_createSession (s : ServerState) (opts : CreateOpts) (nanoid : String)
    (now : Instant) :
    ∃ sessionStore, s.step (.createSession opts nanoid now) =
      { s with sessionStore := sessionStore } := by
  simp only [step]
  cases s.sessionStore.create opts nanoid now with
  | error _ => exact ⟨s.sessionStore, rfl⟩
  | ok created => exact ⟨created.1, rfl⟩

end CrabbyKit.A2A
