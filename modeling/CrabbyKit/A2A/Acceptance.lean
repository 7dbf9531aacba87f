import CrabbyKit.A2A.TaskStore
import CrabbyKit.Session.Store

/-!
# What `message/send` and `message/stream` accept

`handleSendMessage` and `handleStreamMessage` of `server/handler.ts` on parameters any part of which
may be missing. The executor is a parameter, and may reject.
-/

namespace CrabbyKit.A2A.Acceptance

open SessionStore (truthy)

structure RawMessage where
  messageId : Option String := none
  role : Option String := none
  parts : Option (List Part) := none
  contextId : Option String := none
  taskId : Option String := none
  metadata : Option JsonObject := none

/-- The parameters as they come in. -/
structure RawParams where
  message : Option RawMessage := none
  configuration : Option MessageSendConfiguration := none

structure ExecuteResult where
  task : Option Task := none
  message : Option Message := none

/-- `AgentExecutor.execute`: the store that it leaves, and what its promise settles with. -/
abbrev Executor := String → RawParams → TaskStore → TaskStore × Except String ExecuteResult

/-- What a handler answers, or that its promise is rejected. -/
inductive Answer
  | error (e : RpcError)
  | message (message : Message)
  | task (task : Option Task)
  | stream
  | rejected (reason : String)

def Answer.errorCode : Answer → Option Int
  | .error e => some e.code
  | _ => none

/-- `validateMessageParams`: the error, or the message. -/
def validateMessageParams (params : Option RawParams) : Except RpcError RawMessage :=
  match params.bind RawParams.message with
  | none => .error (.invalidParams "Missing required field: message")
  | some message =>
    if (message.parts.getD []).isEmpty then
      .error (.invalidParams "Message must contain at least one part")
    else if (truthy message.role).isNone then
      .error (.invalidParams "Message must have a role")
    else if (truthy message.messageId).isNone then
      .error (.invalidParams "Message must have a messageId")
    else .ok message

/-- The check of `handleSendMessage` on the task that a message refers to. -/
def checkReferencedTask (store : TaskStore) (message : RawMessage) : Option RpcError :=
  match truthy message.taskId with
  | none => none
  | some taskId =>
    match store.get taskId with
    | none => some (.taskNotFound taskId)
    | some task =>
      if isTerminalState task.status.state then
        some (.unsupportedOperation
          s!"Task {taskId} is in terminal state: {task.status.state.name}")
      else none

/-- The rows of a new task, unless its id is taken. -/
def createTask (store : TaskStore) (taskId : String) (message : RawMessage)
    (configuration : Option MessageSendConfiguration) (now : Instant) : Option TaskStore :=
  let contextId := message.contextId.getD taskId
  let sessionId := (store.getSessionIdForContext contextId).getD contextId
  (store.create taskId contextId sessionId message.metadata now).map fun store =>
    match configuration.bind MessageSendConfiguration.pushNotificationConfig with
    | some config => store.setPushConfig taskId config
    | none => store

def takenMessage : String := "UNIQUE constraint failed: a2a_tasks.id"

def executed (store : TaskStore) (taskId : String) : Except String ExecuteResult → Answer
  | .error reason => .error (.internal reason)
  | .ok result =>
    match result.message with
    | some message => .message message
    | none => .task (result.task.or (store.get taskId))

def handleSendMessage (execute : Executor) (store : TaskStore) (params : Option RawParams)
    (taskId : String) (now : Instant) : TaskStore × Answer :=
  match validateMessageParams params with
  | .error e => (store, .error e)
  | .ok message =>
    match checkReferencedTask store message with
    | some e => (store, .error e)
    | none =>
      match createTask store taskId message (params.bind RawParams.configuration) now with
      | none => (store, .rejected takenMessage)
      | some created =>
        let run := execute taskId (params.getD {}) created
        (run.1, executed run.1 taskId run.2)

/-- `handleStreamMessage`: what the execution settles with goes into the stream. -/
def handleStreamMessage (execute : Executor) (store : TaskStore) (params : Option RawParams)
    (taskId : String) (now : Instant) : TaskStore × Answer :=
  match validateMessageParams params with
  | .error e => (store, .error e)
  | .ok message =>
    match createTask store taskId message (params.bind RawParams.configuration) now with
    | none => (store, .rejected takenMessage)
    | some created => ((execute taskId (params.getD {}) created).1, .stream)

/-- Both handlers answer with the same error or with none, and an error leaves the store alone. -/
def SameAcceptance (execute : Executor) (store : TaskStore) (params : Option RawParams)
    (taskId : String) (now : Instant) : Prop :=
  let send := handleSendMessage execute store params taskId now
  let stream := handleStreamMessage execute store params taskId now
  stream.2.errorCode = send.2.errorCode ∧
    (send.2.errorCode.isSome → send.1 = store ∧ stream.1 = store)

def RefersToOpenTask (store : TaskStore) (message : RawMessage) : Prop :=
  ∀ taskId, truthy message.taskId = some taskId →
    ∃ task, store.get taskId = some task ∧ isTerminalState task.status.state = false

def ExecutionRejects (execute : Executor) (store : TaskStore) (params : Option RawParams)
    (message : RawMessage) (taskId : String) (now : Instant) : Prop :=
  ∃ created reason,
    createTask store taskId message (params.bind RawParams.configuration) now = some created ∧
      (execute taskId (params.getD {}) created).2 = .error reason

theorem checkReferencedTask_eq_none_iff (store : TaskStore) (message : RawMessage) :
    checkReferencedTask store message = none ↔ RefersToOpenTask store message := by
  unfold checkReferencedTask RefersToOpenTask
  cases truthy message.taskId with
  | none => simp
  | some taskId =>
    cases found : store.get taskId with
    | none => simp [found]
    | some task =>
      cases ended : isTerminalState task.status.state <;> simp [found, ended]

theorem errorCode_executed (store : TaskStore) (taskId : String) (result : ExecuteResult) :
    (executed store taskId (.ok result)).errorCode = none := by
  rw [executed]
  split <;> rfl

/-- The handlers accept the same exactly when the parameters are refused by both, or refer to no
task that is unknown or over and the execution does not reject. -/
theorem sameAcceptance_iff (execute : Executor) (store : TaskStore) (params : Option RawParams)
    (taskId : String) (now : Instant) : SameAcceptance execute store params taskId now ↔
      ∀ message, validateMessageParams params = .ok message →
        RefersToOpenTask store message ∧
          ¬ ExecutionRejects execute store params message taskId now := by
  unfold SameAcceptance handleSendMessage handleStreamMessage
  cases valid : validateMessageParams params with
  | error e => simp
  | ok message =>
    simp only [Except.ok.injEq, forall_eq']
    rw [← checkReferencedTask_eq_none_iff]
    unfold ExecutionRejects
    cases refused : checkReferencedTask store message with
    | some e =>
      cases createTask store taskId message (params.bind RawParams.configuration) now with
      | none => simp [Answer.errorCode]
      | some created => simp [Answer.errorCode]
    | none =>
      cases createTask store taskId message (params.bind RawParams.configuration) now with
      | none => simp [Answer.errorCode]
      | some created =>
        cases result : (execute taskId (params.getD {}) created).2 with
        | error reason => simp [Answer.errorCode, executed, result]
        | ok outcome =>
          have noError := errorCode_executed (execute taskId (params.getD {}) created).1 taskId
            outcome
          simp [result, noError, show Answer.stream.errorCode = none from rfl]

/-- A message to a task that nobody knows. -/
def strayParams : RawParams where
  message := some
    { messageId := some "m", role := some "user", parts := some [.text "hi"], taskId := some "t" }

/-- The stream of a message to an unknown task, which `message/send` refuses. -/
theorem stream_accepts_unknown_task :
    let execute : Executor := fun _ _ store => (store, .ok {})
    ¬ SameAcceptance execute {} (some strayParams) "new" 0 ∧
      (handleStreamMessage execute {} (some strayParams) "new" 0).1.stateOf "new" =
        some .submitted := by
  intro execute
  refine ⟨?_, rfl⟩
  rintro ⟨same, -⟩
  have refused : (handleSendMessage execute {} (some strayParams) "new" 0).2.errorCode =
      some (-32001) := rfl
  rw [refused] at same
  cases same

end CrabbyKit.A2A.Acceptance
