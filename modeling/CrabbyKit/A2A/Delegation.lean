import CrabbyKit.A2A.Server

/-!
# The A2A client

The messages of `call_agent` and `start_task` of `client/tools.ts`, the records of
`PendingTaskStore`, and the text that a callback hands to the session of a task.
-/

namespace CrabbyKit.A2A

/-- `checkDepth`, on what is stored under `a2a:depth`. -/
def checkDepth (stored : Option Nat) (maxDepth : Nat) : Except String Nat :=
  let depth := stored.getD 0
  if depth ≥ maxDepth then
    .error s!"Agent chain depth limit reached ({depth}/{maxDepth}). Cannot delegate further."
  else .ok depth

/-- `metadata` of a delegated message: the depth of the agent that gets it. -/
def depthMetadata (depth : Nat) : JsonObject :=
  ⟨[("claw:depth", .num (depth + 1))], List.nodup_singleton _⟩

/-- The arguments of `call_agent` and `start_task`, with what is drawn for their message. -/
structure DelegateArgs where
  message : String
  contextId : Option String := none
  messageId : String

/-- The message that is sent to the other agent. -/
def DelegateArgs.toMessage (args : DelegateArgs) (depth : Nat) : Message where
  messageId := args.messageId
  role := .user
  parts := [.text args.message]
  contextId := SessionStore.truthy args.contextId
  metadata := some (depthMetadata depth)

/-- The request of `call_agent`. -/
def callAgentParams (args : DelegateArgs) (depth : Nat) : MessageSendParams where
  message := args.toMessage depth
  configuration := some { blocking := some true }

/-- The request of `start_task`. -/
def startTaskParams (args : DelegateArgs) (depth : Nat) (pushConfig : PushNotificationConfig) :
    MessageSendParams where
  message := args.toMessage depth
  configuration := some { blocking := some false, pushNotificationConfig := some pushConfig }

theorem extractText_toMessage (args : DelegateArgs) (depth : Nat) :
    extractText (args.toMessage depth) = some args.message := by
  unfold extractText DelegateArgs.toMessage
  simp [Part.asText]

structure PendingTask where
  taskId : String
  contextId : String
  targetAgentName : String
  originalRequest : String
  state : TaskState
  originSessionId : String
  webhookToken : String
  deriving DecidableEq, Repr

/-- The records under the keys of the tasks. -/
abbrev PendingTaskStore := String → Option PendingTask

namespace PendingTaskStore

def save (store : PendingTaskStore) (task : PendingTask) : PendingTaskStore :=
  Function.update store task.taskId (some task)

def delete (store : PendingTaskStore) (taskId : String) : PendingTaskStore :=
  Function.update store taskId none

variable (store : PendingTaskStore) (task : PendingTask) (taskId id : String)

@[simp] theorem save_apply :
    store.save task id = if id = task.taskId then some task else store id := by
  unfold save
  rw [Function.update_apply]

@[simp] theorem delete_apply : store.delete taskId id = if id = taskId then none else store id := by
  unfold delete
  rw [Function.update_apply]

end PendingTaskStore

/-- `TaskStatusUpdateEvent` as a callback reads it, with the token of its header. -/
structure Notification where
  taskId : String
  token : Option String
  status : TaskStatus

def statusText (status : TaskStatus) : String :=
  "\n".intercalate ((status.message.map Message.parts).getD [] |>.filterMap Part.asText)

def resultText (pending : PendingTask) (status : TaskStatus) : String :=
  let orElse text := (SessionStore.truthy (some (statusText status))).getD text
  match status.state with
  | .completed => s!"[A2A Task Complete] Agent \"{pending.targetAgentName}\" finished.\n" ++
      s!"Original request: {pending.originalRequest}\nResult: " ++ orElse "No response text"
  | .failed => s!"[A2A Task Failed] Agent \"{pending.targetAgentName}\" failed.\n" ++
      s!"Original request: {pending.originalRequest}\nError: " ++ orElse "Unknown error"
  | state => s!"[A2A Task {state.name}] Agent \"{pending.targetAgentName}\"\n" ++
      s!"Original request: {pending.originalRequest}"

end CrabbyKit.A2A

/-!
## Delegated tasks

An agent that delegates tasks to another one: `start_task`, `check_task` and `cancel_task` of
`client/tools.ts`, `handleA2ACallback` of `agent-runtime.ts`, and the server of the other agent.
Every call of the storage and of the other agent is a step of its own.
-/

namespace CrabbyKit.A2A

/-- What follows an `updateState`: the end of `check_task`, the deletion of `cancel_task`, or the
injection of a callback. -/
inductive After
  | check
  | cancel
  | callback (status : TaskStatus) (pending : PendingTask)

/-- An operation that waits: for the other agent, or for the storage. -/
inductive Thread
  /-- `start_task` has its answer and saves the record. -/
  | save (record : PendingTask)
  /-- `check_task` asks the other agent. -/
  | check (taskId : String)
  /-- `cancel_task` asks the other agent. -/
  | cancel (taskId : String)
  /-- The other agent has aborted the session and writes the status. -/
  | cancelWrite (taskId : String)
  /-- `updateState` reads the record. -/
  | updateGet (taskId : String) (state : TaskState) (after : After)
  /-- `updateState` writes the record. -/
  | updatePut (record : PendingTask) (after : After)
  | finish (taskId : String) (after : After)

/-- A result that was handed to a session, by a steer or by a prompt. -/
structure Injection where
  taskId : String
  sessionId : String
  text : String
  deriving DecidableEq, Repr

/-- The other agent, the storage of this one, its operations, and the notifications. -/
structure DelegationState where
  remote : ServerState := {}
  pending : PendingTaskStore := fun _ => none
  threads : Nat → Option Thread := fun _ => none
  /-- What the other agent has pushed. -/
  sent : List Notification := []
  /-- What has been delivered, once or more often. -/
  delivered : List Notification := []
  injected : List Injection := []
  /-- The tasks that `start_task` has reported as started. -/
  started : List PendingTask := []
  /-- The tasks that the other agent has canceled for this one. -/
  cancelled : List String := []

/-- What `start_task` gets and draws. The depth check has passed with the depth that it is given. -/
structure StartArgs extends DelegateArgs where
  sessionId : String
  targetAgentName : String
  callbackUrl : String
  webhookToken : String
  token_ne : webhookToken ≠ ""
  depth : Nat

namespace StartArgs

def params (args : StartArgs) : MessageSendParams :=
  startTaskParams args.toDelegateArgs args.depth
    { url := args.callbackUrl, token := some args.webhookToken }

/-- The record that `start_task` saves. -/
def record (args : StartArgs) (task : Task) : PendingTask where
  taskId := task.id
  contextId := task.contextId
  targetAgentName := args.targetAgentName
  originalRequest := args.message
  state := task.status.state
  originSessionId := args.sessionId
  webhookToken := args.webhookToken

end StartArgs

def pushes (s : ServerState) (call : PromptCall) (outcome : Except String String) (now : Instant) :
    List Notification :=
  if call.blocking then []
  else (s.taskStore.getPushConfig call.taskId).toList.map fun config =>
    ⟨call.taskId, config.token, settledStatus call outcome now⟩

/-- What happens, each operation at the place that it is given. -/
inductive DelegationLabel
  | startTask (thread : Nat) (args : StartArgs) (taskNanoid sessionNanoid : String) (now : Instant)
  | checkTask (thread : Nat) (taskId : String)
  | cancelTask (thread : Nat) (taskId : String)
  | deliver (thread position : Nat)
  | advance (thread : Nat) (isStreaming : Option (String → Bool)) (now : Instant)
  | settle (taskId : String) (outcome : Except String String) (now : Instant)

namespace DelegationState

/-- An operation goes on as another one, or ends. -/
def become (st : DelegationState) (i : Nat) (thread : Option Thread) : DelegationState :=
  { st with threads := Function.update st.threads i thread }

/-- `start_task` up to the answer of the other agent. -/
def startTask (st : DelegationState) (i : Nat) (args : StartArgs)
    (taskNanoid sessionNanoid : String) (now : Instant) : DelegationState :=
  match handleMessage false st.remote args.params taskNanoid sessionNanoid now with
  | .error _ => st
  | .ok executed =>
    let st := { st with remote := afterMessage false st.remote (.ok executed) }
    match executed.result with
    | .returned (some task) => st.become i (some (.save (args.record task)))
    | _ => st

/-- `handleA2ACallback` up to the check of the token. -/
def deliver (st : DelegationState) (i : Nat) (n : Notification) : DelegationState :=
  let st := { st with delivered := st.delivered ++ [n] }
  match st.pending n.taskId with
  | none => st
  | some pending =>
    if SessionStore.truthy n.token = some pending.webhookToken then
      st.become i (some (.updateGet n.taskId n.status.state (.callback n.status pending)))
    else st

/-- A terminal result goes to the session of its task, and the record is deleted. -/
def inject (st : DelegationState) (taskId : String) (status : TaskStatus) (pending : PendingTask) :
    DelegationState :=
  { st with
    injected := st.injected ++ [⟨taskId, pending.originSessionId, resultText pending status⟩]
    pending := st.pending.delete taskId }

/-- The end of an operation. -/
def finish (st : DelegationState) (i : Nat) (taskId : String) : After → DelegationState
  | .check => st.become i none
  | .cancel => { st with pending := st.pending.delete taskId }.become i none
  | .callback status pending =>
    if isTerminalState status.state then (st.inject taskId status pending).become i none
    else st.become i none

/-- An operation that waits goes on. -/
def advance (st : DelegationState) (i : Nat) (isStreaming : Option (String → Bool))
    (now : Instant) :
    Thread → DelegationState
  | .save record =>
    { st with
      pending := st.pending.save record
      started := st.started ++ [record] }.become i none
  | .check taskId =>
    st.become i ((st.remote.taskStore.get taskId).map fun task =>
      .updateGet taskId task.status.state .check)
  | .cancel taskId =>
    st.become i (if cancelGoesOn st.remote taskId isStreaming then some (.cancelWrite taskId)
      else none)
  | .cancelWrite taskId =>
    { st with
      remote := finishCancel st.remote taskId now
      cancelled := st.cancelled ++ [taskId] }.become i (some (.updateGet taskId .canceled .cancel))
  | .updateGet taskId state after =>
    st.become i (some (match st.pending taskId with
      | some record => .updatePut { record with state := state } after
      | none => .finish taskId after))
  | .updatePut record after =>
    { st with pending := st.pending.save record }.become i (some (.finish record.taskId after))
  | .finish taskId after => st.finish i taskId after

/-- One step; an operation starts at a free place. -/
def step (st : DelegationState) : DelegationLabel → DelegationState
  | .startTask i args taskNanoid sessionNanoid now =>
    if st.threads i = none then st.startTask i args taskNanoid sessionNanoid now else st
  | .checkTask i taskId =>
    if st.threads i = none ∧ (st.pending taskId).isSome then st.become i (some (.check taskId))
    else st
  | .cancelTask i taskId =>
    if st.threads i = none ∧ (st.pending taskId).isSome then st.become i (some (.cancel taskId))
    else st
  | .deliver i position =>
    match st.threads i, st.sent[position]? with
    | none, some n => st.deliver i n
    | _, _ => st
  | .advance i isStreaming now =>
    match st.threads i with
    | some thread => st.advance i isStreaming now thread
    | none => st
  | .settle taskId outcome now =>
    match st.remote.promptOf taskId with
    | some call =>
      { st with
        remote := (A2A.settle st.remote call outcome now).1
        sent := st.sent ++ pushes st.remote call outcome now }
    | none => st

end DelegationState

end CrabbyKit.A2A
