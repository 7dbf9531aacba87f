import CrabbyKit.AgentCore.Loop
import CrabbyKit.Core.JsonString
import CrabbyKit.Session.Context

/-!
# One session of the agent runtime

`handlePrompt`, `handleAgentPrompt`, `handleSteer`, `ensureAgent` and
`handleAgentEvent` of `agent-runtime.ts` with `Agent` of `agent-core`, for one session
and without `beforeInference` hooks or a bundle. What the outside world does is the
parameter `Environment`; steering messages and aborts may arrive wherever something is
awaited.
-/

namespace CrabbyKit.Runtime

open AgentCore SessionStore

/-- What may reach the session while its runtime awaits something. -/
inductive Input
  | steer (text : String)
  | abort
  deriving DecidableEq, Repr

/-- How many queued steering messages one poll takes. -/
inductive SteeringMode
  | oneAtATime | all
  deriving DecidableEq, Repr

/-- The outside world of a session: drawn ids, clock, arrivals at each await, the answers
of the model to its calls, the tools and their hooks. -/
structure Environment where
  nanoid : Nat → String
  clock : Nat → Instant
  arrivals : Nat → List Input
  answer : Nat → List AgentMessage → Except String Response
  steeringMode : SteeringMode
  findTool : String → Option String
  toolNotFoundError : String → String
  validateToolArguments : String → ToolCall → Except String String
  beforeToolCall : Nat → ToolCall → Except String (Option BeforeToolCallResult)
  execute : Nat → String → String → ToolCall → Except String AgentToolResult
  afterToolCall : Nat → ToolCall → AgentToolResult → Bool → Option AfterToolCallResult
  toolExecution : ToolExecutionMode

/-- The state of an `Agent` that the runtime reads. -/
structure Agent where
  isStreaming : Bool := false
  messages : List AgentMessage
  steeringQueue : List AgentMessage := []
  followUpQueue : List AgentMessage := []
  aborted : Bool := false
  deriving DecidableEq, Repr

/-- One session: the store, the ids drawn, the awaits passed, the registered agent, the
queued prompts, and the message lists given to the model. -/
structure SessionRuntime where
  store : SessionStore
  draws : Nat := 0
  ticks : Nat := 0
  agent : Option Agent := none
  queue : List String := []
  modelCalls : List (List AgentMessage) := []

namespace SessionRuntime

variable (env : Environment) (sessionId : String)

/-- `Date.now()`. -/
def now (r : SessionRuntime) : Instant := env.clock r.ticks

/-- `sessionStore.appendEntry`; an append that throws changes nothing. -/
def append (data : EntryData) (r : SessionRuntime) : SessionRuntime :=
  { r with
    store := r.store.after
      ((r.store.appendEntry sessionId data (env.nanoid r.draws) (r.now env)).map Prod.fst)
    draws := r.draws + 1 }

def userEntryData (text : String) (timestamp : Instant) : EntryData :=
  .message { role := .user, content := .plain text, timestamp := some timestamp }

/-- `agent?.state.isStreaming`. -/
def isStreaming (r : SessionRuntime) : Bool := r.agent.any Agent.isStreaming

def updateAgent (f : Agent → Agent) (r : SessionRuntime) : SessionRuntime :=
  { r with agent := r.agent.map f }

/-- Persist a steering message and hand it to a streaming agent. -/
def handleSteer (text : String) (r : SessionRuntime) : SessionRuntime :=
  let timestamp := r.now env
  let r := r.append env sessionId (userEntryData text timestamp)
  if r.isStreaming then
    r.updateAgent fun a =>
      { a with
        steeringQueue :=
          a.steeringQueue ++ [{ role := .user, content := .plain text, timestamp := timestamp }] }
  else r

/-- One arrival. -/
def receive (r : SessionRuntime) : Input → SessionRuntime
  | .steer text => r.handleSteer env sessionId text
  | .abort => r.updateAgent fun a => { a with aborted := true }

/-- One await: what arrives meanwhile is handled. -/
def await (r : SessionRuntime) : SessionRuntime :=
  let r' := (env.arrivals r.ticks).foldl (receive env sessionId) r
  { r' with ticks := r.ticks + 1 }

def costEntryData (payload : String) : EntryData := .custom "cost" payload

/-- Persist what an event of the loop reports. -/
def handleAgentEvent (event : AgentEvent) (r : SessionRuntime) : SessionRuntime :=
  match event with
  | .messageEnd message =>
    if message.role = .assistant then
      let r := r.append env sessionId (.message
        { role := .assistant, content := message.content, timestamp := some (r.now env) })
      match message.cost with
      | some payload => r.append env sessionId (costEntryData payload)
      | none => r
    else r
  | .toolExecutionEnd call result isError =>
    r.append env sessionId (.message
      { role := .toolResult
        content := .blocks result.content
        details := some result.details
        toolCallId := some call.id
        toolName := some call.name
        isError := some isError
        timestamp := some (r.now env) })
  | _ => r

/-- `Agent._processLoopEvent` on the fields kept here. -/
def agentEvent (event : AgentEvent) (a : Agent) : Agent :=
  match event with
  | .messageEnd message => { a with messages := a.messages ++ [message] }
  | .agentEnd _ => { a with isStreaming := false }
  | _ => a

/-- The runtime's listener: persist, and unregister the agent at the end of its run. -/
def notify (event : AgentEvent) (r : SessionRuntime) : SessionRuntime :=
  let r := r.handleAgentEvent env sessionId event
  match event with
  | .agentEnd _ => { r with agent := none }
  | _ => r

/-- `await emit(event)`. -/
def emit (event : AgentEvent) (r : SessionRuntime) : SessionRuntime :=
  ((r.updateAgent (agentEvent event)).notify env sessionId event).await env sessionId

def dequeueSteering (queue : List AgentMessage) : List AgentMessage × List AgentMessage :=
  match env.steeringMode with
  | .oneAtATime => (queue.take 1, queue.drop 1)
  | .all => (queue, [])

def getSteeringMessages (r : SessionRuntime) : List AgentMessage × SessionRuntime :=
  match r.agent with
  | none => ([], r.await env sessionId)
  | some a =>
    let (messages, queue) := dequeueSteering env a.steeringQueue
    (messages, ({ r with agent := some { a with steeringQueue := queue } }).await env sessionId)

def getFollowUpMessages (r : SessionRuntime) : List AgentMessage × SessionRuntime :=
  match r.agent with
  | none => ([], r.await env sessionId)
  | some a =>
    (a.followUpQueue.take 1,
      ({ r with agent := some { a with followUpQueue := a.followUpQueue.drop 1 } }).await env
        sessionId)

def host : LoopHost SessionRuntime String where
  emit := emit env sessionId
  transformContext := fun messages r => (messages, r.await env sessionId)
  convertToLlm := fun messages =>
    messages.filter fun m => m.role = .user ∨ m.role = .assistant ∨ m.role = .toolResult
  streamFn := fun messages r =>
    (env.answer r.modelCalls.length messages,
      ({ r with modelCalls := r.modelCalls ++ [messages] }).await env sessionId)
  aborted := fun r => r.agent.any Agent.aborted
  sleep := fun _ r => r.await env sessionId
  getSteeringMessages := getSteeringMessages env sessionId
  getFollowUpMessages := getFollowUpMessages env sessionId
  findTool := env.findTool
  toolNotFoundError := env.toolNotFoundError
  validateToolArguments := env.validateToolArguments
  beforeToolCall := fun _ call _ r => (env.beforeToolCall r.ticks call, r.await env sessionId)
  execute := fun tool args call r => (env.execute r.ticks tool args call, r.await env sessionId)
  afterToolCall := fun call result isError r =>
    (env.afterToolCall r.ticks call result isError, r.await env sessionId)
  now := fun r => r.now env
  toolExecution := env.toolExecution
  maxIterations := 100
  maxStreamRetries := 2
  baseRetryDelayMs := 1000

/-- The message `Agent.prompt` makes of a text. -/
def promptMessage (text : String) (timestamp : Instant) : AgentMessage :=
  { role := .user, content := .blocks [.text text], timestamp := timestamp }

/-- `ensureAgent`: an agent with the rebuilt context is registered, after its awaits. -/
def ensureAgent (r : SessionRuntime) : Except StoreError SessionRuntime := do
  let r := r.await env sessionId
  let messages ← r.store.buildContext sessionId (r.now env)
  return { r with agent := some { messages := messages } }

/-- `agent.prompt(text)` of a registered idle agent: the loop's final state. A loop that
throws ends with the agent's own `agent_end`. -/
def prompt (a : Agent) (text : String) (r : SessionRuntime) : LoopState SessionRuntime :=
  let r := { r with agent := some { a with isStreaming := true, aborted := false } }
  let (s, ended) :=
    runAgentLoop (host env sessionId) [promptMessage text (r.now env)] a.messages r
  match ended with
  | .returned => s
  | .threw _ => { s with host := s.host.notify env sessionId (.agentEnd []) }

/-- What became of a prompt. A run that took place ends with the context the loop held and
the message lists it gave to the model. -/
inductive PromptOutcome
  | ran (runtime : SessionRuntime) (context : List AgentMessage)
      (modelCalls : List (List AgentMessage))
  | queued (runtime : SessionRuntime)
  | threw (runtime : SessionRuntime)

/-- The end of both prompt entries: create the agent, run it. -/
def startRun (text : String) (r : SessionRuntime) : PromptOutcome :=
  match r.ensureAgent env sessionId with
  | .error _ => .threw r
  | .ok ready =>
    match ready.agent with
    | none => .threw ready
    | some a =>
      let s := prompt env sessionId a text ready
      .ran s.host s.messages (s.host.modelCalls.drop ready.modelCalls.length)

def maxSessionNameLength : Nat := 50

/-- The name an unnamed session takes from its first prompt. -/
def sessionName (text : String) : String :=
  if maxSessionNameLength < textLength text then sliceText maxSessionNameLength text ++ "..."
  else text

def nameSession (text : String) (r : SessionRuntime) : SessionRuntime :=
  match r.store.get sessionId with
  | some session =>
    if session.name = "" then
      { r with store := r.store.rename sessionId (sessionName text) (r.now env) }
    else r
  | none => r

/-- A prompt of a client: persist it, then queue it behind a running agent or run it. -/
def handlePrompt (text : String) (r : SessionRuntime) : PromptOutcome :=
  let r := r.nameSession env sessionId text
  let r := r.append env sessionId (userEntryData text (r.now env))
  if r.isStreaming then .queued { r with queue := r.queue ++ [text] }
  else r.startRun env sessionId text

/-- Options of `handleAgentPrompt`. -/
structure AgentPromptOpts where
  text : String
  sessionId : Option String := none
  sessionName : Option String := none
  source : Option String := none
  sender : Option String := none
  deriving DecidableEq, Repr

/-- The options a prompt creates its session with: a routed session keeps its sender. -/
def createOpts (opts : AgentPromptOpts) : CreateOpts :=
  match truthy opts.source, truthy opts.sender with
  | some source, some sender =>
    { name := some (opts.sessionName.getD "Agent message")
      source := some source
      sender := some sender }
  | _, _ =>
    { name := some (opts.sessionName.getD "Agent message")
      source := some (opts.source.getD "agent") }

def existingSession (opts : AgentPromptOpts) (st : SessionStore) : Option String :=
  match truthy opts.sessionId with
  | some id => some id
  | none =>
    match truthy opts.source, truthy opts.sender with
    | some source, some sender => (st.findBySourceAndSender source sender).map Session.id
    | _, _ => none

def resolveSession (opts : AgentPromptOpts) (r : SessionRuntime) :
    Except StoreError (SessionRuntime × String) :=
  match existingSession opts r.store with
  | some id => .ok (r, id)
  | none => do
    let (store, session) ← r.store.create (createOpts opts) (env.nanoid r.draws) (r.now env)
    return ({ r with store := store, draws := r.draws + 1 }, session.id)

/-- A prompt of another agent or a schedule to its resolved session: refused while the
agent is busy. -/
def handleAgentPrompt (text : String) (r : SessionRuntime) : PromptOutcome :=
  if r.isStreaming then .threw r
  else (r.append env sessionId (userEntryData text (r.now env))).startRun env sessionId text

end SessionRuntime

end CrabbyKit.Runtime
