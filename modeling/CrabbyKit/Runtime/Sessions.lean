import CrabbyKit.Runtime.Interleaving
import CrabbyKit.Runtime.Turn

/-!
# Sessions, connections and queued prompts

The handlers of `agent-runtime.ts` that create, switch, delete and clear sessions, with the
prompts, queue actions and agent runs of all sessions, cut at their awaits. What is sent to
clients is left out. A handler that throws keeps what it wrote before.
-/

namespace CrabbyKit.Sessions

/-- A connection with the session it shows. After hibernation it is asleep, known by its
attachment only, until its socket speaks. -/
structure Connection where
  id : String
  sessionId : String
  awake : Bool := true
  deriving DecidableEq, Repr

structure PromptHandler where
  sessionId : String
  text : String
  stage : Stage
  deriving DecidableEq, Repr

structure SessionRun where
  agent : Nat
  sessionId : String
  aborted : Bool := false
  deriving DecidableEq, Repr

/-- The runtime. The list `errors` is kept for the record only. -/
structure AgentRuntime where
  sessionStore : SessionStore := {}
  queueStore : QueueStore := {}
  connections : List Connection := []
  hasBundle : Bool := false
  sessionAgents : List (String × Nat) := []
  agents : Nat := 0
  runs : List SessionRun := []
  handlers : List PromptHandler := []
  errors : List String := []
  deriving DecidableEq, Repr

/-- The ids that `nanoid()` yields during a step, by the table they are for, and the clock. -/
structure Draws where
  sessionId : String
  entryId : String
  queueId : String
  now : Instant
  deriving DecidableEq, Repr

/-- A message of a client; `clear` is the command of that name, and the last three are actions
of the queue. -/
inductive ClientMessage
  | prompt (sessionId text : String)
  | steer (sessionId text : String)
  | abort (sessionId : String)
  | switchSession (sessionId : String)
  | newSession (name : Option String)
  | deleteSession (sessionId : String)
  | clear (sessionId : String)
  | queueMessage (sessionId text : String)
  | queueDelete (sessionId queueId : String)
  | queueSteer (sessionId queueId : String)
  deriving DecidableEq, Repr

/-- What may happen next. A run appends the replies and tool results of its agent. -/
inductive RuntimeEvent
  | opened (connection : String)
  | closed (connection : String)
  | message (connection : String) (msg : ClientMessage)
  | bundleReturned (handler : PromptHandler) (handled : Bool)
  | agentCreated (handler : PromptHandler) (outcome : Except String Unit)
  | resumed (handler : PromptHandler)
  | agentAppended (run : SessionRun) (data : EntryData)
  | agentEnded (run : SessionRun)
  | hibernated

namespace AgentRuntime

variable (d : Draws)

def fail (e : String) (s : AgentRuntime) : AgentRuntime := { s with errors := s.errors ++ [e] }

def failStore (e : StoreError) (s : AgentRuntime) : AgentRuntime := s.fail (e.message.getD "")

/-- `connection.setSessionId(sessionId)`. -/
def setSessionId (connection sessionId : String) (s : AgentRuntime) : AgentRuntime :=
  { s with connections := s.connections.map fun c =>
      if c.id = connection then { c with sessionId := sessionId } else c }

/-- `transport.getConnectionsForSession(sessionId)`: sleeping connections are not tracked. -/
def getConnectionsForSession (sessionId : String) (s : AgentRuntime) : List Connection :=
  s.connections.filter fun c => c.awake ∧ c.sessionId = sessionId

def streams (agent : Nat) (s : AgentRuntime) : Bool := s.runs.any fun run => run.agent = agent

/-- `sessionAgents.get(sessionId)?.state.isStreaming`. -/
def isStreaming (sessionId : String) (s : AgentRuntime) : Bool :=
  (s.sessionAgents.lookup sessionId).any fun agent => s.streams agent

/-- `sessionAgents.get(sessionId)?.abort()`. -/
def abort (sessionId : String) (s : AgentRuntime) : AgentRuntime :=
  match s.sessionAgents.lookup sessionId with
  | none => s
  | some agent =>
    { s with runs := s.runs.map fun run =>
        if run.agent = agent then { run with aborted := true } else run }

/-- Queue a prompt. -/
def enqueue (sessionId text : String) (s : AgentRuntime) : AgentRuntime :=
  match s.queueStore.enqueue sessionId text d.queueId d.now with
  | .ok queueStore => { s with queueStore := queueStore }
  | .error e => s.fail e

def suspend (h : PromptHandler) (s : AgentRuntime) : AgentRuntime :=
  { s with handlers := s.handlers ++ [h] }

def finish (h : PromptHandler) (s : AgentRuntime) : AgentRuntime :=
  { s with handlers := s.handlers.erase h }

/-- `handlePrompt` from its streaming check on. -/
def checkStreaming (sessionId text : String) (s : AgentRuntime) : AgentRuntime :=
  if s.isStreaming sessionId then s.enqueue d sessionId text
  else s.suspend ⟨sessionId, text, .creating⟩

def nameSession (sessionId text : String) (s : AgentRuntime) : AgentRuntime :=
  match s.sessionStore.get sessionId with
  | some session =>
    if session.name = "" then
      { s with sessionStore :=
          s.sessionStore.rename sessionId (Runtime.SessionRuntime.sessionName text) d.now }
    else s
  | none => s

/-- `handlePrompt` up to its first await. -/
def handlePrompt (sessionId text : String) (s : AgentRuntime) : AgentRuntime :=
  let s := s.nameSession d sessionId text
  match s.sessionStore.appendEntry sessionId (Runtime.SessionRuntime.userEntryData text d.now)
      d.entryId d.now with
  | .error e => s.failStore e
  | .ok (sessionStore, _) =>
    let s := { s with sessionStore := sessionStore }
    if s.hasBundle then s.suspend ⟨sessionId, text, .dispatching⟩
    else s.checkStreaming d sessionId text

def handleSteer (sessionId text : String) (s : AgentRuntime) : AgentRuntime :=
  match s.sessionStore.appendEntry sessionId (Runtime.SessionRuntime.userEntryData text d.now)
      d.entryId d.now with
  | .error e => s.failStore e
  | .ok (sessionStore, _) => { s with sessionStore := sessionStore }

def newSession (connection : String) (name : Option String) (s : AgentRuntime) : AgentRuntime :=
  match s.sessionStore.create { name := name } d.sessionId d.now with
  | .error e => s.failStore e
  | .ok (sessionStore, session) =>
    { s with sessionStore := sessionStore }.setSessionId connection session.id

/-- Delete a session, if it is not the only one, and move its connections to another. -/
def deleteSession (sessionId : String) (s : AgentRuntime) : AgentRuntime :=
  if s.sessionStore.list.length ≤ 1 then s
  else
    let s := s.abort sessionId
    let affectedConnections := s.getConnectionsForSession sessionId
    let s := { s with
      queueStore := s.queueStore.deleteAll sessionId
      sessionStore := s.sessionStore.delete sessionId }
    match s.sessionStore.list with
    | [] => s
    | target :: _ =>
      affectedConnections.foldl (fun s connection => s.setSessionId connection.id target.id) s

/-- `handleClearCommand`: a new session for the connection, and the old one goes. -/
def handleClearCommand (connection sessionId : String) (s : AgentRuntime) : AgentRuntime :=
  let s := s.abort sessionId
  match s.sessionStore.create {} d.sessionId d.now with
  | .error e => s.failStore e
  | .ok (sessionStore, session) =>
    let s := { s with sessionStore := sessionStore }.setSessionId connection session.id
    if 1 < s.sessionStore.list.length then
      { s with sessionStore := s.sessionStore.delete sessionId }
    else s

/-- The queue action `message`: queue behind a busy agent, or handle the prompt. -/
def queueMessage (sessionId text : String) (s : AgentRuntime) : AgentRuntime :=
  if s.isStreaming sessionId then s.enqueue d sessionId text else s.handlePrompt d sessionId text

/-- The queue action `steer`. -/
def queueSteer (sessionId queueId : String) (s : AgentRuntime) : AgentRuntime :=
  match s.queueStore.get queueId with
  | none => s
  | some item =>
    { s with queueStore := s.queueStore.delete queueId }.handleSteer d sessionId item.text

/-- `handleClientMessage`, up to its first await. -/
def handleClientMessage (connection : String) (s : AgentRuntime) : ClientMessage → AgentRuntime
  | .prompt sessionId text => s.handlePrompt d sessionId text
  | .steer sessionId text => s.handleSteer d sessionId text
  | .abort sessionId => s.abort sessionId
  | .switchSession sessionId => s.setSessionId connection sessionId
  | .newSession name => s.newSession d connection name
  | .deleteSession sessionId => s.deleteSession sessionId
  | .clear sessionId => s.handleClearCommand d connection sessionId
  | .queueMessage sessionId text => s.queueMessage d sessionId text
  | .queueDelete _ queueId => { s with queueStore := s.queueStore.delete queueId }
  | .queueSteer sessionId queueId => s.queueSteer d sessionId queueId

/-- A socket speaks: its connection is tracked again. -/
def wake (connection : String) (s : AgentRuntime) : AgentRuntime :=
  { s with connections := s.connections.map fun c =>
      if c.id = connection then { c with awake := true } else c }

def connected (connection : String) (s : AgentRuntime) : Bool :=
  s.connections.any fun c => c.id = connection

/-- `handleTransportOpen`, for a connection that shows no session yet. -/
def handleTransportOpen (connection : String) (s : AgentRuntime) : AgentRuntime :=
  let s := { s with connections := s.connections ++ [Connection.mk connection "" true] }
  match s.sessionStore.list with
  | session :: _ => s.setSessionId connection session.id
  | [] =>
    match s.sessionStore.create {} d.sessionId d.now with
    | .error e => s.failStore e
    | .ok (sessionStore, session) =>
      { s with sessionStore := sessionStore }.setSessionId connection session.id

def bundleReturned (h : PromptHandler) (handled : Bool) (s : AgentRuntime) : AgentRuntime :=
  if h ∈ s.handlers ∧ h.stage = .dispatching then
    let s := s.finish h
    if handled then s else s.checkStreaming d h.sessionId h.text
  else s

/-- `ensureAgent` of a handler ends: it registers a new agent, or throws. -/
def agentCreated (h : PromptHandler) (outcome : Except String Unit) (s : AgentRuntime) :
    AgentRuntime :=
  if h ∈ s.handlers ∧ h.stage = .creating then
    let s := s.finish h
    match outcome with
    | .error e => s.fail e
    | .ok () =>
      { s.suspend { h with stage := .created } with
        sessionAgents := (h.sessionId, s.agents) :: s.sessionAgents.filter (·.1 ≠ h.sessionId)
        agents := s.agents + 1 }
  else s

/-- A handler goes on after `ensureAgent`: it prompts the agent that is registered then. -/
def resumed (h : PromptHandler) (s : AgentRuntime) : AgentRuntime :=
  if h ∈ s.handlers ∧ h.stage = .created then
    let s := s.finish h
    match s.sessionAgents.lookup h.sessionId with
    | none => s.fail "Agent failed to initialize"
    | some agent =>
      if s.streams agent then s.fail "Agent is already processing a prompt."
      else { s with runs := s.runs ++ [SessionRun.mk agent h.sessionId false] }
  else s

/-- Handle the oldest queued prompt, if there is one. -/
def processQueue (sessionId : String) (s : AgentRuntime) : AgentRuntime :=
  match s.queueStore.dequeue sessionId with
  | (_, none) => s
  | (queueStore, some next) =>
    { s with queueStore := queueStore }.handlePrompt d sessionId next.text

/-- `agent_end` of a run: the registered agent goes, whichever it is, and the queue is
processed. -/
def agentEnded (run : SessionRun) (s : AgentRuntime) : AgentRuntime :=
  if run ∈ s.runs then
    { s with
      runs := s.runs.erase run
      sessionAgents := s.sessionAgents.filter (·.1 ≠ run.sessionId) }.processQueue d run.sessionId
  else s

def agentAppended (run : SessionRun) (data : EntryData) (s : AgentRuntime) : AgentRuntime :=
  if run ∈ s.runs then
    match s.sessionStore.appendEntry run.sessionId data d.entryId d.now with
    | .error e => (s.failStore e).agentEnded d run
    | .ok (sessionStore, _) => { s with sessionStore := sessionStore }
  else s

/-- Hibernation: what only memory holds is gone. -/
def hibernate (s : AgentRuntime) : AgentRuntime :=
  { s with
    connections := s.connections.map fun c => { c with awake := false }
    sessionAgents := []
    runs := []
    handlers := [] }

/-- The state after an event. A message of an unknown connection is dropped. -/
def step (s : AgentRuntime) (e : RuntimeEvent × Draws) : AgentRuntime :=
  match e.1 with
  | .opened connection => s.handleTransportOpen e.2 connection
  | .closed connection => { s with connections := s.connections.filter (·.id ≠ connection) }
  | .message connection msg =>
    if s.connected connection then (s.wake connection).handleClientMessage e.2 connection msg
    else s
  | .bundleReturned h handled => s.bundleReturned e.2 h handled
  | .agentCreated h outcome => s.agentCreated h outcome
  | .resumed h => s.resumed h
  | .agentAppended run data => s.agentAppended e.2 run data
  | .agentEnded run => s.agentEnded e.2 run
  | .hibernated => s.hibernate

end AgentRuntime

end CrabbyKit.Sessions
