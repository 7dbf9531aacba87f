import CrabbyKit.Core.Run

/-!
# The MCP manager

`McpManager` of `mcp-manager.ts`: the rows of `mcp_servers`, the map of connections, and any number
of calls that connect. A connection object belongs to the attempt that made it, and is written by
that attempt after it may have left the map. What the SDK, the network and the servers do is given.
-/

namespace CrabbyKit.Mcp

inductive AuthType
  | none
  | oauth
  | apiKey
  deriving DecidableEq, Repr

/-- The fields of `authData` that are read or written. -/
structure AuthData where
  redirectUrl : Option String := none
  clientId : Option String := none
  clientSecret : Option String := none
  accessToken : Option String := none
  refreshToken : Option String := none
  authUrl : Option String := none
  codeVerifier : Option String := none
  authorizationCode : Option String := none
  key : Option String := none
  deriving DecidableEq, Repr

structure McpServerConfig where
  name : String
  serverUrl : String
  authType : AuthType
  authData : Option AuthData := none
  /-- `options.transport`. -/
  transport : Option String := none
  deriving DecidableEq, Repr

inductive McpServerConnectionStatus
  | connected
  | disconnected
  | error
  deriving DecidableEq, Repr

/-- A row of `mcp_servers`. -/
structure McpServerRow where
  id : Nat
  config : McpServerConfig
  deriving DecidableEq, Repr

/-- A tool that calls its server through a client. -/
structure AgentTool where
  name : String
  client : Nat
  deriving DecidableEq, Repr

/-- A client, known by the attempt that opened it. -/
structure Client where
  serverId : Nat
  closed : Bool := false
  deriving DecidableEq, Repr

structure McpConnection where
  status : McpServerConnectionStatus := .disconnected
  tools : List AgentTool := []
  error : Option String := none
  client : Option Nat := none
  authUrl : Option String := none
  oauthProvider : Option Nat := none
  deriving DecidableEq, Repr

/-- What is neither absent nor empty. -/
def truthy (value : Option String) : Bool := value.any fun text => text ≠ ""

structure Transport where
  url : String
  sse : Bool
  authorization : Option String
  authProvider : Bool
  deriving DecidableEq, Repr

def createTransport (config : McpServerConfig) : Transport where
  url := config.serverUrl
  sse := config.transport = some "sse"
  authorization :=
    if config.authType = .apiKey ∧ truthy (config.authData.bind AuthData.key) then
      (config.authData.bind AuthData.key).map fun key => "Bearer " ++ key
    else none
  authProvider := config.authType = .oauth ∧ config.authData.isSome = true

/-- What the SDK gives an OAuth provider to save. -/
inductive ProviderCall
  | saveClientInformation (clientId : String) (clientSecret : Option String)
  | saveTokens (accessToken : String) (refreshToken : Option String)
  | redirectToAuthorization (authUrl : String)
  | saveCodeVerifier (verifier : String)
  deriving DecidableEq, Repr

namespace AuthData

/-- The saving methods of `createOAuthProvider`, on the object that the provider closes over. -/
def save (authData : AuthData) : ProviderCall → AuthData
  | .saveClientInformation clientId clientSecret =>
    { authData with clientId := some clientId, clientSecret }
  | .saveTokens accessToken refreshToken =>
    { authData with accessToken := some accessToken, refreshToken }
  | .redirectToAuthorization authUrl => { authData with authUrl := some authUrl }
  | .saveCodeVerifier verifier => { authData with codeVerifier := some verifier }

/-- `clientInformation` of the provider. -/
def clientInformation (authData : AuthData) : Option (String × Option String) :=
  if truthy authData.clientId then authData.clientId.map fun id => (id, authData.clientSecret)
  else none

/-- `tokens` of the provider. -/
def tokens (authData : AuthData) : Option (String × Option String) :=
  if truthy authData.accessToken then
    authData.accessToken.map fun token => (token, authData.refreshToken)
  else none

end AuthData

/-- Who connects: `restoreConnections` has the rows left that it read. -/
inductive Caller
  | register
  | restore (rest : List McpServerRow)
  | callback
  deriving DecidableEq, Repr

/-- What a connect awaits: `loadMcpSdk`, `client.connect`, or `client.listTools` for the connection
that `discoverTools` found. -/
inductive Phase
  | loading
  | connecting (transport : Transport)
  | listing (conn : Nat)
  deriving DecidableEq, Repr

/-- A connect in progress; its connection object is known by the attempt. -/
structure Task where
  attempt : Nat
  serverId : Nat
  config : McpServerConfig
  phase : Phase
  caller : Caller
  deriving DecidableEq, Repr

/-- What an attempt came to. -/
inductive Result
  | failed (message : String)
  | connected (tools : List AgentTool)
  deriving DecidableEq, Repr

/-- What an await brings. -/
structure HostAnswer where
  /-- The awaited call is rejected. -/
  failed : Bool := false
  message : String := "Connection failed"
  /-- What the SDK saves while it connects. -/
  calls : List ProviderCall := []
  /-- The tools that the server lists. -/
  tools : List String := []
  deriving DecidableEq, Repr

/-- The manager with its rows, its connections in the order of the map, the objects that attempts
made, and the calls in progress. `latest` is the attempt that was last begun for a server in this
life, `result` what an attempt came to, and `calls` what the SDK saved in it. -/
structure McpManager where
  rows : List McpServerRow := []
  registered : Nat := 0
  connections : List (Nat × Nat) := []
  conns : Nat → McpConnection := fun _ => {}
  clients : Nat → Option Client := fun _ => none
  authData : Nat → Option AuthData := fun _ => none
  attempts : Nat := 0
  tasks : Nat → Option Task := fun _ => none
  started : Nat := 0
  latest : Nat → Option Nat := fun _ => none
  result : Nat → Option Result := fun _ => none
  calls : Nat → List ProviderCall := fun _ => []

namespace McpManager

variable (s : McpManager)

/-- `this.connections.get(serverId)`. -/
def get (serverId : Nat) : Option Nat :=
  (s.connections.find? fun entry => entry.1 = serverId).map Prod.snd

def getTools : List AgentTool :=
  s.connections.flatMap fun entry =>
    if (s.conns entry.2).status = .connected then (s.conns entry.2).tools else []

/-- `client.close()`. -/
def close (client : Nat) : McpManager :=
  { s with
    clients := Function.update s.clients client
      ((s.clients client).map fun c => { c with closed := true }) }

def closeClient (conn : McpConnection) : McpManager :=
  match conn.client with
  | some client => s.close client
  | none => s

def disconnect (serverId : Nat) : McpManager :=
  let closed := match s.get serverId with
    | some conn => s.closeClient (s.conns conn)
    | none => s
  { closed with connections := closed.connections.filter fun entry => entry.1 ≠ serverId }

/-- `connect` up to its first await. -/
def connect (i serverId : Nat) (config : McpServerConfig) (caller : Caller) : McpManager :=
  let s := s.disconnect serverId
  { s with
    connections := s.connections ++ [(serverId, s.attempts)]
    conns := Function.update s.conns s.attempts {}
    authData := Function.update s.authData s.attempts config.authData
    attempts := s.attempts + 1
    tasks := Function.update s.tasks i
      (some ⟨s.attempts, serverId, config, .loading, caller⟩)
    latest := Function.update s.latest serverId (some s.attempts) }

def finish (i : Nat) : McpManager := { s with tasks := Function.update s.tasks i none }

/-- `restoreConnections` connects the next row. -/
def restoreNext (i : Nat) : List McpServerRow → McpManager
  | [] => s.finish i
  | row :: rest => s.connect i row.id row.config (.restore rest)

/-- The caller of a connect goes on; a connect throws nothing. -/
def settle (i : Nat) : Caller → McpManager
  | .restore rest => s.restoreNext i rest
  | _ => s.finish i

/-- The catch of `connect`. -/
def fail (i : Nat) (task : Task) (message : String) : McpManager :=
  let conn := s.conns task.attempt
  let authData := s.authData task.attempt
  let authUrl :=
    if task.config.authType = .oauth ∧ !truthy (authData.bind AuthData.authorizationCode) then
      authData.bind AuthData.authUrl
    else conn.authUrl
  settle { s with
    conns := Function.update s.conns task.attempt
      { conn with status := .error, error := some message, authUrl }
    result := Function.update s.result task.attempt (some (.failed message)) } i task.caller

def saveAll (attempt : Nat) (transport : Transport) (calls : List ProviderCall) : McpManager :=
  if transport.authProvider then
    { s with
      authData := Function.update s.authData attempt
        ((s.authData attempt).map fun authData => calls.foldl AuthData.save authData)
      calls := Function.update s.calls attempt calls }
  else s

/-- The client is connected; `discoverTools` looks the connection up. -/
def connected (i : Nat) (task : Task) : McpManager :=
  let s := { s with
    clients := Function.update s.clients task.attempt (some { serverId := task.serverId })
    conns := Function.update s.conns task.attempt
      { s.conns task.attempt with client := some task.attempt, status := .connected } }
  match s.get task.serverId with
  | some conn =>
    { s with tasks := Function.update s.tasks i (some { task with phase := .listing conn }) }
  | none =>
    settle { s with result := Function.update s.result task.attempt (some (.connected [])) } i
      task.caller

/-- `mcpToolToAgentTool`. -/
def agentTool (task : Task) (tool : String) : AgentTool where
  name := "mcp_" ++ task.config.name ++ "_" ++ tool
  client := task.attempt

/-- The tools are listed, and stored in the connection that was looked up. -/
def listed (i : Nat) (task : Task) (conn : Nat) (names : List String) : McpManager :=
  let tools := names.map (agentTool task)
  settle { s with
    conns := Function.update s.conns conn { s.conns conn with tools }
    result := Function.update s.result task.attempt (some (.connected tools)) } i task.caller

/-- A connect from one await to the next. -/
def advance (i : Nat) (answer : HostAnswer) (task : Task) : McpManager :=
  match task.phase with
  | .loading =>
    if answer.failed then s.fail i task answer.message
    else
      { s with
        tasks := Function.update s.tasks i
          (some { task with phase := .connecting (createTransport task.config) }) }
  | .connecting transport =>
    let s := s.saveAll task.attempt transport answer.calls
    if answer.failed then s.fail i task answer.message else s.connected i task
  | .listing conn =>
    if answer.failed then s.fail i task answer.message else s.listed i task conn answer.tools

def register (config : McpServerConfig) : McpManager :=
  connect { s with
    rows := s.rows ++ [⟨s.registered, config⟩]
    registered := s.registered + 1
    started := s.started + 1 } s.started s.registered config .register

def remove (serverId : Nat) : McpManager :=
  let s := s.disconnect serverId
  { s with rows := s.rows.filter fun row => row.id ≠ serverId }

def restoreConnections : McpManager :=
  restoreNext { s with started := s.started + 1 } s.started s.rows

/-- `handleOAuthCallback` up to its first await, or what it throws. -/
def handleOAuthCallback (serverId : Nat) (authorizationCode : String) :
    Except String McpManager :=
  match (s.get serverId).bind fun conn => (s.conns conn).oauthProvider with
  | none => .error ("No OAuth provider for server " ++ toString serverId)
  | some _ =>
    match s.rows.find? fun row => row.id = serverId with
    | none => .error ("Server not found: " ++ toString serverId)
    | some row =>
      let authData : AuthData :=
        { row.config.authData.getD {} with authorizationCode := some authorizationCode }
      let stored := { row.config with authData := some authData }
      .ok (connect { s with
        rows := s.rows.map fun r => if r.id = serverId then { r with config := stored } else r
        started := s.started + 1 } s.started serverId { stored with authType := .oauth } .callback)

end McpManager

/-- What happens to the manager. -/
inductive Label
  | register (config : McpServerConfig)
  | remove (serverId : Nat)
  | restoreConnections
  | handleOAuthCallback (serverId : Nat) (authorizationCode : String)
  | advance (i : Nat) (answer : HostAnswer)
  /-- The isolate is lost; what is stored stays. -/
  | hibernate
  deriving DecidableEq, Repr

namespace McpManager

def step (s : McpManager) : Label → McpManager
  | .register config => s.register config
  | .remove serverId => s.remove serverId
  | .restoreConnections => s.restoreConnections
  | .handleOAuthCallback serverId authorizationCode =>
    match s.handleOAuthCallback serverId authorizationCode with
    | .ok s' => s'
    | .error _ => s
  | .advance i answer =>
    match s.tasks i with
    | some task => s.advance i answer task
    | none => s
  | .hibernate =>
    { s with
      connections := []
      conns := fun _ => {}
      clients := fun _ => none
      authData := fun _ => none
      tasks := fun _ => none
      latest := fun _ => none }

end McpManager

end CrabbyKit.Mcp
