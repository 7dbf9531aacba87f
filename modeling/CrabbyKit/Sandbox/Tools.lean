import CrabbyKit.Sandbox.Sessions
import CrabbyKit.Schedule.Runtime

/-!
# The tools of the sandbox

`elevate`, `de_elevate`, `exec`, `process`, the connect hook and the de-elevation timer of one agent
over its storage, its schedules and the container. Every call that is awaited is a step of its own,
so that any number of them interleave. What the tools print and broadcast is left out.
-/

namespace CrabbyKit.Sandbox

def timerId : String := "sandbox:de-elevate"

/-- A delay in milliseconds; absent when the time it leads to is no date. -/
abbrev Delay := Option Int

structure SandboxConfig where
  idleTimeout : Delay := some 180000
  activeTimeout : Delay := some 900000

structure SandboxProvider where
  processStop : Bool := false
  processList : Bool := false
  execStream : Bool := false
  sessionExecStream : Bool := false
  sessionStart : Bool := false
  sessionPoll : Bool := false
  sessionWrite : Bool := false
  sessionKill : Bool := false
  sessionRemove : Bool := false
  sessionList : Bool := false
  sessionLog : Bool := false

structure SandboxCapabilityOptions where
  provider : SandboxProvider := {}
  config : SandboxConfig := {}

/-- What `exec` and `process` send to the container. -/
inductive Command
  | exec (command : String)
  | execStream (command : String)
  | sessionExecStream (command : String)
  | sessionStart (command : String)
  | sessionPoll (sessionId : String)
  | sessionLog (sessionId : String)
  | sessionWrite (sessionId input : String)
  | sessionKill (sessionId : String)
  | sessionRemove (sessionId : String)
  | sessionList
  | processList
  deriving DecidableEq, Repr

/-- The actions of `process` on one session. -/
inductive Action
  | poll
  | log
  | write
  | kill
  | remove
  deriving DecidableEq, Repr

def SandboxProvider.supports (provider : SandboxProvider) : Action → Bool
  | .poll => provider.sessionPoll
  | .log => provider.sessionLog
  | .write => provider.sessionWrite
  | .kill => provider.sessionKill
  | .remove => provider.sessionRemove

def Action.command (sessionId input : String) : Action → Command
  | .poll => .sessionPoll sessionId
  | .log => .sessionLog sessionId
  | .write => .sessionWrite sessionId input
  | .kill => .sessionKill sessionId
  | .remove => .sessionRemove sessionId

/-- A call of `exec` or `process`. -/
inductive Tool
  | exec (command : String) (background onUpdate : Bool)
  | list
  | process (action : Action) (sessionId input : String)
  deriving DecidableEq, Repr

/-- What an elevation is for. -/
inductive Purpose
  | elevate (reason : String) (timeout : Option Delay)
  | use (tool : Tool)
  deriving DecidableEq, Repr

/-- A call of `elevate`, or of `checkElevation` by a tool, in a chat session. -/
structure Caller where
  chat : String
  purpose : Purpose
  deriving DecidableEq, Repr

def Caller.reason (caller : Caller) : String :=
  match caller.purpose with
  | .elevate reason _ => reason
  | .use _ => "auto-restarted after container death"

/-- Which saved credentials the container gets. -/
inductive CredentialType
  | file
  | env
  deriving DecidableEq, Repr

/-- The awaits of `injectCredentials`. -/
inductive Injection
  | mkdir
  | write
  | env
  deriving DecidableEq, Repr

def CredentialType.injections : CredentialType → List Injection
  | .file => [.mkdir, .write]
  | .env => [.env]

/-- The awaits of `clearAllElevation` and `clearAllProcessOwners`. -/
inductive Clear
  | listing
  | deleting (keys : List Capabilities.Key)
  | listingOwners
  | deletingOwners (keys : List Capabilities.Key)
  deriving DecidableEq, Repr

/-- Who clears all elevation: a tool that found its own elevation stale, `elevate` that found
another one stale, the connect hook, or the timer. -/
inductive Clearer
  | stale (caller : Caller)
  | other (caller : Caller)
  | connect
  | timer
  deriving DecidableEq, Repr

/-- What an operation awaits next. -/
inductive Task
  /-- `isSessionElevated` and the health of the container that the session counts on. -/
  | elevating (caller : Caller)
  | probing (caller : Caller)
  /-- `isAnySessionElevated` and the health of the container of another session. -/
  | scanning (caller : Caller)
  | verifying (caller : Caller)
  | clearing (clear : Clear) (clearer : Clearer)
  /-- The full start sequence. -/
  | joining (caller : Caller)
  | awaiting (caller : Caller) (teardown : Nat)
  | starting (caller : Caller)
  | confirming (caller : Caller)
  | collecting (caller : Caller)
  | injecting (caller : Caller) (todo : List Injection) (envVars : Bool)
  | restarting (caller : Caller)
  | marking (caller : Caller) (todo : List Field)
  /-- `resetDeElevationTimer`. -/
  | resetting (chat : String) (delay : Delay)
  | executing (chat : String) (command : Command)
  /-- `sessionList` and `processList` of `resetTimer`. -/
  | surveyingSessions (chat : String)
  | surveyingProcesses (chat : String)
  /-- A command in the background. -/
  | launching (chat command : String)
  | recording (chat sessionId : String)
  | polling (chat sessionId : String)
  /-- The actions of `process`. -/
  | listing (chat : String)
  | listed (chat : String)
  | owning (chat : String) (action : Action) (sessionId input : String)
  | acting (chat : String) (action : Action) (sessionId input : String)
  | disowning (chat sessionId : String)
  | deElevating (chat : String)
  | unmarking (chat : String) (todo : List Field)
  | surveying
  | cancelling
  | stopping
  /-- The stop that `de_elevate` does not await. -/
  | teardown
  | connecting (chat : String)
  | greeting
  /-- The timer and its callback. -/
  | firing
  | gathering
  | inspecting
  | halting (processes : Nat)
  | shutting
  | expiring
  deriving DecidableEq, Repr

/-- How an operation ends. -/
inductive Outcome
  | alreadyElevated
  | containerNotReady
  | healthCheckFailed
  | notElevated
  | containerRestartFailed
  | alreadyDeElevated
  | deElevated
  | notOwned
  | unsupported
  | thrown (message : String)
  | done
  deriving DecidableEq, Repr

/-- What an await brings. -/
structure HostAnswer where
  now : Instant := 0
  /-- The call of the provider is rejected. -/
  failed : Bool := false
  /-- `health` says that the container is ready. -/
  ready : Bool := true
  /-- The saved credentials that can be decrypted. -/
  credentials : List CredentialType := []
  /-- A session or a process of the listing is running. -/
  active : Bool := false
  /-- The container session that `sessionStart` began. -/
  sessionId : String := ""
  /-- How many processes of the listing are running. -/
  processes : Nat := 0
  /-- The callback of this capability, and those that other capabilities declare. -/
  callback : Callback := 0
  others : List (String × Callback) := []
  deriving DecidableEq, Repr

/-- The health check finds the container ready. -/
def HostAnswer.healthy (answer : HostAnswer) : Bool := !answer.failed && answer.ready

/-- The storage and the schedules of the agent, its container, and its operations in the order of
their start. -/
structure Agent where
  storage : Storage := SortedMap.empty
  schedules : ScheduleRuntime := {}
  /-- The container was started and has neither been stopped nor died since. -/
  running : Bool := false
  /-- `teardownPromise`, known by the operation that it is for. -/
  teardownPromise : Option Nat := none
  tasks : Nat → Option Task := fun _ => none
  started : Nat := 0
  outcome : Nat → Option Outcome := fun _ => none
  /-- The commands that `exec` and `process` sent, with the operation and its chat session. -/
  sent : List (Nat × String × Command) := []

namespace Agent

variable (s : Agent)

def goOn (i : Nat) (task : Task) : Agent :=
  { s with tasks := Function.update s.tasks i (some task) }

def finish (i : Nat) (outcome : Outcome) : Agent :=
  { s with
    tasks := Function.update s.tasks i none
    outcome := Function.update s.outcome i (some outcome) }

/-- An operation is started. -/
def spawn (task : Task) : Agent :=
  { s with tasks := Function.update s.tasks s.started (some task), started := s.started + 1 }

def send (i : Nat) (chat : String) (command : Command) : Agent :=
  { s with sent := s.sent ++ [(i, chat, command)] }

variable (options : SandboxCapabilityOptions)

/-- The call of `exec` in the foreground. -/
def foreground (command : String) (onUpdate : Bool) : Command :=
  if options.provider.sessionExecStream && onUpdate then .sessionExecStream command
  else if options.provider.execStream && onUpdate then .execStream command
  else .exec command

/-- `checkElevation` returned null. -/
def execute (i : Nat) (chat : String) : Tool → Agent
  | .exec command background onUpdate =>
    if background then
      if options.provider.sessionStart then s.goOn i (.launching chat command)
      else s.finish i .unsupported
    else s.goOn i (.executing chat (foreground options command onUpdate))
  | .list =>
    if options.provider.sessionList then s.goOn i (.listing chat) else s.finish i .unsupported
  | .process action sessionId input =>
    if sessionId = "" then s.finish i (.thrown "sessionId is required for this action")
    else if options.provider.supports action then s.goOn i (.owning chat action sessionId input)
    else s.finish i .unsupported

/-- `resetTimer` from the listing of the processes on. -/
def resetByProcesses (i : Nat) (chat : String) : Agent :=
  if options.provider.processList then s.goOn i (.surveyingProcesses chat)
  else s.goOn i (.resetting chat options.config.idleTimeout)

/-- `resetTimer` without a timeout of its own. -/
def resetTimer (i : Nat) (chat : String) : Agent :=
  if options.provider.sessionList then s.goOn i (.surveyingSessions chat)
  else s.resetByProcesses options i chat

/-- `resetDeElevationTimer`, at the end of an operation. -/
def resetDeElevationTimer (i : Nat) (delay : Delay) (now : Instant) : Agent :=
  match s.schedules.setTimer timerId delay none "" now with
  | (schedules, none) => { s with schedules }.finish i .done
  | (schedules, some message) => { s with schedules }.finish i (.thrown message)

/-- `executeScheduledCallback` up to the callback. -/
def executeScheduledCallback (i : Nat) (answer : HostAnswer) : Agent :=
  let schedules := s.schedules.ensureScheduleCallbacks
    { now := answer.now, declared := answer.others ++ [(timerId, answer.callback)] }
  match schedules.callbacks.lookup timerId with
  | some _ => { s with schedules }.goOn i .gathering
  | none =>
    let message := "No callback registered for schedule \"" ++ timerId ++ "\""
    { s with
      schedules := { schedules with
        store := schedules.store.markFailed timerId message answer.now } }.finish i
          (.thrown message)

/-- The delete that `handleAlarmFired` ends a timer with. -/
def expire (i : Nat) : Agent :=
  { s with schedules := s.schedules.drop timerId }.finish i .done

/-- `clearAllElevation` and `clearAllProcessOwners`, and what their caller does next. -/
def clearNext (i : Nat) (clearer : Clearer) : Clear → Agent
  | .listing => s.goOn i (.clearing (.deleting s.storage.elevationKeys) clearer)
  | .deleting [] => s.goOn i (.clearing .listingOwners clearer)
  | .deleting (key :: keys) =>
    { s with storage := (s.storage.delete key).1 }.goOn i (.clearing (.deleting keys) clearer)
  | .listingOwners => s.goOn i (.clearing (.deletingOwners s.storage.ownerKeys) clearer)
  | .deletingOwners (key :: keys) =>
    { s with storage := (s.storage.delete key).1 }.goOn i
      (.clearing (.deletingOwners keys) clearer)
  | .deletingOwners [] =>
    match clearer with
    | .stale caller =>
      match caller.purpose with
      | .elevate _ _ => s.goOn i (.scanning caller)
      | .use _ => s.goOn i (.joining caller)
    | .other caller => s.goOn i (.joining caller)
    | .connect => s.finish i .done
    | .timer => s.goOn i .expiring

/-- The container is healthy. -/
def confirmed (i : Nat) (caller : Caller) : Agent :=
  match caller.purpose with
  | .elevate _ _ => s.goOn i (.collecting caller)
  | .use _ => s.goOn i (.marking caller fields)

/-- The start, or the health check after it, was rejected. -/
def startFailed (i : Nat) (caller : Caller) (outcome : Outcome) : Agent :=
  match caller.purpose with
  | .elevate _ _ => s.finish i outcome
  | .use _ => s.finish i .containerRestartFailed

def marked (i : Nat) (caller : Caller) : Agent :=
  match caller.purpose with
  | .elevate _ timeout =>
    s.goOn i (.resetting caller.chat (timeout.getD options.config.idleTimeout))
  | .use tool => s.execute options i caller.chat tool

/-- An operation from one step to the next. -/
def advance (i : Nat) (answer : HostAnswer) : Task → Agent
  | .elevating caller =>
    if s.storage.isSessionElevated caller.chat then s.goOn i (.probing caller)
    else
      match caller.purpose with
      | .elevate _ _ => s.goOn i (.scanning caller)
      | .use _ => s.finish i .notElevated
  | .probing caller =>
    if answer.healthy then
      match caller.purpose with
      | .elevate _ _ => s.finish i .alreadyElevated
      | .use tool => s.execute options i caller.chat tool
    else s.goOn i (.clearing .listing (.stale caller))
  | .scanning caller =>
    if s.storage.isAnySessionElevated then s.goOn i (.verifying caller)
    else s.goOn i (.joining caller)
  | .verifying caller =>
    -- A container that is not ready is started again, and what the others stored stays.
    if answer.failed then s.goOn i (.clearing .listing (.other caller))
    else if answer.ready then s.goOn i (.marking caller fields)
    else s.goOn i (.joining caller)
  | .clearing clear clearer => s.clearNext i clearer clear
  | .joining caller =>
    match s.teardownPromise with
    | some teardown => s.goOn i (.awaiting caller teardown)
    | none => s.goOn i (.starting caller)
  | .awaiting caller teardown =>
    if (s.tasks teardown).isSome then s else s.goOn i (.starting caller)
  | .starting caller =>
    if answer.failed then s.startFailed i caller (.thrown "start")
    else { s with running := true }.goOn i (.confirming caller)
  | .confirming caller =>
    if answer.failed then s.startFailed i caller .healthCheckFailed
    else if answer.ready then s.confirmed i caller
    else s.startFailed i caller .containerNotReady
  | .collecting caller =>
    s.goOn i (.injecting caller (answer.credentials.flatMap CredentialType.injections) false)
  | .injecting caller [] envVars =>
    if envVars then s.goOn i (.restarting caller) else s.goOn i (.marking caller fields)
  | .injecting caller (.mkdir :: todo) envVars =>
    -- A credential whose directory could not be made is not written.
    s.goOn i (.injecting caller (if answer.failed then todo.drop 1 else todo) envVars)
  | .injecting caller (.write :: todo) envVars => s.goOn i (.injecting caller todo envVars)
  | .injecting caller (.env :: todo) _ => s.goOn i (.injecting caller todo true)
  | .restarting caller =>
    if answer.failed then s.goOn i (.marking caller fields)
    else { s with running := true }.goOn i (.marking caller fields)
  | .marking caller [] => s.marked options i caller
  | .marking caller (field :: todo) =>
    { s with
      storage := s.storage.setField caller.chat caller.reason (toISOString answer.now) field }.goOn
        i (.marking caller todo)
  | .resetting _ delay => s.resetDeElevationTimer i delay answer.now
  | .executing chat command =>
    if answer.failed then (s.send i chat command).finish i (.thrown "exec")
    else (s.send i chat command).resetTimer options i chat
  | .surveyingSessions chat =>
    if !answer.failed && answer.active then
      (s.send i chat .sessionList).goOn i (.resetting chat options.config.activeTimeout)
    else (s.send i chat .sessionList).resetByProcesses options i chat
  | .surveyingProcesses chat =>
    (s.send i chat .processList).goOn i (.resetting chat
      (if !answer.failed && answer.active then options.config.activeTimeout
      else options.config.idleTimeout))
  | .launching chat command =>
    if answer.failed then (s.send i chat (.sessionStart command)).finish i (.thrown "sessionStart")
    else (s.send i chat (.sessionStart command)).goOn i (.recording chat answer.sessionId)
  | .recording chat sessionId =>
    let s := { s with storage := s.storage.setProcessOwner sessionId chat }
    if options.provider.sessionPoll then s.goOn i (.polling chat sessionId)
    else s.goOn i (.resetting chat options.config.activeTimeout)
  | .polling chat sessionId =>
    (s.send i chat (.sessionPoll sessionId)).goOn i (.resetting chat options.config.activeTimeout)
  | .listing chat => s.goOn i (.listed chat)
  | .listed chat =>
    (s.send i chat .sessionList).finish i (if answer.failed then .thrown "sessionList" else .done)
  | .owning chat action sessionId input =>
    if s.storage.getProcessOwner sessionId ≠ some (.text chat) then s.finish i .notOwned
    else if action = .write ∧ input = "" then s.finish i .done
    else s.goOn i (.acting chat action sessionId input)
  | .acting chat action sessionId input =>
    let s := s.send i chat (action.command sessionId input)
    if answer.failed then s.finish i (.thrown "process")
    else if action = .remove then s.goOn i (.disowning chat sessionId)
    else s.finish i .done
  | .disowning _ sessionId =>
    { s with storage := s.storage.removeProcessOwner sessionId }.finish i .done
  | .deElevating chat =>
    if s.storage.isSessionElevated chat then s.goOn i (.unmarking chat fields)
    else s.finish i .alreadyDeElevated
  | .unmarking _ [] => s.goOn i .surveying
  | .unmarking chat (field :: todo) =>
    { s with storage := (s.storage.delete (field.key chat)).1 }.goOn i (.unmarking chat todo)
  | .surveying =>
    if s.storage.isAnySessionElevated then s.finish i .deElevated else s.goOn i .cancelling
  | .cancelling => { s with schedules := (s.schedules.cancelTimer timerId).1 }.goOn i .stopping
  | .stopping =>
    { (s.finish i .deElevated).spawn .teardown with teardownPromise := some s.started }
  | .teardown =>
    { s with
      running := answer.failed && s.running
      teardownPromise := if s.teardownPromise = some i then none else s.teardownPromise }.finish i
        .done
  | .connecting chat =>
    if s.storage.isSessionElevated chat then s.goOn i .greeting else s.finish i .done
  | .greeting =>
    if answer.healthy then s.finish i .done else s.goOn i (.clearing .listing .connect)
  | .firing => s.executeScheduledCallback i answer
  | .gathering =>
    if !s.storage.isAnySessionElevated then s.goOn i .expiring
    else if options.provider.processList && options.provider.processStop then s.goOn i .inspecting
    else s.goOn i .shutting
  | .inspecting =>
    if answer.failed then s.goOn i .shutting else s.goOn i (.halting answer.processes)
  | .halting 0 => s.goOn i .shutting
  | .halting (processes + 1) => s.goOn i (.halting processes)
  | .shutting =>
    { s with running := answer.failed && s.running }.goOn i (.clearing .listing .timer)
  | .expiring => s.expire i

end Agent

/-- What happens to the agent. -/
inductive Label
  | elevate (chat reason : String) (timeout : Option Delay)
  | deElevate (chat : String)
  | use (chat : String) (tool : Tool)
  | connect (chat : String)
  /-- The alarm fires. -/
  | alarm (now : Instant)
  /-- A turn begins: `syncCapabilitySchedules` gets the timer that the capability declares. -/
  | sync (callback : Callback)
  /-- Another capability registers a callback, or takes it back. -/
  | other (id : String) (callback : Option Callback)
  /-- The container dies. -/
  | die
  | advance (i : Nat) (answer : HostAnswer)
  deriving DecidableEq, Repr

namespace Agent

/-- The alarm takes the timer up when it is due. -/
def alarm (s : Agent) (now : Instant) : Agent :=
  if (s.schedules.store.get timerId).any (ScheduleStore.isDue now) then
    { s with
      schedules := { s.schedules with
        store := s.schedules.store.markRunning timerId now } }.spawn .firing
  else s

/-- Another capability changes its own callbacks. -/
def otherCallback (s : Agent) (id : String) : Option Callback → Agent
  | some callback =>
    { s with schedules := { s.schedules with
        callbacks := ScheduleRuntime.setKey s.schedules.callbacks id callback } }
  | none =>
    { s with schedules := { s.schedules with
        callbacks := ScheduleRuntime.deleteKey s.schedules.callbacks id } }

def step (options : SandboxCapabilityOptions) (s : Agent) : Label → Agent
  | .elevate chat reason timeout => s.spawn (.elevating ⟨chat, .elevate reason timeout⟩)
  | .deElevate chat => s.spawn (.deElevating chat)
  | .use chat tool => s.spawn (.elevating ⟨chat, .use tool⟩)
  | .connect chat => s.spawn (.connecting chat)
  | .alarm now => s.alarm now
  | .sync callback =>
    { s with schedules := (s.schedules.syncOne (fun _ => none)
        (.timer ⟨timerId, callback⟩, "sandbox") "" 0).1 }
  | .other id callback => if id = timerId then s else s.otherCallback id callback
  | .die => { s with running := false }
  | .advance i answer =>
    match s.tasks i with
    | some task => s.advance options i answer task
    | none => s

end Agent

end CrabbyKit.Sandbox
