import CrabbyKit.Core.Run

/-!
# Hooks and disposers of a runtime

`resolveCapabilities` of `resolve.ts` and what `ensureAgent`, `transformContext`, the tool hooks
and the `agent_end` listener of `agent-runtime.ts` do with its hooks and disposers. The runtime
keeps them in one field each, and runs of several sessions share these fields.
-/

namespace CrabbyKit.Capabilities

/-- A capability as far as its hooks, schedules and its disposer go. -/
structure Capability where
  id : String
  beforeInference : Bool := false
  beforeToolExecution : Bool := false
  afterToolExecution : Bool := false
  schedules : List String := []
  dispose : Bool := false
  deriving DecidableEq, Repr

/-- A hook closure: the call of `resolveCapabilities` that built it, by the run it was made
for, and the session of the context it was built with. -/
structure Hook where
  capabilityId : String
  sessionId : String
  run : Nat
  deriving DecidableEq, Repr

/-- `dispose` of one instance of a capability: `getCapabilities` makes the instances of one
generation. -/
structure Disposer where
  capabilityId : String
  generation : Nat
  deriving DecidableEq, Repr

structure ResolvedCapabilities where
  beforeInferenceHooks : List Hook
  beforeToolExecutionHooks : List Hook
  afterToolExecutionHooks : List Hook
  schedules : List String
  disposers : List Disposer
  deriving DecidableEq, Repr

def hooksOf (has : Capability → Bool) (capabilities : List Capability) (sessionId : String)
    (run : Nat) : List Hook :=
  (capabilities.filter has).map fun cap => ⟨cap.id, sessionId, run⟩

def disposersOf (capabilities : List Capability) (generation : Nat) : List Disposer :=
  (capabilities.filter Capability.dispose).map fun cap => ⟨cap.id, generation⟩

def resolveCapabilities (capabilities : List Capability) (generation : Nat) (sessionId : String)
    (run : Nat) : ResolvedCapabilities :=
  { beforeInferenceHooks := hooksOf Capability.beforeInference capabilities sessionId run
    beforeToolExecutionHooks := hooksOf Capability.beforeToolExecution capabilities sessionId run
    afterToolExecutionHooks := hooksOf Capability.afterToolExecution capabilities sessionId run
    schedules := capabilities.flatMap Capability.schedules
    disposers := disposersOf capabilities generation }

/-- Where a run is: it waits for `syncCapabilitySchedules`, its agent runs, or it has ended. -/
inductive Stage
  | syncing | running | ended
  deriving DecidableEq, Repr

/-- A run of a session from `ensureAgent` on. The generation of the capabilities that it has
resolved is kept for the record. -/
structure AgentRun where
  sessionId : String
  generation : Nat
  stage : Stage
  hasBeforeToolCall : Bool := false
  hasAfterToolCall : Bool := false
  deriving DecidableEq, Repr

/-- A run that has just resolved its capabilities. -/
def AgentRun.start (sessionId : String) (generation : Nat) : AgentRun :=
  { sessionId := sessionId, generation := generation, stage := .syncing }

/-- A runtime with its runs. The lists `executed`, of hooks with the run that they were executed
for, and `disposed` are kept for the record only. -/
structure AgentRuntime where
  generations : Nat := 0
  capabilitiesCache : Option Nat := none
  beforeInferenceHooks : List Hook := []
  beforeToolExecutionHooks : List Hook := []
  afterToolExecutionHooks : List Hook := []
  capabilityDisposers : List Disposer := []
  runs : List AgentRun := []
  executed : List (Nat × Hook) := []
  disposed : List Disposer := []
  deriving DecidableEq, Repr

/-- What may happen next. `beforeToolCall` carries the place of the first hook that blocks. -/
inductive RunEvent
  | readCapabilities
  | ensureAgent (sessionId : String)
  | schedulesSynced (r : Nat)
  | modelCall (r : Nat)
  | beforeToolCall (r : Nat) (blocker : Option Nat)
  | afterToolCall (r : Nat)
  | agentEnd (r : Nat)
  deriving DecidableEq, Repr

namespace AgentRuntime

variable (getCapabilities : Nat → List Capability)

/-- `getCachedCapabilities`: the generation in the cache, or a new one. -/
def getCachedCapabilities (s : AgentRuntime) : AgentRuntime × Nat :=
  match s.capabilitiesCache with
  | some generation => (s, generation)
  | none =>
    ({ s with capabilitiesCache := some s.generations, generations := s.generations + 1 },
      s.generations)

def setRun (s : AgentRuntime) (r : Nat) (run : AgentRun) : AgentRuntime :=
  { s with runs := s.runs.set r run }

/-- The rest of `ensureAgent` after the schedules: the agent gets its tool hooks. -/
def buildAgent (s : AgentRuntime) (r : Nat) (run : AgentRun) : AgentRuntime :=
  s.setRun r { run with
    stage := .running
    hasBeforeToolCall := !s.beforeToolExecutionHooks.isEmpty
    hasAfterToolCall := !s.afterToolExecutionHooks.isEmpty }

/-- The fields are set for a new run. -/
def setResolved (s : AgentRuntime) (generation : Nat) (sessionId : String)
    (resolved : ResolvedCapabilities) : AgentRuntime :=
  { s with
    beforeInferenceHooks := resolved.beforeInferenceHooks
    beforeToolExecutionHooks := resolved.beforeToolExecutionHooks
    afterToolExecutionHooks := resolved.afterToolExecutionHooks
    capabilityDisposers := resolved.disposers
    runs := s.runs ++ [.start sessionId generation] }

/-- `ensureAgent` up to its wait for the schedules, if there are any. -/
def ensureAgent (s : AgentRuntime) (sessionId : String) : AgentRuntime :=
  let (s, generation) := s.getCachedCapabilities
  let r := s.runs.length
  let resolved := resolveCapabilities (getCapabilities generation) generation sessionId r
  let s := s.setResolved generation sessionId resolved
  if resolved.schedules.length > 0 then s else s.buildAgent r (.start sessionId generation)

def execute (s : AgentRuntime) (r : Nat) (hooks : List Hook) : AgentRuntime :=
  { s with executed := s.executed ++ hooks.map fun hook => (r, hook) }

def transformContext (s : AgentRuntime) (r : Nat) : AgentRuntime :=
  let s := s.getCachedCapabilities.1
  s.execute r s.beforeInferenceHooks

/-- The callback of `setBeforeToolCall`: a hook that blocks is the last one. -/
def runBeforeToolCall (s : AgentRuntime) (r : Nat) (blocker : Option Nat) : AgentRuntime :=
  let s := s.getCachedCapabilities.1
  match blocker with
  | none => s.execute r s.beforeToolExecutionHooks
  | some place => s.execute r (s.beforeToolExecutionHooks.take (place + 1))

/-- The callback of `setAfterToolCall`. -/
def runAfterToolCall (s : AgentRuntime) (r : Nat) : AgentRuntime :=
  let s := s.getCachedCapabilities.1
  s.execute r s.afterToolExecutionHooks

def disposeCapabilities (s : AgentRuntime) : AgentRuntime :=
  { s with disposed := s.disposed ++ s.capabilityDisposers, capabilityDisposers := [] }

/-- The listener of `agent_end`. -/
def agentEnd (s : AgentRuntime) (r : Nat) (run : AgentRun) : AgentRuntime :=
  ({ s.setRun r { run with stage := .ended } with capabilitiesCache := none }).disposeCapabilities

/-- What happens next. Labels that do not fit change nothing. -/
def step (s : AgentRuntime) : RunEvent → AgentRuntime
  | .readCapabilities => s.getCachedCapabilities.1
  | .ensureAgent sessionId => s.ensureAgent getCapabilities sessionId
  | .schedulesSynced r =>
    match s.runs[r]? with
    | some run => if run.stage = .syncing then s.buildAgent r run else s
    | none => s
  | .modelCall r =>
    match s.runs[r]? with
    | some run => if run.stage = .running then s.transformContext r else s
    | none => s
  | .beforeToolCall r blocker =>
    match s.runs[r]? with
    | some run =>
      if run.stage = .running ∧ run.hasBeforeToolCall then s.runBeforeToolCall r blocker else s
    | none => s
  | .afterToolCall r =>
    match s.runs[r]? with
    | some run => if run.stage = .running ∧ run.hasAfterToolCall then s.runAfterToolCall r else s
    | none => s
  | .agentEnd r =>
    match s.runs[r]? with
    | some run => if run.stage = .running then s.agentEnd r run else s
    | none => s

def run (events : List RunEvent) : AgentRuntime := Run.run (step getCapabilities) {} events

end AgentRuntime

end CrabbyKit.Capabilities
