import CrabbyKit.Core.JsonText
import CrabbyKit.Spine.Session
import Mathlib.Data.List.Infix

/-!
# Spine calls

The methods that `SpineService` of `services/spine-service.ts` offers to a bundle for a session, and
the `spine*` methods of `agent-runtime.ts` behind them. What the service has read from a verified
token is the caller of a method; the capabilities of the agent are arguments.
-/

namespace CrabbyKit.Spine

open Capabilities

/-- `SpineCaller`: the identity in a verified token. -/
structure SpineCaller where
  aid : String
  sid : Option String
  nonce : String
  deriving DecidableEq, Repr

inductive BudgetCategory
  | sql | kv | broadcast | alarm | hookAfterTool | hookBeforeInference | hookBeforeTool | inspection
  deriving DecidableEq, Repr

def BudgetCategory.name : BudgetCategory → String
  | .sql => "sql"
  | .kv => "kv"
  | .broadcast => "broadcast"
  | .alarm => "alarm"
  | .hookAfterTool => "hook_after_tool"
  | .hookBeforeInference => "hook_before_inference"
  | .hookBeforeTool => "hook_before_tool"
  | .inspection => "inspection"

/-- `SpineBudgetConfig` with the defaults of `DEFAULT_BUDGET`. -/
structure SpineBudgetConfig where
  maxSqlOps : Nat := 100
  maxKvOps : Nat := 50
  maxBroadcasts : Nat := 200
  maxAlarms : Nat := 5
  maxHookAfterTool : Nat := 200
  maxHookBeforeInference : Nat := 100
  maxHookBeforeTool : Nat := 200
  maxInspectionOps : Nat := 50
  deriving DecidableEq, Repr

def SpineBudgetConfig.getLimit (config : SpineBudgetConfig) : BudgetCategory → Nat
  | .sql => config.maxSqlOps
  | .kv => config.maxKvOps
  | .broadcast => config.maxBroadcasts
  | .alarm => config.maxAlarms
  | .hookAfterTool => config.maxHookAfterTool
  | .hookBeforeInference => config.maxHookBeforeInference
  | .hookBeforeTool => config.maxHookBeforeTool
  | .inspection => config.maxInspectionOps

/-- What a `spine*` method throws. -/
inductive HostError
  | budgetExceeded (category : BudgetCategory) (limit : Nat)
  | store (error : StoreError)
  deriving DecidableEq, Repr

def HostError.message : HostError → Option String
  | .budgetExceeded category limit =>
    some s!"ERR_BUDGET_EXCEEDED: {category.name} budget exceeded (limit: {limit})"
  | .store error => error.message

/-- The clients for which a state of a capability is meant. -/
inductive StateScope
  | session | global
  deriving DecidableEq, Repr

def StateScope.name : StateScope → String
  | .session => "session"
  | .global => "global"

/-- What a hook does with the context it is given, step by step. Its store calls are for the
session of the context; `storage` stands for what the capabilities keep for all sessions. -/
inductive HookBody (H O : Type)
  | returns (output : O)
  | throws
  | sessionData (next : Option Session × List SessionEntry → HookBody H O)
  | appendEntry (data : EntryData) (next : Except StoreError SessionEntry → HookBody H O)
  | storage (update : H → H) (next : H → HookBody H O)
  | broadcastState (event : String) (data : Json) (scope : Option StateScope) (next : HookBody H O)

/-- A hook on an event, with the session id of its context. -/
abbrev Hook (I H O : Type) := I → String → HookBody H O

structure BeforeToolExecutionEvent where
  toolName : String
  args : Json
  toolCallId : String

structure BeforeToolExecutionResult where
  block : Option Bool
  reason : Option String
  deriving DecidableEq, Repr

structure ToolExecutionEvent where
  toolName : String
  args : Json
  isError : Bool

/-- `Capability`, with the hooks that the bridge runs. -/
structure Capability (H : Type) where
  id : String
  beforeInference : Option (Hook (List AgentMessage) H (List AgentMessage)) := none
  beforeToolExecution :
    Option (Hook BeforeToolExecutionEvent H (Option BeforeToolExecutionResult)) := none
  afterToolExecution : Option (Hook ToolExecutionEvent H Unit) := none

/-- A call of `ctx.broadcastState`; without a scope it is for the session. -/
structure StateBroadcast where
  capabilityId : String
  event : String
  data : Json
  scope : StateScope

structure HookState (nanoid : Nat → String) (H : Type) where
  sessionStore : EntryStore nanoid
  memory : H

section Hooks

variable {nanoid : Nat → String} {H A O : Type}

/-- A hook on the state, with what it returns unless it throws, and its broadcasts. -/
def HookBody.run (capabilityId sessionId : String) (now : Instant) :
    HookBody H O → HookState nanoid H → (Option O × List StateBroadcast) × HookState nanoid H
  | .returns output, s => ((some output, []), s)
  | .throws, s => ((none, []), s)
  | .sessionData next, s =>
    (next (Spine.sessionData s.sessionStore.store sessionId)).run capabilityId sessionId now s
  | .appendEntry data next, s =>
    let appended := s.sessionStore.append sessionId data now
    (next appended.1).run capabilityId sessionId now { s with sessionStore := appended.2 }
  | .storage update next, s =>
    (next s.memory).run capabilityId sessionId now { s with memory := update s.memory }
  | .broadcastState event data scope next, s =>
    let ran := next.run capabilityId sessionId now s
    ((ran.1.1, ⟨capabilityId, event, data, scope.getD .session⟩ :: ran.1.2), ran.2)

/-- A chain of hooks in the order of registration. Each is given what the ones before it have left;
`next` says what comes of its return, and whether the chain goes on. -/
def runHooks (sessionId : String) (now : Instant) (next : A → Option O → A × Bool) :
    List (String × (A → HookBody H O)) → A → HookState nanoid H →
      (A × List StateBroadcast) × HookState nanoid H
  | [], a, s => ((a, []), s)
  | (capabilityId, hook) :: rest, a, s =>
    let ran := (hook a).run capabilityId sessionId now s
    let left := next a ran.1.1
    if left.2 then
      let more := runHooks sessionId now next rest left.1 ran.2
      ((more.1.1, ran.1.2 ++ more.1.2), more.2)
    else ((left.1, ran.1.2), ran.2)

end Hooks

/-- What the host is built with. -/
structure SpineRuntime (H : Type) where
  spineBudget : SpineBudgetConfig
  capabilities : List (Capability H)
  nanoid : Nat → String
  nanoid_injective : Function.Injective nanoid

theorem ofList_replicate_injective :
    Function.Injective fun n => String.ofList (List.replicate n 'a') := by
  intro m n h
  have hlength := congrArg (fun id => id.toList.length) h
  simpa using hlength

/-- The state of the host that spine calls use: the capabilities are resolved once, for the session
`resolvedFor`, until the agent of a turn ends. -/
structure SpineState (nanoid : Nat → String) (H : Type) extends HookState nanoid H where
  kvStore : KvStore Json
  transport : Connections
  counters : String → BudgetCategory → Nat
  activeBundleVersionId : Option String
  resolvedFor : Option String

/-- What a method returns. -/
inductive SpineReply
  | entry (entry : SessionEntry)
  | entries (entries : List SessionEntry)
  | session (session : Option Session)
  | messages (messages : List AgentMessage)
  | checkpoint (data : Option CompactionEntryData)
  | block (result : Option BeforeToolExecutionResult)
  | sections (sections : List Json)
  | done

section Host

variable {H : Type} (rt : SpineRuntime H) (caller : SpineCaller) (now : Instant)

abbrev SpineRuntime.State := SpineState rt.nanoid H

abbrev SpineRuntime.Method := rt.State → Except HostError SpineReply × rt.State

/-- `this.spineBudget.check(nonce, category)` throws. -/
def Exhausted (s : rt.State) (nonce : String) (category : BudgetCategory) : Prop :=
  rt.spineBudget.getLimit category ≤ s.counters nonce category

instance (s : rt.State) (nonce : String) (category : BudgetCategory) :
    Decidable (Exhausted rt s nonce category) :=
  inferInstanceAs (Decidable (_ ≤ _))

/-- The counter after a check that has passed. -/
def SpineState.count {rt : SpineRuntime H} (s : rt.State) (nonce : String)
    (category : BudgetCategory) : rt.State :=
  let categories := s.counters nonce
  { s with
    counters := Function.update s.counters nonce
      (Function.update categories category (categories category + 1)) }

def withSpineBudget (category : BudgetCategory) (fn : rt.Method) : rt.Method := fun s =>
  if Exhausted rt s caller.nonce category then
    (.error (.budgetExceeded category (rt.spineBudget.getLimit category)), s)
  else fn (s.count caller.nonce category)

/-- `caller.sid ?? ""`. -/
def SpineCaller.sessionId : String := caller.sid.getD ""

/-! ### The session store -/

/-- `this.sessionStore.appendEntry(sid, entry)`. -/
def appendEntry (sessionId : String) (entry : EntryData) : rt.Method := fun s =>
  let appended := s.sessionStore.append sessionId entry now
  (match appended.1 with
    | .error e => .error (.store e)
    | .ok entry => .ok (.entry entry),
    { s with sessionStore := appended.2 })

def spineAppendEntry (entry : EntryData) : rt.Method :=
  withSpineBudget rt caller .sql (appendEntry rt now caller.sessionId entry)

def spineGetEntries : rt.Method :=
  withSpineBudget rt caller .sql fun s =>
    (.ok (.entries (s.sessionStore.store.getEntries caller.sessionId)), s)

def spineGetSession : rt.Method :=
  withSpineBudget rt caller .sql fun s =>
    (.ok (.session (s.sessionStore.store.get caller.sessionId)), s)

def spineBuildContext : rt.Method :=
  withSpineBudget rt caller .sql fun s =>
    (match s.sessionStore.store.buildContext caller.sessionId now with
      | .error e => .error (.store e)
      | .ok messages => .ok (.messages messages), s)

def lastCompaction (entries : List SessionEntry) : Option CompactionEntryData :=
  entries.reverse.findSome? fun entry =>
    match entry.data with
    | .compaction data => some data
    | _ => none

def spineGetCompactionCheckpoint : rt.Method :=
  withSpineBudget rt caller .sql fun s =>
    (.ok (.checkpoint (lastCompaction (s.sessionStore.store.getEntries caller.sessionId))), s)

/-! ### Broadcasts -/

/-- `this.broadcastToSession(sessionId, msg)`, which returns nothing. -/
def broadcastToSession (sessionId : String) (msg : Json) : rt.Method := fun s =>
  (.ok .done, { s with transport := s.transport.deliver (some sessionId) msg })

/-- The session id of the token replaces one in the event. -/
def spineBroadcast (event : JsonObject) : rt.Method :=
  withSpineBudget rt caller .broadcast
    (broadcastToSession rt caller.sessionId
      (event.set "sessionId" (.str caller.sessionId)).toJson)

def costEventMessage (sessionId : String) (cost : Json) : Json :=
  .obj [("type", .str "cost_event"), ("sessionId", .str sessionId), ("event", cost)]

/-- `handleCostEvent`: nothing is broadcast when the append throws. -/
def handleCostEvent (cost : Json) (sessionId : String) : rt.Method := fun s =>
  let appended := appendEntry rt now sessionId (.custom "cost" cost.stringify) s
  match appended.1 with
  | .error e => (.error e, appended.2)
  | .ok _ => broadcastToSession rt sessionId (costEventMessage sessionId cost) appended.2

def spineEmitCost (costEvent : Json) : rt.Method :=
  withSpineBudget rt caller .sql (handleCostEvent rt now costEvent caller.sessionId)

/-! ### Hooks -/

/-- The session to which `broadcastCoreState` sends a message, or none for all. -/
def StateBroadcast.target (bound : String) (b : StateBroadcast) : Option String :=
  if b.scope = .session ∧ bound ≠ "" then some bound else none

/-- The message of `broadcastCoreState`. -/
def StateBroadcast.message (bound : String) (b : StateBroadcast) : Json :=
  .obj ([("type", .str "capability_state"), ("capabilityId", .str b.capabilityId),
    ("scope", .str b.scope.name), ("event", .str b.event), ("data", b.data)] ++
    match b.target bound with
    | some sessionId => [("sessionId", .str sessionId)]
    | none => [])

/-- The session for which the capabilities are resolved once a call for `sessionId` needs them. -/
def SpineState.boundTo {rt : SpineRuntime H} (s : rt.State) (sessionId : String) : String :=
  s.resolvedFor.getD sessionId

def ensureCapabilityHooksResolved (sessionId : String) (s : rt.State) : rt.State :=
  { s with resolvedFor := some (s.boundTo sessionId) }

/-- A chain of hooks between the resolution of the capabilities and the end of the call. What the
hooks broadcast goes where the capabilities were resolved to send it. -/
def bridgeHooks {A : Type} (sessionId : String)
    (chain : HookState rt.nanoid H → (A × List StateBroadcast) × HookState rt.nanoid H)
    (reply : A → SpineReply) : rt.Method := fun s =>
  let s := ensureCapabilityHooksResolved rt sessionId s
  let ran := chain s.toHookState
  let bound := s.boundTo sessionId
  (.ok (reply ran.1.1),
    { s with
      toHookState := ran.2
      transport := s.transport.deliverAll
        (ran.1.2.map fun b => (b.target bound, b.message bound)) })

/-- `afterToolExecutionHooks` on an event: what they return or throw is discarded. -/
def afterToolExecution (sessionId : String) (event : ToolExecutionEvent) :
    HookState rt.nanoid H → (Unit × List StateBroadcast) × HookState rt.nanoid H :=
  runHooks sessionId now (fun _ (_ : Option Unit) => ((), true))
    (rt.capabilities.filterMap fun capability =>
      capability.afterToolExecution.map fun hook =>
        (capability.id, fun _ => hook event sessionId)) ()

/-- `beforeInferenceHooks` on the messages: one that throws leaves them as they are. -/
def beforeInference (sessionId : String) (messages : List AgentMessage) :
    HookState rt.nanoid H → (List AgentMessage × List StateBroadcast) × HookState rt.nanoid H :=
  runHooks sessionId now (fun messages output => (output.getD messages, true))
    (rt.capabilities.filterMap fun capability =>
      capability.beforeInference.map fun hook =>
        (capability.id, fun messages => hook messages sessionId)) messages

/-- What comes of the return of a hook: one that blocks ends the chain. -/
def firstBlock (_ : Option BeforeToolExecutionResult) :
    Option (Option BeforeToolExecutionResult) → Option BeforeToolExecutionResult × Bool
  | some (some ⟨some true, reason⟩) => (some ⟨some true, reason⟩, false)
  | _ => (none, true)

/-- `beforeToolExecutionHooks` on an event. -/
def beforeToolExecution (sessionId : String) (event : BeforeToolExecutionEvent) :
    HookState rt.nanoid H →
      (Option BeforeToolExecutionResult × List StateBroadcast) × HookState rt.nanoid H :=
  runHooks sessionId now firstBlock
    (rt.capabilities.filterMap fun capability =>
      capability.beforeToolExecution.map fun hook =>
        (capability.id, fun _ => hook event sessionId)) none

def spineRecordToolExecution (event : ToolExecutionEvent) : rt.Method :=
  withSpineBudget rt caller .hookAfterTool
    (bridgeHooks rt caller.sessionId (afterToolExecution rt now caller.sessionId event)
      fun _ => .done)

def spineProcessBeforeInference (messages : List AgentMessage) : rt.Method :=
  withSpineBudget rt caller .hookBeforeInference
    (bridgeHooks rt caller.sessionId (beforeInference rt now caller.sessionId messages) .messages)

def spineProcessBeforeToolExecution (event : BeforeToolExecutionEvent) : rt.Method :=
  withSpineBudget rt caller .hookBeforeTool
    (bridgeHooks rt caller.sessionId (beforeToolExecution rt now caller.sessionId event) .block)

/-! ### Snapshots -/

def spineRecordBundlePromptSections (sessionId : String) (sections : List Json)
    (bundleVersionId : String) : rt.Method :=
  withSpineBudget rt caller .inspection fun s =>
    if bundleVersionId = "" then (.ok .done, s)
    else
      let storage := createCapabilityStorage s.kvStore bundleInspectionCapId
      (.ok .done, { s with
        kvStore := (storage (.put (bundleInspectionKey sessionId bundleVersionId)
          (.arr sections))).1 })

/-- The version of which a snapshot is read, unless it is falsy. -/
def SpineState.versionId {rt : SpineRuntime H} (s : rt.State) (bundleVersionId : Option String) :
    Option String :=
  (bundleVersionId.or s.activeBundleVersionId).filter fun version => version ≠ ""

/-- What a storage answers to `get`, when it is an array. -/
def sectionsOf : StorageReply Json → List Json
  | .value (some (.arr sections)) => sections
  | _ => []

def spineGetBundlePromptSections (sessionId : String) (bundleVersionId : Option String) :
    rt.Method :=
  withSpineBudget rt caller .inspection fun s =>
    match s.versionId bundleVersionId with
    | none => (.ok (.sections []), s)
    | some version =>
      let storage := createCapabilityStorage s.kvStore bundleInspectionCapId
      (.ok (.sections (sectionsOf (storage (.get (bundleInspectionKey sessionId version))).2)), s)

end Host

inductive SpineErrorCode
  | budgetExceeded | scopeDenied | sessionRequired | internal
  deriving DecidableEq, Repr

def SpineErrorCode.name : SpineErrorCode → String
  | .budgetExceeded => "ERR_BUDGET_EXCEEDED"
  | .scopeDenied => "ERR_SCOPE_DENIED"
  | .sessionRequired => "ERR_SESSION_REQUIRED"
  | .internal => "ERR_INTERNAL"

structure SpineError where
  code : SpineErrorCode
  message : String
  deriving DecidableEq, Repr

/-- `text.includes(pattern)`. -/
def includes (text pattern : String) : Bool :=
  text.toList.tails.any fun rest => pattern.toList.isPrefixOf rest

/-- `sanitize`, of which an error keeps no more than its message on the way from the host. -/
def sanitize (message : String) : SpineError :=
  if includes message "ERR_BUDGET_EXCEEDED:" then ⟨.budgetExceeded, message⟩
  else if includes message "ERR_SCOPE_DENIED:" then ⟨.scopeDenied, message⟩
  else if includes message "ERR_SESSION_REQUIRED" then ⟨.sessionRequired, message⟩
  else ⟨.internal, "An internal error occurred"⟩

/-- The answer of the service, if there is one. -/
def answer : Except HostError SpineReply → Option (Except SpineError SpineReply)
  | .ok reply => some (.ok reply)
  | .error e => e.message.map fun message => .error (sanitize message)

inductive SessionMethod
  | appendEntry (entry : EntryData)
  | getEntries
  | getSession
  | buildContext
  | getCompactionCheckpoint
  | broadcast (event : JsonObject)
  | emitCost (costEvent : Json)
  | recordToolExecution (event : ToolExecutionEvent)
  | processBeforeInference (messages : List AgentMessage)
  | processBeforeToolExecution (event : BeforeToolExecutionEvent)
  | recordPromptSections (sessionId : String) (sections : List Json) (bundleVersionId : String)
  | getBundlePromptSections (sessionId : String) (bundleVersionId : Option String)

section Service

variable {H : Type} (rt : SpineRuntime H) (now : Instant)

def SessionMethod.host (caller : SpineCaller) : SessionMethod → rt.Method
  | .appendEntry entry => spineAppendEntry rt caller now entry
  | .getEntries => spineGetEntries rt caller
  | .getSession => spineGetSession rt caller
  | .buildContext => spineBuildContext rt caller now
  | .getCompactionCheckpoint => spineGetCompactionCheckpoint rt caller
  | .broadcast event => spineBroadcast rt caller event
  | .emitCost costEvent => spineEmitCost rt caller now costEvent
  | .recordToolExecution event => spineRecordToolExecution rt caller now event
  | .processBeforeInference messages => spineProcessBeforeInference rt caller now messages
  | .processBeforeToolExecution event => spineProcessBeforeToolExecution rt caller now event
  | .recordPromptSections sessionId sections bundleVersionId =>
    spineRecordBundlePromptSections rt caller sessionId sections bundleVersionId
  | .getBundlePromptSections sessionId bundleVersionId =>
    spineGetBundlePromptSections rt caller sessionId bundleVersionId

/-- A call of the service: `requireSession`, then the host, then `sanitize`. -/
def SessionMethod.call (caller : SpineCaller) (method : SessionMethod) (s : rt.State) :
    Option (Except SpineError SpineReply) × rt.State :=
  if caller.sid.isNone then
    (some (.error ⟨.sessionRequired,
      "Spine method requires a session — token was minted with sid: null"⟩), s)
  else
    let called := method.host rt now caller s
    (answer called.1, called.2)

end Service

end CrabbyKit.Spine
