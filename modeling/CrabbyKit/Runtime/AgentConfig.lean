import CrabbyKit.Core.Run
import CrabbyKit.Dispatch.Config

/-!
# Agent-level configuration

`ensureAgentConfigLoaded`, `applyAgentConfigSet`, `handleAgentConfigSet` and the agent-level branch
of `config_set`, cut at their awaits: the storage answers a call at any time after it was made, and
what waits for an answer goes on at any time after that. Sessions, the UI and the bundle pointer
refresher share one snapshot.
-/

namespace CrabbyKit.AgentConfig

open CrabbyKit.Bundle DispatchHost

abbrev Schemas := List (String × SchemaValue)

/-- `Value.Check` and `Value.Create` of TypeBox. -/
structure TypeBox where
  check : SchemaValue → Json → Bool
  create : SchemaValue → Json

/-- The key under which a load notes what does not fit its schema. -/
def orphansKey : String := "__orphans"

/-- `{ ...bundleSchema, ...hostSchema }`: a name of both keeps its place and takes the host's. -/
def spreadSchemas (bundleSchema hostSchema : Schemas) : Schemas :=
  bundleSchema.map (fun entry => (entry.1, (hostSchema.lookup entry.1).getD entry.2)) ++
    hostSchema.filter fun entry => (bundleSchema.lookup entry.1).isNone

/-- What `getCachedAgentConfigSchema` computes when nothing is cached. -/
def mergeSchemas (hostSchema : Schemas) : Option Schemas → Schemas
  | none => hostSchema
  | some bundleSchema =>
    if bundleSchema.isEmpty then hostSchema else spreadSchemas bundleSchema hostSchema

/-- `cursor[segment]` of a value that is an object. -/
def element (segment : String) : Json → Option Json
  | .obj members => Json.field segment (.obj members)
  | .arr items =>
    if segment = "length" then some (.num items.length)
    else (items.zipIdx.find? fun item => toString item.2 = segment).map Prod.fst
  | _ => none

def evaluateAgentConfigPath (snapshot : JsonObject) (path : String) : Option Json :=
  if path = "" then some snapshot.toJson
  else (path.splitOn ".").foldl (fun cursor segment => cursor.bind (element segment))
    (some snapshot.toJson)

/-- `sliceEqual`: two slices count as equal when their texts are. -/
def sliceEqual (a b : Option Json) : Bool := a.map Json.stringify = b.map Json.stringify

/-- A capability, as far as the configuration of the agent concerns it. -/
structure Capability where
  id : String
  agentConfigMapping : Option (JsonObject → Option Json) := none
  onAgentConfigChange : Bool := false

/-- An `onAgentConfigChange` hook with the slice it is told. -/
structure Hook where
  id : Option Json
  slice : JsonObject → Option Json

/-- The hooks of the host's capabilities; one without a mapping is not called. -/
def staticHooks (capabilities : List Capability) : List Hook :=
  capabilities.filterMap fun cap =>
    if cap.onAgentConfigChange then
      cap.agentConfigMapping.map fun slice => ⟨some (.str cap.id), slice⟩
    else none

def bundleHooks (paths : Option (List AgentConfigPath)) : List Hook :=
  (paths.getD []).map fun entry =>
    ⟨entry.id, fun snapshot => evaluateAgentConfigPath snapshot entry.agentConfigPath⟩

/-- A set that has passed its check. -/
structure Change where
  ns : String
  value : Json
  schema : SchemaValue

/-- The dispatch of one set: the snapshot its old slices are taken from and, for the record only,
the snapshots before and after the set. -/
structure Dispatch where
  priorSnapshot : JsonObject
  before : JsonObject
  after : JsonObject

structure HookCall where
  hook : Hook
  oldSlice : Option Json
  newSlice : Option Json
  dispatch : Dispatch

/-- What is in progress. A load goes through the entries that are left, for a session or on behalf
of a set. -/
inductive Task
  /-- `getAgentConfig(ns)` of a load, with its answer. -/
  | reading (ns : String) (nsSchema : SchemaValue) (rest : Schemas) (change : Option Change)
      (answer : Option (Option Json))
  /-- `getAgentConfig("__orphans")` of a load, with its answer. -/
  | readingOrphans (ns : String) (stored : Json) (rest : Schemas) (change : Option Change)
      (answer : Option (Option Json))
  /-- `setAgentConfig("__orphans", orphans)` of a load. -/
  | writingOrphans (orphans : JsonObject) (rest : Schemas) (change : Option Change) (done : Bool)
  /-- `applyAgentConfigSet` when the load it waits for has returned. -/
  | loadReturned (change : Change)
  /-- `setAgentConfig(ns, value)` of a set. -/
  | persisting (change : Change) (oldValue : Json) (done : Bool)
  /-- A hook of a set is being called, the hooks after it are to come. -/
  | calling (dispatch : Dispatch) (hooks : List Hook) (isStatic : Bool)

/-- The storage and one instance of the runtime over it. The hook calls are kept for the record
only. -/
structure AgentRuntime where
  stored : String → Option Json
  hostSchema : Schemas
  installed : InstalledConfig := {}
  cachedAgentConfigSchema : Option Schemas := none
  agentConfigSnapshot : JsonObject := .empty
  agentConfigLoaded : Bool := false
  /-- The schemas that the `config_set` tools of the sessions have captured. -/
  contexts : List Schemas := []
  tasks : List Task := []
  calls : List HookCall := []

/-- What may happen next. -/
inductive Event
  /-- A session makes sure that the configuration is loaded. -/
  | load
  /-- A session that has loaded collects its tools. -/
  | collectTools
  /-- `capability_action` sets a namespace from the UI. -/
  | applyAgentConfigSet (ns : String) (value : Json)
  /-- The `config_set` tool of a session. -/
  | configSet (context : Nat) (ns : String) (value : Json)
  /-- The storage does what a task has asked for. -/
  | serve (i : Nat)
  /-- A task goes on with its answer, or after its hook. -/
  | resume (i : Nat) (now : String)
  /-- The bundle pointer has moved. -/
  | install (loaded : Option BundleConfigMetadata)
  | hibernate

namespace AgentRuntime

variable (typeBox : TypeBox) (capabilities : List Capability)

def mergedSchema (s : AgentRuntime) : Schemas :=
  mergeSchemas s.hostSchema s.installed.bundleAgentConfigSchemaMetadata

def getCachedAgentConfigSchema (s : AgentRuntime) : Schemas :=
  s.cachedAgentConfigSchema.getD s.mergedSchema

/-- The schema is kept once it has been asked for. -/
def cacheSchema (s : AgentRuntime) : AgentRuntime :=
  { s with cachedAgentConfigSchema := some s.getCachedAgentConfigSchema }

def suspend (task : Task) (s : AgentRuntime) : AgentRuntime :=
  { s with tasks := s.tasks ++ [task] }

/-- Take up a task. -/
def detach (i : Nat) (s : AgentRuntime) : AgentRuntime :=
  { s with tasks := s.tasks.eraseIdx i }

def setSnapshot (ns : String) (value : Json) (s : AgentRuntime) : AgentRuntime :=
  { s with agentConfigSnapshot := s.agentConfigSnapshot.set ns value }

/-- `ensureAgentConfigLoaded` returns, to a set if one has waited for it. -/
def returned (change : Option Change) (s : AgentRuntime) : AgentRuntime :=
  match change with
  | none => s
  | some change => s.suspend (.loadReturned change)

/-- The loop of `ensureAgentConfigLoaded` up to its next await. -/
def loadEntries (entries : Schemas) (change : Option Change) (s : AgentRuntime) : AgentRuntime :=
  match entries with
  | [] => { s with agentConfigLoaded := true }.returned change
  | (ns, nsSchema) :: rest => s.suspend (.reading ns nsSchema rest change none)

def ensureAgentConfigLoaded (change : Option Change) (s : AgentRuntime) : AgentRuntime :=
  if s.agentConfigLoaded then s.returned change
  else s.cacheSchema.loadEntries s.getCachedAgentConfigSchema change

/-- The loop goes on with the stored value of a namespace. -/
def entryRead (ns : String) (nsSchema : SchemaValue) (rest : Schemas) (change : Option Change)
    (stored : Option Json) (s : AgentRuntime) : AgentRuntime :=
  match stored with
  | none => (s.setSnapshot ns (typeBox.create nsSchema)).loadEntries rest change
  | some stored =>
    if typeBox.check nsSchema stored then (s.setSnapshot ns stored).loadEntries rest change
    else
      (s.setSnapshot ns (typeBox.create nsSchema)).suspend
        (.readingOrphans ns stored rest change none)

/-- `{ ...existingOrphans }` of what is stored as the orphans. -/
def existingOrphans : Option Json → JsonObject
  | some (.obj members) => members.foldl (fun o m => o.set m.1 m.2) .empty
  | some (.arr items) =>
    (objectEntries (some (.arr items))).foldl (fun o m => o.set m.1 m.2) .empty
  | _ => .empty

/-- What is noted of a stored value that does not fit its schema. -/
def orphanRecord (stored : Json) (now : String) : Json :=
  .obj [("persistedValue", stored), ("recordedAt", .str now), ("schemaCheckFailed", .bool true)]

/-- `Value.Check` of a set, with the schema that decides it. -/
def checkedChange (schemas : Schemas) (ns : String) (value : Json) : Option Change :=
  (schemas.lookup ns).bind fun schema =>
    if typeBox.check schema value then some ⟨ns, value, schema⟩ else none

/-- The set takes the old value and persists the new one. -/
def persist (change : Change) (s : AgentRuntime) : AgentRuntime :=
  let oldValue := (s.agentConfigSnapshot.get change.ns).getD (typeBox.create change.schema)
  s.suspend (.persisting change oldValue false)

def applyAgentConfigSet (ns : String) (value : Json) (s : AgentRuntime) : AgentRuntime :=
  let s := s.cacheSchema
  match checkedChange typeBox s.getCachedAgentConfigSchema ns value with
  | none => s
  | some change => s.ensureAgentConfigLoaded (some change)

/-- The agent-level branch of the `config_set` tool. -/
def configSet (context : Nat) (ns : String) (value : Json) (s : AgentRuntime) : AgentRuntime :=
  match (s.contexts[context]?).bind fun schemas => checkedChange typeBox schemas ns value with
  | none => s
  | some change => s.persist typeBox change

/-- The first hook whose slices differ, with the hooks after it. -/
def nextCall (dispatch : Dispatch) (live : JsonObject) : List Hook → Option (HookCall × List Hook)
  | [] => none
  | hook :: rest =>
    let oldSlice := hook.slice dispatch.priorSnapshot
    let newSlice := hook.slice live
    if sliceEqual oldSlice newSlice then nextCall dispatch live rest
    else some (⟨hook, oldSlice, newSlice, dispatch⟩, rest)

def callHook (call : HookCall) (rest : List Hook) (isStatic : Bool) (s : AgentRuntime) :
    AgentRuntime :=
  { s with calls := s.calls ++ [call] }.suspend (.calling call.dispatch rest isStatic)

/-- The second loop of `handleAgentConfigSet`, over the paths that the bundle declares. -/
def callBundleHooks (dispatch : Dispatch) (hooks : List Hook) (s : AgentRuntime) : AgentRuntime :=
  match nextCall dispatch s.agentConfigSnapshot hooks with
  | none => s
  | some (call, rest) => s.callHook call rest false

/-- `handleAgentConfigSet` up to its next await, from the hooks of the host on. -/
def callStaticHooks (dispatch : Dispatch) (hooks : List Hook) (s : AgentRuntime) : AgentRuntime :=
  match nextCall dispatch s.agentConfigSnapshot hooks with
  | none => s.callBundleHooks dispatch (bundleHooks s.installed.bundleCapabilityAgentConfigPaths)
  | some (call, rest) => s.callHook call rest true

/-- The set goes on when its value is persisted. -/
def publish (change : Change) (oldValue : Json) (s : AgentRuntime) : AgentRuntime :=
  let after := s.setSnapshot change.ns change.value
  let prior := after.agentConfigSnapshot.set change.ns oldValue
  after.callStaticHooks ⟨prior, s.agentConfigSnapshot, after.agentConfigSnapshot⟩
    (staticHooks capabilities)

/-- Write to the storage. -/
def store (ns : String) (value : Json) (s : AgentRuntime) : AgentRuntime :=
  { s with stored := Function.update s.stored ns (some value) }

def served (s : AgentRuntime) : Task → Task × AgentRuntime
  | .reading ns nsSchema rest change none =>
    (.reading ns nsSchema rest change (some (s.stored ns)), s)
  | .readingOrphans ns stored rest change none =>
    (.readingOrphans ns stored rest change (some (s.stored orphansKey)), s)
  | .writingOrphans orphans rest change false =>
    (.writingOrphans orphans rest change true, s.store orphansKey orphans.toJson)
  | .persisting change oldValue false =>
    (.persisting change oldValue true, s.store change.ns change.value)
  | task => (task, s)

def serve (i : Nat) (s : AgentRuntime) : AgentRuntime :=
  match s.tasks[i]? with
  | none => s
  | some task =>
    let (task, s) := s.served task
    { s with tasks := s.tasks.set i task }

/-- A task that has been taken up goes on; one without its answer waits on. -/
def goOn (now : String) (s : AgentRuntime) : Task → AgentRuntime
  | .reading ns nsSchema rest change (some stored) =>
    s.entryRead typeBox ns nsSchema rest change stored
  | .readingOrphans ns stored rest change (some existing) =>
    s.suspend (.writingOrphans ((existingOrphans existing).set ns (orphanRecord stored now))
      rest change false)
  | .writingOrphans _ rest change true => s.loadEntries rest change
  | .loadReturned change => s.persist typeBox change
  | .persisting change oldValue true => s.publish capabilities change oldValue
  | .calling dispatch hooks true => s.callStaticHooks dispatch hooks
  | .calling dispatch hooks false => s.callBundleHooks dispatch hooks
  | task => s.suspend task

def resume (i : Nat) (now : String) (s : AgentRuntime) : AgentRuntime :=
  match s.tasks[i]? with
  | none => s
  | some task => (s.detach i).goOn typeBox capabilities now task

/-- `installBundleConfigMetadata` and `invalidateBundleConfigCaches`. -/
def install (loaded : Option BundleConfigMetadata) (s : AgentRuntime) : AgentRuntime :=
  { s with installed := installBundleConfigMetadata loaded, cachedAgentConfigSchema := none }

/-- `collectAllTools` of a session, which comes after its load. -/
def collectTools (s : AgentRuntime) : AgentRuntime :=
  if s.agentConfigLoaded then
    { s.cacheSchema with contexts := s.contexts ++ [s.getCachedAgentConfigSchema] }
  else s

/-- A new instance over the same storage. -/
def hibernate (s : AgentRuntime) : AgentRuntime :=
  { stored := s.stored, hostSchema := s.hostSchema, calls := s.calls }

def step (s : AgentRuntime) : Event → AgentRuntime
  | .load => s.ensureAgentConfigLoaded none
  | .collectTools => s.collectTools
  | .applyAgentConfigSet ns value => s.applyAgentConfigSet typeBox ns value
  | .configSet context ns value => s.configSet typeBox context ns value
  | .serve i => s.serve i
  | .resume i now => s.resume typeBox capabilities i now
  | .install loaded => s.install loaded
  | .hibernate => s.hibernate

end AgentRuntime

end CrabbyKit.AgentConfig
