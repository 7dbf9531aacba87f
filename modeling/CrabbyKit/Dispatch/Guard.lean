import CrabbyKit.Dispatch.Caches

/-!
# The checks before a dispatch

What the dispatcher compares between a version's metadata and the host, and which dispatches a
version has declared. Any registry is read through the same two calls.
-/

namespace CrabbyKit.DispatchHost

open BundleRegistry

/-- What a registry says for an agent: the active version, and the metadata that `getVersion` hands
out. A registry without `getVersion` hands out none. -/
structure RegistryView where
  activeVersionId : Option String
  metadata : String → Except RegistryError (Option Json)

/-- The D1 registry, which parses what it has stored. -/
def viewOfD1 (registry : D1State) (agentId : String) : RegistryView where
  activeVersionId := registry.getActiveForAgent agentId
  metadata versionId :=
    (registry.getVersion versionId).map fun version => version.bind BundleVersion.metadata

def viewOfMemory (registry : MemoryState) (agentId : String) : RegistryView where
  activeVersionId := registry.getActiveForAgent agentId
  metadata versionId := .ok (registry.metadata versionId)

structure HostSurface where
  bundleHostCapabilityIds : List String := []
  resolvedHttpHandlerSpecs : List RouteSpec := []
  agentConfigSchema : List String := []
  configNamespaces : List String := []

/-- The checks of `validateCatalogCached`, of which the first that fails is told. -/
def validateCatalog (host : HostSurface) (metadata : Option Json) :
    Except RegistryError (Option DisableReason) := do
  let missing ← missingIds (metadataField "requiredCapabilities" metadata)
    host.bundleHostCapabilityIds
  if missing ≠ [] then return some (.capabilityMismatch missing)
  let surfaces := metadataField "surfaces" metadata
  let collisions ← match truthyField "httpRoutes" surfaces with
    | some declared => validateBundleRoutesAgainstKnownRoutes declared host.resolvedHttpHandlerSpecs
    | none => .ok []
  if collisions ≠ [] then return some (.httpRouteCollision collisions)
  let colliding ← match truthyField "actionCapabilityIds" surfaces with
    | some declared => validateBundleActionIdsAgainstKnownIds declared host.bundleHostCapabilityIds
    | none => .ok []
  if colliding ≠ [] then return some (.actionIdCollision colliding)
  return none

def clashes (declared : List (Option Json)) (known : List String) : List String :=
  (declared.filterMap fun id => id.bind Json.asString).filter (· ∈ known)

/-- `path.split(".")[0]` -/
def firstSegment (path : String) : String := String.ofList (path.toList.takeWhile (· ≠ '.'))

/-- `validateBundleConfigDeclarations`, over what is installed on the runtime. -/
def validateBundleConfigDeclarations (host : HostSurface) (installed : InstalledConfig) :
    Option DisableReason :=
  let bundleAgentKeys := (installed.bundleAgentConfigSchemaMetadata.getD []).map Prod.fst
  let agentClashes := bundleAgentKeys.filter (· ∈ host.agentConfigSchema)
  let nsClashes := clashes
    ((installed.bundleConfigNamespaceMetadata.getD []).map ConfigNamespace.id) host.configNamespaces
  let capClashes := clashes
    ((installed.bundleCapabilityConfigMetadata.getD []).map CapabilityConfig.id)
    host.bundleHostCapabilityIds
  let mergedNsKeys := (bundleAgentKeys ++ host.agentConfigSchema).eraseDups
  if agentClashes ≠ [] then some (.agentConfigCollision agentClashes)
  else if nsClashes ≠ [] then some (.configNamespaceCollision nsClashes)
  else if capClashes ≠ [] then some (.capabilityConfigCollision capClashes)
  else
    let unresolvable := (installed.bundleCapabilityAgentConfigPaths.getD []).find? fun entry =>
      firstSegment entry.agentConfigPath ≠ "" ∧ firstSegment entry.agentConfigPath ∉ mergedNsKeys
    unresolvable.map fun entry =>
      .agentConfigPathUnresolvable ((entry.id.bind Json.asString).getD "undefined")
        entry.agentConfigPath mergedNsKeys

/-- The config of a version as the refresher would install it. -/
def RegistryView.config (registry : RegistryView) (versionId : String) :
    Except RegistryError InstalledConfig := do
  match ← registry.metadata versionId with
  | none => .ok (installBundleConfigMetadata none)
  | some metadata =>
    if metadata.truthy then do
      let loaded ← configOfMetadata metadata
      .ok (installBundleConfigMetadata (some loaded))
    else .ok (installBundleConfigMetadata none)

/-- The hooks with a flag of their own in the metadata. -/
inductive LifecycleHook
  | onAlarm
  | onSessionCreated
  | onClientEvent
  | afterTurn
  | onConnect
  | dispose
  | onTurnEnd
  | onAgentEnd
  deriving DecidableEq, Repr

def LifecycleHook.key : LifecycleHook → String
  | onAlarm => "onAlarm"
  | onSessionCreated => "onSessionCreated"
  | onClientEvent => "onClientEvent"
  | afterTurn => "afterTurn"
  | onConnect => "onConnect"
  | dispose => "dispose"
  | onTurnEnd => "onTurnEnd"
  | onAgentEnd => "onAgentEnd"

inductive ConfigEndpoint
  | configChange (capabilityId : String)
  | agentConfigChange (capabilityId : String)
  | configNamespaceGet
  | configNamespaceSet
  deriving DecidableEq, Repr

/-- The ways into a bundle. -/
inductive Dispatch
  | turn
  | http (method pathname : String)
  | action (capabilityId : String)
  | lifecycle (hook : LifecycleHook)
  | config (endpoint : ConfigEndpoint)
  deriving DecidableEq, Repr

/-- Whether `matchPathPattern` finds a match: a segment with a colon takes any text. -/
def matchPathPattern (pattern pathname : String) : Bool :=
  let patternSegments := pattern.toList.splitOn '/'
  let pathSegments := pathname.toList.splitOn '/'
  patternSegments.length = pathSegments.length &&
    (patternSegments.zip pathSegments).all fun pair =>
      if pair.1.head? = some ':' then pair.2 ≠ [] else pair.1 = pair.2

def takesRequest (method pathname : String) (decl : Json) : Bool :=
  (Json.field "method" decl).bind Json.asString = some method &&
    ((Json.field "path" decl).bind Json.asString).any (matchPathPattern · pathname) &&
    ((Json.field "capabilityId" decl).bind Json.asString).any (· ≠ "")

/-- Whether the metadata of a version lets a dispatch on to the guard or to the bundle. -/
def Dispatch.gate (metadata : Option Json) : Dispatch → Bool
  | turn | config _ => true
  | http method pathname =>
    (((metadataField "surfaces" metadata).bind (Json.field "httpRoutes")).bind
      Json.asArray).any fun declared => declared.any (takesRequest method pathname)
  | action capabilityId =>
    (((metadataField "surfaces" metadata).bind (Json.field "actionCapabilityIds")).bind
      Json.asArray).any fun declared => declared.any fun id => id.asString = some capabilityId
  | lifecycle hook =>
    match (metadataField "lifecycleHooks" metadata).bind (Json.field hook.key) with
    | some (.bool true) => true
    | _ => false

/-- Whether a config endpoint is called at all. -/
def Dispatch.declared (installed : InstalledConfig) : Dispatch → Bool
  | config (.configChange capabilityId) =>
    (installed.bundleCapabilityConfigMetadata.getD []).any fun c =>
      c.id.bind Json.asString = some capabilityId
  | config (.agentConfigChange capabilityId) =>
    (installed.bundleCapabilityAgentConfigPaths.getD []).any fun c =>
      c.id.bind Json.asString = some capabilityId
  | _ => true

def RegistryView.cleared (registry : RegistryView) : RegistryView :=
  { registry with activeVersionId := none }

/-!
# The dispatch guard

`runDispatchGuard` and the paths that load a bundle, cut where they wait, so that dispatches,
refreshes and disables interleave. The memo is set before the config check and stays until the
pointer is cleared. Epochs and the versions that have passed the whole guard are ghosts.
-/

/-- For what `checkActiveBundle` is called. -/
inductive Stage
  | first
  /-- After the drift check of a turn, which keeps its version when nothing is active. -/
  | rebuilt (versionId : String)
  /-- After a gate or the guard. -/
  | again
  deriving DecidableEq, Repr

/-- What an activity waits for. -/
inductive DispatchTask
  | idle
  /-- The stored pointer. -/
  | looking (dispatch : Dispatch) (stage : Stage)
  /-- The pointer in the registry, as there is none stored. -/
  | reading (dispatch : Dispatch) (stage : Stage) (read : Option String)
  | rebuilding (versionId : String)
  | gating (dispatch : Dispatch) (versionId : String)
  | guarding (dispatch : Dispatch) (versionId : String)
  | validating (dispatch : Dispatch) (versionId : String)
  /-- The version has passed `validateCatalogCached` in an epoch. -/
  | checkingConfig (dispatch : Dispatch) (versionId : String) (epoch : Nat)
  /-- The token; the bundle is loaded next. -/
  | loading (dispatch : Dispatch) (versionId : String)
  /-- The write of a disable by the guard, which swallows the registry's error. -/
  | disabling (versionId : String) (clearsConfig : Bool)
  /-- The write of an auto-revert, which swallows it too, or of a disable from outside. -/
  | clearing (swallows : Bool)
  /-- The registry was written, and the host's own state was not. -/
  | cleared (versionId : Option String) (clearsConfig : Bool)
  | refreshing
  /-- The pointer was read for a refresh. -/
  | storing (read : Option String)
  /-- The metadata of the version that was read. -/
  | installing (versionId : String)
  deriving DecidableEq, Repr

structure GuardState where
  host : HostSurface
  registry : RegistryView
  activeBundleVersionId : Option (Option String)
  validatedVersionId : Option String := none
  installed : InstalledConfig := {}
  autoRebuildAttempted : Bool := false
  tasks : Nat → DispatchTask := fun _ => .idle
  /-- How often the host has seen the pointer change or was started. -/
  epoch : Nat := 0
  /-- The versions that have passed the whole guard in this epoch, and failed no check since. -/
  passed : List String := []

inductive GuardEvent
  | start (task : Nat) (dispatch : Dispatch)
  | refresh (task : Nat)
  /-- An auto-revert, or `POST /bundle/disable`. -/
  | disable (task : Nat) (swallows : Bool)
  /-- What a task waits for is there. -/
  | advance (task : Nat)
  /-- It is not: the call throws. -/
  | fail (task : Nat)
  /-- Any change of the registry, also by a capability or a rebuild of this host. -/
  | elsewhere (registry : RegistryView)
  | wake (host : HostSurface)

def PassesConfig (host : HostSurface) (registry : RegistryView) (versionId : String) : Bool :=
  match registry.config versionId with
  | .ok installed => (validateBundleConfigDeclarations host installed).isNone
  | .error _ => false

namespace Dispatch

/-- What comes after the gate: a hook is dispatched without the guard. -/
def afterGate (dispatch : Dispatch) (versionId : String) : DispatchTask :=
  match dispatch with
  | lifecycle _ => .looking dispatch .again
  | _ => .guarding dispatch versionId

/-- What comes after the guard: only a turn keeps the version that was guarded. -/
def afterGuard (dispatch : Dispatch) (versionId : String) : DispatchTask :=
  match dispatch with
  | turn => .loading dispatch versionId
  | _ => .looking dispatch .again

/-- What comes after an active version was found. -/
def found (dispatch : Dispatch) (versionId : String) (attempted : Bool) : DispatchTask :=
  match dispatch with
  | turn => if attempted then .guarding dispatch versionId else .rebuilding versionId
  | config _ => .loading dispatch versionId
  | _ => .gating dispatch versionId

/-- What comes after `checkActiveBundle`. -/
def afterCheck (dispatch : Dispatch) (id : Option String) (attempted : Bool) : Stage → DispatchTask
  | .first => (truthy id).elim .idle fun versionId => dispatch.found versionId attempted
  | .rebuilt versionId => .guarding dispatch ((truthy id).getD versionId)
  | .again => (truthy id).elim .idle fun versionId => .loading dispatch versionId

end Dispatch

namespace GuardState

def setTask (s : GuardState) (task : Nat) (value : DispatchTask) : GuardState :=
  { s with tasks := Function.update s.tasks task value }

/-- The stored pointer is written; the value that it has is no change. -/
def seen (s : GuardState) (id : Option String) : GuardState :=
  if s.activeBundleVersionId = some id then s
  else { s with activeBundleVersionId := some id, epoch := s.epoch + 1, passed := [] }

def rejected (s : GuardState) (task : Nat) (versionId : String) (reason : DisableReason) :
    GuardState :=
  { s with passed := s.passed.filter (· ≠ versionId) }.setTask task
    (.disabling versionId reason.clearsConfig)

/-- A version has passed `validateCatalogCached`. -/
def remembered (s : GuardState) (versionId : String) : GuardState :=
  { s with validatedVersionId := some versionId }

/-- The config check has passed, over what is installed. -/
def accepted (s : GuardState) (versionId : String) (epoch : Nat) : GuardState :=
  if epoch = s.epoch ∧ PassesConfig s.host s.registry versionId then
    { s with passed := versionId :: s.passed }
  else s

def advance (s : GuardState) (task : Nat) : GuardState :=
  match s.tasks task with
  | .idle => s
  | .looking dispatch stage =>
    match s.activeBundleVersionId with
    | some id => s.setTask task (dispatch.afterCheck id s.autoRebuildAttempted stage)
    | none => s.setTask task (.reading dispatch stage s.registry.activeVersionId)
  | .reading dispatch stage read =>
    (s.seen read).setTask task (dispatch.afterCheck read s.autoRebuildAttempted stage)
  | .rebuilding versionId =>
    { s with autoRebuildAttempted := true }.setTask task (.looking .turn (.rebuilt versionId))
  | .gating dispatch versionId =>
    match s.registry.metadata versionId with
    | .error _ => s.setTask task .idle
    | .ok metadata =>
      s.setTask task (if dispatch.gate metadata then dispatch.afterGate versionId else .idle)
  | .guarding dispatch versionId =>
    s.setTask task (if s.validatedVersionId = some versionId then dispatch.afterGuard versionId
      else .validating dispatch versionId)
  | .validating dispatch versionId =>
    match s.registry.metadata versionId >>= validateCatalog s.host with
    | .error _ => s.setTask task .idle
    | .ok (some reason) => s.rejected task versionId reason
    | .ok none =>
      (s.remembered versionId).setTask task (.checkingConfig dispatch versionId s.epoch)
  | .checkingConfig dispatch versionId epoch =>
    match validateBundleConfigDeclarations s.host s.installed with
    | some reason => s.rejected task versionId reason
    | none => (s.accepted versionId epoch).setTask task (dispatch.afterGuard versionId)
  | .loading _ _ => s.setTask task .idle
  | .disabling versionId clearsConfig =>
    { s with registry := s.registry.cleared }.setTask task (.cleared (some versionId) clearsConfig)
  | .clearing _ => { s with registry := s.registry.cleared }.setTask task (.cleared none false)
  | .cleared _ clearsConfig =>
    ({ s with
        validatedVersionId := none
        installed := if clearsConfig then installBundleConfigMetadata none
          else s.installed }.seen none).setTask task .idle
  | .refreshing => s.setTask task (.storing s.registry.activeVersionId)
  | .storing read =>
    match truthy read with
    | some versionId => (s.seen read).setTask task (.installing versionId)
    | none =>
      { s.seen read with installed := installBundleConfigMetadata none }.setTask task .idle
  | .installing versionId =>
    match s.registry.config versionId with
    | .error _ => s.setTask task .idle
    | .ok installed => { s with installed := installed }.setTask task .idle

/-- A throw ends a task, unless it is swallowed or nothing there can throw. -/
def fail (s : GuardState) (task : Nat) : GuardState :=
  match s.tasks task with
  | .disabling versionId clearsConfig => s.setTask task (.cleared (some versionId) clearsConfig)
  | .clearing swallows => s.setTask task (if swallows then .cleared none false else .idle)
  | .rebuilding _ | .guarding _ _ | .checkingConfig _ _ _ | .cleared _ _ => s
  | _ => s.setTask task .idle

def step (s : GuardState) : GuardEvent → GuardState
  | .start task dispatch =>
    if s.tasks task = .idle ∧ dispatch.declared s.installed then
      s.setTask task (.looking dispatch .first)
    else s
  | .refresh task =>
    if s.tasks task = .idle then { s with validatedVersionId := none }.setTask task .refreshing
    else s
  | .disable task swallows =>
    if s.tasks task = .idle then s.setTask task (.clearing swallows) else s
  | .advance task => s.advance task
  | .fail task => s.fail task
  | .elsewhere registry => { s with registry := registry }
  | .wake host =>
    { host := host, registry := s.registry, activeBundleVersionId := s.activeBundleVersionId,
      epoch := s.epoch + 1 }

end GuardState

/-- A version that is loaded has passed the whole guard since the pointer was last seen to change
and since the host was started, and has failed no check after that. -/
def Covered (s : GuardState) : GuardEvent → Prop
  | .advance task =>
    ∀ dispatch versionId, s.tasks task = .loading dispatch versionId → versionId ∈ s.passed
  | _ => True

/-- The memo holds a version already, and the rest of its checks or the disable is under way. -/
def DispatchTask.Undecided (epoch : Nat) (versionId : String) : DispatchTask → Prop
  | checkingConfig _ checked started => checked = versionId ∧ started = epoch
  | disabling failed _ => failed = versionId
  | cleared failed _ => failed = some versionId
  | _ => False

/-- A bundle is loaded only while the memo holds its version and nothing about the version is
undecided; the config check does not pass on the declarations of another version when those of the
version fail; and the stored pointer does not change under a memo that was set since the read. -/
def Orderly (s : GuardState) : GuardEvent → Prop
  | .advance task =>
    match s.tasks task with
    | .loading _ versionId =>
      s.validatedVersionId = some versionId ∧
        ∀ other, ¬(s.tasks other).Undecided s.epoch versionId
    | .checkingConfig _ versionId _ =>
      validateBundleConfigDeclarations s.host s.installed = none →
        PassesConfig s.host s.registry versionId
    | .reading _ _ read | .storing read =>
      s.activeBundleVersionId = some read ∨ s.validatedVersionId = none
    | _ => True
  | _ => True

/-- The version in the memo has passed the guard, or it is undecided. -/
def Backed (s : GuardState) : Prop :=
  ∀ versionId, s.validatedVersionId = some versionId →
    versionId ∈ s.passed ∨ ∃ task, (s.tasks task).Undecided s.epoch versionId

variable {s : GuardState}

theorem backed_of_none (h : s.validatedVersionId = none) : Backed s := by
  intro versionId hmemo
  rw [h] at hmemo
  cases hmemo

variable {task : Nat}

theorem backed_setTask (h : Backed s) {value : DispatchTask}
    (hkept : ∀ versionId, s.validatedVersionId = some versionId →
      (s.tasks task).Undecided s.epoch versionId →
        versionId ∈ s.passed ∨ value.Undecided s.epoch versionId) :
    Backed (s.setTask task value) := by
  intro versionId hmemo
  rcases h versionId hmemo with hpassed | ⟨other, hother⟩
  · exact Or.inl hpassed
  · by_cases heq : other = task
    · subst heq
      refine (hkept versionId hmemo hother).imp id fun hvalue => ⟨other, ?_⟩
      change (Function.update s.tasks other value other).Undecided s.epoch versionId
      rwa [Function.update_self]
    · refine Or.inr ⟨other, ?_⟩
      change (Function.update s.tasks task value other).Undecided s.epoch versionId
      rwa [Function.update_of_ne heq]

theorem backed_setTask_plain (h : Backed s) {old : DispatchTask} (value : DispatchTask)
    (htask : s.tasks task = old) (hplain : ∀ versionId, ¬old.Undecided s.epoch versionId) :
    Backed (s.setTask task value) := by
  apply backed_setTask h
  intro versionId _ hold
  rw [htask] at hold
  exact absurd hold (hplain versionId)

variable (id : Option String)

theorem seen_eq_or_none (h : s.activeBundleVersionId = some id ∨ s.validatedVersionId = none) :
    s.seen id = s ∨ (s.seen id).validatedVersionId = none := by
  unfold GuardState.seen
  split
  · exact Or.inl rfl
  · rename_i hchanged
    exact Or.inr (h.resolve_left hchanged)

theorem tasks_seen : (s.seen id).tasks = s.tasks := by
  unfold GuardState.seen
  split <;> rfl

theorem validatedVersionId_seen : (s.seen id).validatedVersionId = s.validatedVersionId := by
  unfold GuardState.seen
  split <;> rfl

theorem backed_seen (h : Backed s) {id : Option String}
    (horderly : s.activeBundleVersionId = some id ∨ s.validatedVersionId = none) :
    Backed (s.seen id) := by
  rcases seen_eq_or_none id horderly with hsame | hnone
  · rwa [hsame]
  · exact backed_of_none hnone

variable {versionId : String}

theorem backed_rejected (h : Backed s) (reason : DisableReason)
    (hplain : ∀ other, (s.tasks task).Undecided s.epoch other → other = versionId) :
    Backed (s.rejected task versionId reason) := by
  intro other hmemo
  have htask : ∀ t, (s.rejected task versionId reason).tasks t =
      if t = task then .disabling versionId reason.clearsConfig else s.tasks t :=
    fun t => Function.update_apply s.tasks task _ t
  by_cases heq : other = versionId
  · subst heq
    refine Or.inr ⟨task, ?_⟩
    rw [htask, if_pos rfl]
    rfl
  · rcases h other hmemo with hpassed | ⟨t, ht⟩
    · exact Or.inl (List.mem_filter.mpr ⟨hpassed, decide_eq_true heq⟩)
    · have hne : t ≠ task := by
        rintro rfl
        exact heq (hplain other ht)
      refine Or.inr ⟨t, ?_⟩
      rw [htask, if_neg hne]
      exact ht

theorem accepted_memo (versionId : String) (epoch : Nat) :
    (s.accepted versionId epoch).validatedVersionId = s.validatedVersionId ∧
      (s.accepted versionId epoch).tasks = s.tasks ∧
      (s.accepted versionId epoch).epoch = s.epoch := by
  unfold GuardState.accepted
  split <;> exact ⟨rfl, rfl, rfl⟩

theorem mem_accepted {other : String} {epoch : Nat}
    (h : other ∈ s.passed ∨ other = versionId ∧ epoch = s.epoch ∧
      PassesConfig s.host s.registry versionId = true) :
    other ∈ (s.accepted versionId epoch).passed := by
  unfold GuardState.accepted
  split
  · rcases h with hbefore | ⟨rfl, -⟩
    · exact List.mem_cons_of_mem _ hbefore
    · exact List.mem_cons_self
  · rename_i hnot
    rcases h with hbefore | ⟨-, hnow⟩
    · exact hbefore
    · exact absurd hnow hnot

theorem backed_advance (h : Backed s) (he : Orderly s (.advance task)) :
    Backed (s.advance task) := by
  unfold Orderly at he
  unfold GuardState.advance
  cases htask : s.tasks task with
  | idle => exact h
  | looking dispatch stage =>
    simp only
    split
    · exact backed_setTask_plain h _ htask fun _ => id
    · exact backed_setTask_plain h _ htask fun _ => id
  | reading dispatch stage read =>
    simp only [htask] at he
    have hreading : (s.seen read).tasks task = .reading dispatch stage read := by
      rw [tasks_seen, htask]
    exact backed_setTask_plain (backed_seen h he) _ hreading fun _ => id
  | rebuilding versionId =>
    have hbacked : Backed { s with autoRebuildAttempted := true } := h
    exact backed_setTask_plain hbacked _ htask fun _ => id
  | gating dispatch versionId =>
    simp only
    split
    · exact backed_setTask_plain h _ htask fun _ => id
    · exact backed_setTask_plain h _ htask fun _ => id
  | guarding dispatch versionId => exact backed_setTask_plain h _ htask fun _ => id
  | validating dispatch versionId =>
    simp only
    split
    · exact backed_setTask_plain h _ htask fun _ => id
    · apply backed_rejected h
      rw [htask]
      exact fun _ hother => hother.elim
    · intro other hmemo
      -- the memo is set, and the config check is what is left
      obtain rfl := Option.some.inj hmemo
      refine Or.inr ⟨task, ?_⟩
      simp [GuardState.setTask, GuardState.remembered, DispatchTask.Undecided]
  | checkingConfig dispatch versionId epoch =>
    simp only [htask] at he
    simp only
    split
    · apply backed_rejected h
      rw [htask]
      exact fun other hother => hother.1.symm
    · rename_i hpass
      obtain ⟨hmemo, htasks, hepoch⟩ := accepted_memo (s := s) versionId epoch
      have hbacked : Backed (s.accepted versionId epoch) := by
        intro other hother
        rw [hmemo] at hother
        rw [htasks, hepoch]
        exact (h other hother).imp (fun hbefore => mem_accepted (Or.inl hbefore)) id
      apply backed_setTask hbacked
      intro other _ hother
      rw [htasks, htask, hepoch] at hother
      obtain ⟨rfl, hnow⟩ := hother
      exact Or.inl (mem_accepted (Or.inr ⟨rfl, hnow, he hpass⟩))
  | loading dispatch versionId => exact backed_setTask_plain h _ htask fun _ => id
  | disabling versionId clearsConfig =>
    have hbacked : Backed { s with registry := s.registry.cleared } := h
    apply backed_setTask hbacked
    intro other _ hother
    simp only [htask] at hother
    exact Or.inr (congrArg some hother)
  | clearing swallows =>
    have hbacked : Backed { s with registry := s.registry.cleared } := h
    exact backed_setTask_plain hbacked _ htask fun _ => id
  | cleared versionId clearsConfig =>
    apply backed_of_none
    exact validatedVersionId_seen none
  | refreshing => exact backed_setTask_plain h _ htask fun _ => id
  | storing read =>
    simp only [htask] at he
    have hbacked := backed_seen h he
    have hstoring : (s.seen read).tasks task = .storing read := by rw [tasks_seen, htask]
    simp only
    split
    · exact backed_setTask_plain hbacked _ hstoring fun _ => id
    · have hcleared : Backed { s.seen read with installed := installBundleConfigMetadata none } :=
        hbacked
      exact backed_setTask_plain hcleared _ hstoring fun _ => id
  | installing versionId =>
    simp only
    split
    · exact backed_setTask_plain h _ htask fun _ => id
    · rename_i installed _
      have hinstalled : Backed { s with installed := installed } := h
      exact backed_setTask_plain hinstalled _ htask fun _ => id

theorem backed_fail (h : Backed s) (task : Nat) : Backed (s.fail task) := by
  unfold GuardState.fail
  cases htask : s.tasks task with
  | disabling versionId clearsConfig =>
    apply backed_setTask h
    intro other _ hother
    rw [htask] at hother
    exact Or.inr (congrArg some hother)
  | rebuilding _ => exact h
  | guarding _ _ => exact h
  | checkingConfig _ _ _ => exact h
  | cleared _ _ => exact h
  | _ => exact backed_setTask_plain h _ htask fun _ => id

theorem backed_step (h : Backed s) (e : GuardEvent) (he : Orderly s e) : Backed (s.step e) := by
  cases e with
  | start task dispatch =>
    simp only [GuardState.step]
    split
    · rename_i hstart
      exact backed_setTask_plain h _ hstart.1 fun _ => id
    · exact h
  | refresh task =>
    simp only [GuardState.step]
    split
    · exact backed_of_none rfl
    · exact h
  | disable task swallows =>
    simp only [GuardState.step]
    split
    · rename_i hidle
      exact backed_setTask_plain h _ hidle fun _ => id
    · exact h
  | advance task => exact backed_advance h he
  | fail task => exact backed_fail h task
  | elsewhere registry => exact h
  | wake host => exact backed_of_none rfl

theorem covered_of_backed (h : Backed s) (e : GuardEvent) (he : Orderly s e) : Covered s e := by
  cases e with
  | advance task =>
    intro dispatch versionId htask
    unfold Orderly at he
    simp only [htask] at he
    obtain ⟨hmemo, hdecided⟩ := he
    rcases h versionId hmemo with hpassed | ⟨other, hother⟩
    · exact hpassed
    · exact absurd hother (hdecided other)
  | _ => trivial

/-- The host when it is started: the pointer is what it stored last time, if anything. -/
def coldStart (host : HostSurface) (registry : RegistryView) (stored : Option (Option String)) :
    GuardState :=
  { host := host, registry := registry, activeBundleVersionId := stored }

/-- In a run of dispatches, refreshes, disables, new wakes and changes of the registry in any
order, all of whose steps are orderly, every version that is loaded has passed the whole guard. -/
theorem loads_guarded (host : HostSurface) (registry : RegistryView)
    (stored : Option (Option String)) {events : List GuardEvent}
    (h : Run.Allowed Orderly GuardState.step (coldStart host registry stored) events) :
    Run.Allowed Covered GuardState.step (coldStart host registry stored) events := by
  intro before e after hsplit
  have hbacked := Run.invariant_of_allowed (I := Backed) (backed_of_none rfl)
    (fun _ e hs he => backed_step hs e he) h before (e :: after) hsplit
  exact covered_of_backed hbacked e (h before e after hsplit)

def activeRegistry (metadata : JsonObject) : RegistryView :=
  viewOfMemory
    { versions := [⟨"v1", [1], some metadata, 1700000000000⟩]
      pointers := [⟨"researcher", some "v1", none, 1700000000000⟩] } "researcher"

def searchingHost : HostSurface where
  bundleHostCapabilityIds := ["web-search"]
  configNamespaces := ["crm"]

/-- A version that the host can run, and that hears the schedule's alarms. -/
def alarmMetadata : JsonObject :=
  ⟨[("requiredCapabilities", .arr [.obj [("id", .str "web-search")]]),
    ("lifecycleHooks", .obj [("onAlarm", .bool true)])], by decide⟩

def guardedAlarm : List GuardEvent :=
  [.start 0 .turn, .advance 0, .advance 0, .advance 0, .advance 0, .advance 0, .advance 0,
    .advance 0, .start 0 (.lifecycle .onAlarm), .advance 0, .advance 0, .advance 0, .advance 0]

theorem guardedAlarm_orderly : Run.Allowed Orderly GuardState.step
    (coldStart searchingHost (activeRegistry alarmMetadata) (some (some "v1"))) guardedAlarm := by
  refine Run.allowed_cons trivial ?_
  refine Run.allowed_cons trivial ?_
  refine Run.allowed_cons trivial ?_
  refine Run.allowed_cons trivial ?_
  refine Run.allowed_cons trivial ?_
  refine Run.allowed_cons trivial ?_
  refine Run.allowed_cons (fun _ => rfl) ?_
  refine Run.allowed_cons ?_ ?_
  · refine ⟨rfl, fun other => ?_⟩
    rcases other with _ | n
    · exact id
    · exact id
  refine Run.allowed_cons trivial ?_
  refine Run.allowed_cons trivial ?_
  refine Run.allowed_cons trivial ?_
  refine Run.allowed_cons trivial ?_
  refine Run.allowed_cons ?_ ?_
  · refine ⟨rfl, fun other => ?_⟩
    rcases other with _ | n
    · exact id
    · exact id
  exact Run.allowed_nil _ _ _

/-- The hook is loaded for the alarm, after the guard of the turn. -/
theorem guardedAlarm_covered :
    (Run.run GuardState.step
      (coldStart searchingHost (activeRegistry alarmMetadata) (some (some "v1")))
      (guardedAlarm.take 12)).tasks 0 = .loading (.lifecycle .onAlarm) "v1" ∧
    Run.Allowed Covered GuardState.step
      (coldStart searchingHost (activeRegistry alarmMetadata) (some (some "v1"))) guardedAlarm :=
  ⟨rfl, loads_guarded searchingHost (activeRegistry alarmMetadata) (some (some "v1"))
    guardedAlarm_orderly⟩

/-- An alarm that is the first dispatch of a wake. -/
def unguardedAlarm : List GuardEvent :=
  [.start 0 (.lifecycle .onAlarm), .advance 0, .advance 0, .advance 0, .advance 0]

/-- A version whose config namespace the host has as well. -/
def crmMetadata : JsonObject :=
  ⟨[("configNamespaces", .arr [.obj [("id", .str "crm"), ("description", .str "CRM"),
    ("schema", .obj [("type", .str "object")])]])], by decide⟩

/-- A turn that is the first dispatch of a wake, in which nothing is installed. -/
def blindTurn : List GuardEvent :=
  [.start 0 .turn, .advance 0, .advance 0, .advance 0, .advance 0, .advance 0, .advance 0,
    .advance 0]

/-- The pointer is refreshed; a turn has set the memo when another comes to the guard, and fails the
config check before that one has its token. -/
def overtakenCheck : List GuardEvent :=
  [.refresh 0, .advance 0, .advance 0, .advance 0, .start 1 .turn, .start 2 .turn, .advance 1,
    .advance 1, .advance 1, .advance 1, .advance 1, .advance 2, .advance 2, .advance 1, .advance 2]

/-- An alarm loads a version whose capability is missing, a turn loads one whose namespace collides,
and a turn loads one that has just failed the check of another turn. -/
theorem unguarded_loads :
    ¬Run.Allowed Covered GuardState.step
      (coldStart {} (activeRegistry alarmMetadata) (some (some "v1"))) unguardedAlarm ∧
    ¬Run.Allowed Covered GuardState.step
      (coldStart searchingHost (activeRegistry crmMetadata) (some (some "v1"))) blindTurn ∧
    ¬Run.Allowed Covered GuardState.step
      (coldStart searchingHost (activeRegistry crmMetadata) (some (some "v1")))
      overtakenCheck := by
  refine ⟨fun h => ?_, fun h => ?_, fun h => ?_⟩
  · have hload := h (unguardedAlarm.take 4) (.advance 0) [] rfl (.lifecycle .onAlarm) "v1" rfl
    cases hload
  · have hload := h (blindTurn.take 7) (.advance 0) [] rfl .turn "v1" rfl
    cases hload
  · have hload := h (overtakenCheck.take 14) (.advance 2) [] rfl .turn "v1" rfl
    cases hload

end CrabbyKit.DispatchHost
