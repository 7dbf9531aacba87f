import CrabbyKit.Dispatch.Config
import CrabbyKit.Dispatch.Rebuild
import CrabbyKit.Registry.Pointers

/-!
# The copies of the active pointer

The host keeps the active version in its storage and the version's config metadata on the runtime.
Every operation that moves the pointer writes the registry and then the copies; the registry's
calls may fail.
-/

namespace CrabbyKit.DispatchHost

open BundleRegistry

/-- What the host and the registry hold. The key in storage may be absent. -/
structure DispatchState where
  registry : D1State
  activeBundleVersionId : Option (Option String) := none
  validatedVersionId : Option String := none
  consecutiveFailures : Nat := 0
  installed : InstalledConfig := {}
  autoRebuildAttempted : Bool := false

/-- Which calls of an operation do not reach the registry: the write of the pointer, the read of
the pointer, the read of the version. -/
structure RegistryFailures where
  write : Bool := false
  read : Bool := false
  load : Bool := false

inductive DisableReason
  | capabilityMismatch (missingIds : List String)
  | httpRouteCollision (collisions : List RouteSpec)
  | actionIdCollision (collidingIds : List String)
  | agentConfigCollision (collidingNamespaces : List String)
  | configNamespaceCollision (collidingIds : List String)
  | capabilityConfigCollision (collidingIds : List String)
  | agentConfigPathUnresolvable (capabilityId path : String) (knownNamespaces : List String)

namespace DisableReason

/-- `items.join(", ")` -/
def joined (items : List String) : String := ", ".intercalate items

def rationale (versionId : String) : DisableReason → String
  | capabilityMismatch missingIds =>
    "catalog mismatch: missing [" ++ joined missingIds ++ "] declared by version '" ++ versionId ++
      "'"
  | httpRouteCollision collisions =>
    "route collision: bundle '" ++ versionId ++
      "' declares routes overlapping host static handlers: " ++
      joined (collisions.map fun c => c.method ++ " " ++ c.path)
  | actionIdCollision collidingIds =>
    "action-id collision: bundle '" ++ versionId ++
      "' declares onAction on host-registered ids: " ++ joined collidingIds
  | agentConfigCollision collidingNamespaces =>
    "agent-config collision: bundle '" ++ versionId ++
      "' declares agent-config namespace(s) overlapping host: " ++ joined collidingNamespaces
  | configNamespaceCollision collidingIds =>
    "config-namespace collision: bundle '" ++ versionId ++
      "' declares config namespace id(s) overlapping host: " ++ joined collidingIds
  | capabilityConfigCollision collidingIds =>
    "capability-config collision: bundle '" ++ versionId ++
      "' declares config schemas for host-registered capability id(s): " ++ joined collidingIds
  | agentConfigPathUnresolvable capabilityId path knownNamespaces =>
    "agent-config path unresolvable: bundle '" ++ versionId ++ "' capability \"" ++ capabilityId ++
      "\" declares agentConfigPath \"" ++ path ++ "\" with no matching namespace (known: " ++
      (if joined knownNamespaces = "" then "<empty>" else joined knownNamespaces) ++ ")"

/-- Whether the handler of a reason also takes the config metadata off the runtime. -/
def clearsConfig : DisableReason → Bool
  | capabilityMismatch _ | httpRouteCollision _ | actionIdCollision _ => false
  | _ => true

end DisableReason

def clearingOptions (rationale : String) (sessionId : Option String) : SetActiveOptions where
  rationale := some rationale
  sessionId := sessionId
  skipCatalogCheck := true

/-- An id that counts as true. -/
def truthy (id : Option String) : Option String := id.filter fun text => text ≠ ""

namespace DispatchState

/-- `registry.setActive(agentId, null, …)`, which may not reach the registry. -/
def clearPointer (s : DispatchState) (agentId : String) (options : SetActiveOptions)
    (now : Instant) (fails : Bool) : DispatchState :=
  if fails then s else { s with registry := (s.registry.setActive agentId none now options).2 }

/-- The copies after a disable. -/
def disabled (s : DispatchState) : DispatchState :=
  { s with validatedVersionId := none, consecutiveFailures := 0,
           activeBundleVersionId := some none }

/-- `disableForCatalogMismatch` and its six siblings, which swallow the error of the registry. -/
def disable (s : DispatchState) (agentId versionId sessionId : String) (reason : DisableReason)
    (now : Instant) (fails : Bool) : DispatchState :=
  let options := clearingOptions (reason.rationale versionId) (some sessionId)
  let s := (s.clearPointer agentId options now fails).disabled
  if reason.clearsConfig then { s with installed := installBundleConfigMetadata none } else s

/-- The auto-revert of `bundlePromptHandler`, which swallows it too. -/
def autoRevert (s : DispatchState) (agentId : String) (now : Instant) (fails : Bool) :
    DispatchState :=
  (s.clearPointer agentId (clearingOptions "auto-revert: poison bundle" none) now fails).disabled

/-- `POST /bundle/disable`, which answers with the error. -/
def disableOutOfBand (s : DispatchState) (agentId : String) (now : Instant) (fails : Bool) :
    DispatchState :=
  if fails then s
  else (s.clearPointer agentId (clearingOptions "out-of-band disable" none) now false).disabled

/-- The reload of the config metadata of an active version; a throw leaves what was there. -/
def reloadConfig (s : DispatchState) (id : Option String) (fails : Bool) : DispatchState :=
  match truthy id with
  | none => { s with installed := installBundleConfigMetadata none }
  | some id =>
    if fails then s
    else
      match loadBundleConfigMetadata s.registry id with
      | .error _ => s
      | .ok loaded => { s with installed := installBundleConfigMetadata loaded }

/-- `bundlePointerRefresher` -/
def refreshPointer (s : DispatchState) (agentId : String) (failures : RegistryFailures) :
    DispatchState :=
  let s := { s with validatedVersionId := none }
  if failures.read then s
  else
    let id := s.registry.getActiveForAgent agentId
    { s with activeBundleVersionId := some id, consecutiveFailures := 0 }.reloadConfig id
      failures.load

/-- A call of the registry that was made for this agent, and then the refresher when it did not
throw. -/
def notify (s : DispatchState) (agentId : String) (result : Except RegistryError Unit × D1State)
    (failures : RegistryFailures) : DispatchState :=
  if failures.write then s
  else
    match result with
    | (.error _, _) => s
    | (.ok _, registry) => { s with registry := registry }.refreshPointer agentId failures

/-- The drift check before a turn. -/
def autoRebuild (s : DispatchState) (host : RebuildHost) (versionId : String) (now : Instant)
    (visible : Nat → Bool) (failures : RegistryFailures) : DispatchState :=
  match maybeAutoRebuild host s.autoRebuildAttempted s.registry versionId now visible
      failures.write with
  | (.promoted _ _, registry) =>
    { s with registry := registry, autoRebuildAttempted := true }.refreshPointer host.agentId
      failures
  | (_, registry) => { s with registry := registry, autoRebuildAttempted := true }

end DispatchState

inductive PointerOperation
  | setActive (versionId : Option String) (options : SetActiveOptions) (now : Instant)
      (failures : RegistryFailures)
  | rollback (opts : RollbackOpts) (now : Instant) (failures : RegistryFailures)
  | refresh (failures : RegistryFailures)
  | disable (versionId sessionId : String) (reason : DisableReason) (now : Instant) (fails : Bool)
  | autoRevert (now : Instant) (fails : Bool)
  | disableOutOfBand (now : Instant) (fails : Bool)
  | autoRebuild (versionId : String) (now : Instant) (visible : Nat → Bool)
      (failures : RegistryFailures)

/-- An operation, a new wake of the host, or any change of the registry by someone else. -/
inductive DispatchEvent
  | operation (op : PointerOperation)
  | wake
  | elsewhere (registry : D1State)

variable (host : RebuildHost)

def DispatchState.operate (s : DispatchState) : PointerOperation → DispatchState
  | .setActive versionId options now failures =>
    s.notify host.agentId (s.registry.setActive host.agentId versionId now options) failures
  | .rollback opts now failures =>
    s.notify host.agentId (s.registry.rollback host.agentId now opts) failures
  | .refresh failures => s.refreshPointer host.agentId failures
  | .disable versionId sessionId reason now fails =>
    s.disable host.agentId versionId sessionId reason now fails
  | .autoRevert now fails => s.autoRevert host.agentId now fails
  | .disableOutOfBand now fails => s.disableOutOfBand host.agentId now fails
  | .autoRebuild versionId now visible failures => s.autoRebuild host versionId now visible failures

def DispatchState.step (s : DispatchState) : DispatchEvent → DispatchState
  | .operation op => s.operate host op
  | .wake => { registry := s.registry, activeBundleVersionId := s.activeBundleVersionId }
  | .elsewhere registry => { s with registry := registry }

/-- What the runtime should have: the config metadata of the active version, or nothing. -/
def activeConfig (registry : D1State) (agentId : String) : Except RegistryError InstalledConfig :=
  match truthy (registry.getActiveForAgent agentId) with
  | none => .ok (installBundleConfigMetadata none)
  | some id => (loadBundleConfigMetadata registry id).map installBundleConfigMetadata

/-- The copies are those of the registry's active version. -/
structure Agrees (agentId : String) (s : DispatchState) : Prop where
  cached : s.activeBundleVersionId = some (s.registry.getActiveForAgent agentId)
  config : activeConfig s.registry agentId = .ok s.installed

/-- When a refresh leaves the copies in agreement: its reads succeed, or what they would have
changed was right already. -/
def RefreshAgrees (agentId : String) (s : DispatchState) (failures : RegistryFailures) : Prop :=
  if failures.read then Agrees agentId s
  else
    truthy (s.registry.getActiveForAgent agentId) = none ∨
    if failures.load then activeConfig s.registry agentId = .ok s.installed
    else ∃ config, activeConfig s.registry agentId = .ok config

/-- When an operation that clears the pointer does. -/
def ClearAgrees (agentId : String) (s : DispatchState) (clearsConfig fails : Bool) : Prop :=
  (fails = true → s.registry.getActiveForAgent agentId = none) ∧
    (clearsConfig = false → s.installed = installBundleConfigMetadata none)

/-- When a call of the registry with the refresh after it does. -/
def NotifyAgrees (agentId : String) (s : DispatchState)
    (result : Except RegistryError Unit × D1State) (failures : RegistryFailures) : Prop :=
  if failures.write then Agrees agentId s
  else
    match result with
    | (.error _, _) => Agrees agentId s
    | (.ok _, registry) => RefreshAgrees agentId { s with registry := registry } failures

def KeepsAgreement (s : DispatchState) : PointerOperation → Prop
  | .setActive versionId options now failures =>
    NotifyAgrees host.agentId s (s.registry.setActive host.agentId versionId now options) failures
  | .rollback opts now failures =>
    NotifyAgrees host.agentId s (s.registry.rollback host.agentId now opts) failures
  | .refresh failures => RefreshAgrees host.agentId s failures
  | .disable _ _ reason _ fails => ClearAgrees host.agentId s reason.clearsConfig fails
  | .autoRevert _ fails => ClearAgrees host.agentId s false fails
  | .disableOutOfBand _ fails =>
    if fails then Agrees host.agentId s else ClearAgrees host.agentId s false false
  | .autoRebuild versionId now visible failures =>
    match maybeAutoRebuild host s.autoRebuildAttempted s.registry versionId now visible
        failures.write with
    | (.promoted _ _, registry) =>
      RefreshAgrees host.agentId { s with registry := registry, autoRebuildAttempted := true }
        failures
    | (_, _) => Agrees host.agentId s

variable {agentId : String}

variable {s : DispatchState}

theorem agrees_congr {s' : DispatchState} (hregistry : s'.registry = s.registry)
    (hcached : s'.activeBundleVersionId = s.activeBundleVersionId)
    (hinstalled : s'.installed = s.installed) : Agrees agentId s' ↔ Agrees agentId s := by
  constructor
  · rintro ⟨h₁, h₂⟩
    exact ⟨by rw [← hcached, ← hregistry, h₁], by rw [← hregistry, ← hinstalled, h₂]⟩
  · rintro ⟨h₁, h₂⟩
    exact ⟨by rw [hcached, hregistry, h₁], by rw [hregistry, hinstalled, h₂]⟩

variable {registry : D1State}

theorem activeConfig_of_none (h : registry.getActiveForAgent agentId = none) :
    activeConfig registry agentId = .ok (installBundleConfigMetadata none) := by
  rw [activeConfig, h]
  rfl

theorem agrees_reloadConfig {id : Option String}
    (hcached : s.activeBundleVersionId = some id) (hid : s.registry.getActiveForAgent agentId = id)
    (fails : Bool) :
    Agrees agentId (s.reloadConfig id fails) ↔
      truthy id = none ∨
        if fails then activeConfig s.registry agentId = .ok s.installed
        else ∃ config, activeConfig s.registry agentId = .ok config := by
  subst hid
  have hagrees : Agrees agentId s ↔ activeConfig s.registry agentId = .ok s.installed :=
    ⟨Agrees.config, fun hconfig => ⟨hcached, hconfig⟩⟩
  unfold DispatchState.reloadConfig
  cases htruthy : truthy (s.registry.getActiveForAgent agentId) with
  | none =>
    refine iff_of_true ⟨hcached, ?_⟩ (Or.inl rfl)
    rw [activeConfig, htruthy]
  | some id =>
    have hconfig : activeConfig s.registry agentId =
        (loadBundleConfigMetadata s.registry id).map installBundleConfigMetadata := by
      rw [activeConfig, htruthy]
    simp only [reduceCtorEq, false_or]
    cases fails with
    | true => exact hagrees
    | false =>
      simp only [Bool.false_eq_true, if_false]
      cases hload : loadBundleConfigMetadata s.registry id with
      | error e =>
        rw [hload] at hconfig
        simp only [hagrees, hconfig]
        constructor
        · intro h
          cases h
        · rintro ⟨_, h⟩
          cases h
      | ok loaded =>
        rw [hload] at hconfig
        exact iff_of_true ⟨hcached, hconfig⟩ ⟨_, hconfig⟩

theorem agrees_refreshPointer (agentId : String) (s : DispatchState) (failures : RegistryFailures) :
    Agrees agentId (s.refreshPointer agentId failures) ↔ RefreshAgrees agentId s failures := by
  unfold DispatchState.refreshPointer RefreshAgrees
  cases failures.read with
  | true => exact agrees_congr rfl rfl rfl
  | false =>
    simp only [Bool.false_eq_true, if_false]
    exact agrees_reloadConfig rfl rfl failures.load

theorem registry_reloadConfig (s : DispatchState) (id : Option String) (fails : Bool) :
    (s.reloadConfig id fails).registry = s.registry := by
  unfold DispatchState.reloadConfig
  split
  · rfl
  · split
    · rfl
    · split <;> rfl

theorem registry_refreshPointer (agentId : String) (s : DispatchState)
    (failures : RegistryFailures) : (s.refreshPointer agentId failures).registry = s.registry := by
  unfold DispatchState.refreshPointer
  cases failures.read with
  | true => rfl
  | false => exact registry_reloadConfig _ _ failures.load

theorem agrees_notify (agentId : String) (s : DispatchState)
    (result : Except RegistryError Unit × D1State) (failures : RegistryFailures) :
    Agrees agentId (s.notify agentId result failures) ↔ NotifyAgrees agentId s result failures := by
  unfold DispatchState.notify NotifyAgrees
  split
  · rfl
  · split
    · rfl
    · exact agrees_refreshPointer agentId _ failures

theorem getActiveForAgent_setActive_none (registry : D1State) (agentId : String) (now : Instant)
    (options : SetActiveOptions) :
    (registry.setActive agentId none now options).2.getActiveForAgent agentId = none := by
  change (registry.setActiveBatch agentId none now options).getActiveForAgent agentId = none
  rw [D1State.getActiveForAgent_eq, D1State.pointer_setActiveBatch, if_pos rfl]
  rfl

theorem getActiveForAgent_clearPointer (s : DispatchState) (agentId : String)
    (options : SetActiveOptions) (now : Instant) (fails : Bool) :
    (s.clearPointer agentId options now fails).registry.getActiveForAgent agentId = none ↔
      (fails = true → s.registry.getActiveForAgent agentId = none) := by
  cases fails with
  | true => simp [DispatchState.clearPointer]
  | false =>
    exact iff_of_true (getActiveForAgent_setActive_none s.registry agentId now options)
      Bool.noConfusion

theorem agrees_of_cleared (hcached : s.activeBundleVersionId = some none) :
    Agrees agentId s ↔ s.registry.getActiveForAgent agentId = none ∧
      s.installed = installBundleConfigMetadata none := by
  constructor
  · rintro ⟨hsame, hconfig⟩
    have hnone : s.registry.getActiveForAgent agentId = none :=
      (Option.some.inj (hcached.symm.trans hsame)).symm
    rw [activeConfig_of_none hnone] at hconfig
    exact ⟨hnone, (Except.ok.inj hconfig).symm⟩
  · rintro ⟨hnone, hinstalled⟩
    refine ⟨by rw [hcached, hnone], ?_⟩
    rw [hinstalled, activeConfig_of_none hnone]

theorem agrees_disabled (s : DispatchState) (agentId : String) (options : SetActiveOptions)
    (now : Instant) (fails : Bool) :
    Agrees agentId (s.clearPointer agentId options now fails).disabled ↔
      ClearAgrees agentId s false fails := by
  have hinstalled : (s.clearPointer agentId options now fails).installed = s.installed := by
    cases fails <;> rfl
  rw [agrees_of_cleared rfl]
  apply and_congr
  · exact getActiveForAgent_clearPointer s agentId options now fails
  · rw [← hinstalled]
    exact ⟨fun h _ => h, fun h => h rfl⟩

theorem agrees_disable (s : DispatchState) (agentId versionId sessionId : String)
    (reason : DisableReason) (now : Instant) (fails : Bool) :
    Agrees agentId (s.disable agentId versionId sessionId reason now fails) ↔
      ClearAgrees agentId s reason.clearsConfig fails := by
  unfold DispatchState.disable
  cases reason.clearsConfig with
  | false => exact agrees_disabled s agentId _ now fails
  | true =>
    simp only [if_true]
    rw [agrees_of_cleared rfl]
    apply and_congr
    · exact getActiveForAgent_clearPointer s agentId _ now fails
    · exact iff_of_true rfl Bool.noConfusion

def configOf (registry : D1State) (versionId : String) : Except RegistryError InstalledConfig :=
  (loadBundleConfigMetadata registry versionId).map installBundleConfigMetadata

variable {registry' : D1State}

theorem activeConfig_congr
    (hactive : registry'.getActiveForAgent agentId = registry.getActiveForAgent agentId)
    (hconfig : ∀ id, configOf registry' id = configOf registry id) :
    activeConfig registry' agentId = activeConfig registry agentId := by
  unfold activeConfig
  rw [hactive]
  cases truthy (registry.getActiveForAgent agentId) with
  | none => rfl
  | some id => exact hconfig id

variable {id : String}

theorem configOf_congr (h : registry'.getVersion id = registry.getVersion id) :
    configOf registry' id = configOf registry id := by
  rw [configOf, configOf, loadBundleConfigMetadata, loadBundleConfigMetadata, h]

theorem configOf_unknown
    (h : registry.getVersion id = .ok none) : configOf registry id = .ok {} := by
  rw [configOf, loadBundleConfigMetadata, h]
  rfl

variable {sourceName : String} {now : Instant}

theorem configOf_rebuilt {runtimeHash : String} {version : BundleVersion}
    (h : registry.getVersion id = .ok (some version))
    (hmetadata : version.metadata =
      some (sanitizeMetadata (rebuiltMetadata runtimeHash sourceName now)).toJson) :
    configOf registry id = .ok {} := by
  have hundeclared : ∀ name ∈ declaredFields, Json.field name
      (sanitizeMetadata (rebuiltMetadata runtimeHash sourceName now)).toJson = none :=
    fun name hname => rebuiltMetadata_declared runtimeHash sourceName now hname
  rw [configOf, loadBundleConfigMetadata, h]
  simp only [bind, Except.bind, Option.bind_some, hmetadata]
  have htruthy : (sanitizeMetadata
      (rebuiltMetadata runtimeHash sourceName now)).toJson.truthy = true := rfl
  rw [if_pos htruthy, configOfMetadata_undeclared (hundeclared _ (by decide))
    (hundeclared _ (by decide)) (hundeclared _ (by decide))]
  rfl

variable {visible : Nat → Bool}

theorem createVersion_rebuilt {host : RebuildHost} {built : BuildBundleResult}
    {result : Except RegistryError BundleVersion}
    (h : registry.createVersion host.computeVersionId (rebuildOpts host sourceName built now) now
      visible = (result, registry')) :
    registry'.bundles = registry.bundles ∧ ∀ id, configOf registry' id = configOf registry id := by
  generalize hopts : rebuildOpts host sourceName built now = opts at h
  have hmetadata : opts.metadata = some (rebuiltMetadata host.runtimeHash sourceName now) := by
    rw [← hopts, rebuildOpts]
  by_cases hsize : opts.bytes.length ≤ maxBundleSizeBytes
  · cases hrow : registry.version (host.computeVersionId opts.bytes) with
    | some row =>
      rw [D1State.createVersion_known hsize hrow] at h
      obtain rfl := (Prod.mk.inj h).2
      exact ⟨rfl, fun _ => rfl⟩
    | none =>
      cases hvisible : D1State.verifyKvReadback visible with
      | false =>
        have hhidden : ∃ e, registry.createVersion host.computeVersionId opts now visible =
            (.error e, _) := D1State.createVersion_hidden hsize hrow hvisible
        obtain ⟨e, herror⟩ := hhidden
        rw [herror] at h
        obtain rfl := (Prod.mk.inj h).2
        exact ⟨rfl, fun _ => configOf_congr rfl⟩
      | true =>
        have hcreated := h
        rw [D1State.createVersion_new hsize hrow hvisible] at h
        obtain ⟨rfl, rfl⟩ := Prod.mk.inj h
        refine ⟨rfl, fun id => ?_⟩
        by_cases hid : id = host.computeVersionId opts.bytes
        · subst hid
          have hunknown : registry.getVersion (host.computeVersionId opts.bytes) = .ok none := by
            rw [D1State.getVersion, hrow]
          obtain ⟨hread, ⟨-, hnew⟩ | hold⟩ := D1State.getVersion_created hmetadata hcreated
          · rw [configOf_unknown hunknown]
            exact configOf_rebuilt hread hnew
          · rw [hunknown] at hold
            cases hold
        · apply configOf_congr
          have hlookup : Table.lookup VersionRow.versionId
              (registry.versions ++ [D1State.newRow host.computeVersionId opts now]) id =
                registry.version id := by
            have hother : (D1State.newRow host.computeVersionId opts now).versionId ≠ id :=
              Ne.symm hid
            rw [Table.lookup_concat, if_neg hother, Option.or_none]
            rfl
          rw [D1State.getVersion, D1State.getVersion, D1State.version, hlookup]
  · have hlarge : ∃ e, registry.createVersion host.computeVersionId opts now visible =
        (.error e, registry) := D1State.createVersion_large (Nat.not_le.mp hsize)
    obtain ⟨e, herror⟩ := hlarge
    rw [herror] at h
    obtain rfl := (Prod.mk.inj h).2
    exact ⟨rfl, fun _ => rfl⟩

variable {versionId : String} {writeFails : Bool} {outcome : RebuildOutcome}

theorem promoteRebuilt_unpromoted {host : RebuildHost} {s s' : D1State}
    {newId : String} {files : List (String × String)}
    (h : promoteRebuilt host s versionId newId files now writeFails = (outcome, s'))
    (hnot : ∀ id files, outcome ≠ .promoted id files) : s' = s := by
  unfold promoteRebuilt D1State.setActive at h
  split at h
  · cases h
    rfl
  · split at h
    · cases h
      rfl
    · split at h
      · rename_i heq
        split at heq
        · cases heq
          cases h
          rfl
        · cases heq
      · cases h
        exact absurd rfl (hnot _ _)

theorem maybeAutoRebuild_unpromoted {host : RebuildHost} {attempted : Bool} {s s' : D1State}
    (h : maybeAutoRebuild host attempted s versionId now visible writeFails = (outcome, s'))
    (hnot : ∀ id files, outcome ≠ .promoted id files) :
    s'.bundles = s.bundles ∧ ∀ id, configOf s' id = configOf s id := by
  have hsame : s' = s → s'.bundles = s.bundles ∧ ∀ id, configOf s' id = configOf s id := by
    rintro rfl
    exact ⟨rfl, fun _ => rfl⟩
  unfold maybeAutoRebuild at h
  split at h
  · exact hsame (Prod.mk.inj h).2.symm
  · exact hsame (Prod.mk.inj h).2.symm
  · split at h
    · exact hsame (Prod.mk.inj h).2.symm
    · simp only at h
      split at h
      · split at h
        · exact hsame (Prod.mk.inj h).2.symm
        · unfold rebuild at h
          split at h
          · exact hsame (Prod.mk.inj h).2.symm
          · split at h
            · rename_i hcreated
              obtain rfl := (Prod.mk.inj h).2
              exact createVersion_rebuilt hcreated
            · rename_i hcreated
              obtain rfl := promoteRebuilt_unpromoted h hnot
              exact createVersion_rebuilt hcreated
      · exact hsame (Prod.mk.inj h).2.symm

theorem agrees_autoRebuild (host : RebuildHost) (s : DispatchState) (versionId : String)
    (now : Instant) (visible : Nat → Bool) (failures : RegistryFailures) :
    Agrees host.agentId (s.autoRebuild host versionId now visible failures) ↔
      KeepsAgreement host s (.autoRebuild versionId now visible failures) := by
  unfold DispatchState.autoRebuild KeepsAgreement
  simp only
  cases hcheck : maybeAutoRebuild host s.autoRebuildAttempted s.registry versionId now visible
    failures.write with
  | mk outcome registry =>
    have hunpromoted : (∀ id files, outcome ≠ .promoted id files) →
        (Agrees host.agentId { s with registry := registry, autoRebuildAttempted := true } ↔
          Agrees host.agentId s) := by
      intro hnot
      obtain ⟨hbundles, hconfig⟩ := maybeAutoRebuild_unpromoted hcheck hnot
      have hactive : registry.getActiveForAgent host.agentId =
          s.registry.getActiveForAgent host.agentId := by
        rw [D1State.getActiveForAgent, D1State.getActiveForAgent, D1State.bundle, D1State.bundle,
          hbundles]
      have hsame := activeConfig_congr hactive hconfig
      constructor
      · rintro ⟨hcached, hinstalled⟩
        exact ⟨hcached.trans (congrArg some hactive), hsame.symm.trans hinstalled⟩
      · rintro ⟨hcached, hinstalled⟩
        exact ⟨hcached.trans (congrArg some hactive.symm), hsame.trans hinstalled⟩
    cases outcome with
    | promoted newId files => exact agrees_refreshPointer host.agentId _ failures
    | skipped => exact hunpromoted fun _ _ => RebuildOutcome.noConfusion
    | failed => exact hunpromoted fun _ _ => RebuildOutcome.noConfusion
    | identical => exact hunpromoted fun _ _ => RebuildOutcome.noConfusion

theorem agrees_operate (s : DispatchState) (op : PointerOperation) :
    Agrees host.agentId (s.operate host op) ↔ KeepsAgreement host s op := by
  cases op with
  | setActive versionId options now failures => exact agrees_notify host.agentId s _ failures
  | rollback opts now failures => exact agrees_notify host.agentId s _ failures
  | refresh failures => exact agrees_refreshPointer host.agentId s failures
  | disable versionId sessionId reason now fails =>
    exact agrees_disable s host.agentId versionId sessionId reason now fails
  | autoRevert now fails => exact agrees_disabled s host.agentId _ now fails
  | disableOutOfBand now fails =>
    cases fails with
    | true => rfl
    | false => exact agrees_disabled s host.agentId _ now false
  | autoRebuild versionId now visible failures =>
    exact agrees_autoRebuild host s versionId now visible failures

/-- In a run, whatever happens between operations, the copies agree with the registry after each
operation exactly when each operation is one that leaves them in agreement. -/
theorem caches_agree_iff (start : DispatchState) (events : List DispatchEvent) :
    (∀ before op after, events = before ++ .operation op :: after →
      Agrees host.agentId (Run.run (DispatchState.step host) start (before ++ [.operation op]))) ↔
    ∀ before op after, events = before ++ .operation op :: after →
      KeepsAgreement host (Run.run (DispatchState.step host) start before) op := by
  apply forall_congr'
  intro before
  apply forall_congr'
  intro op
  rw [Run.run_snoc]
  simp only [DispatchState.step, agrees_operate]

/-- A version that requires a capability and declares a config namespace. -/
def namespacedMetadata : JsonObject :=
  ⟨[("requiredCapabilities", .arr [.obj [("id", .str "web-search")]]),
    ("configNamespaces", .arr [.obj [("id", .str "crm"), ("description", .str "CRM"),
      ("schema", .obj [("type", .str "object")])]])], by decide⟩

def namespacedConfig : InstalledConfig where
  bundleConfigNamespaceMetadata :=
    some [⟨some (.str "crm"), some (.str "CRM"), .obj [("type", .str "object")] none⟩]

theorem configOf_namespaced :
    configOf (staleState namespacedMetadata) (digestOfOne [1]) = .ok namespacedConfig := by
  rw [configOf, loadBundleConfigMetadata, getVersion_staleState]
  rfl

/-- The host after it has read the pointer. -/
def namespacedStart : DispatchState :=
  DispatchState.refreshPointer { registry := staleState namespacedMetadata } "researcher" {}

/-- The guard finds that the capability is missing. -/
def disableNamespaced (fails : Bool) : PointerOperation :=
  .disable (digestOfOne [1]) "s1" (.capabilityMismatch ["web-search"]) 1700000001000 fails

theorem namespacedStart_agrees : Agrees "researcher" namespacedStart ∧
    namespacedStart.registry = staleState namespacedMetadata ∧
    namespacedStart.installed = namespacedConfig := by
  have hregistry : namespacedStart.registry = staleState namespacedMetadata :=
    registry_refreshPointer "researcher" { registry := staleState namespacedMetadata } {}
  have hconfig : activeConfig (staleState namespacedMetadata) "researcher" =
      .ok namespacedConfig := configOf_namespaced
  have hagrees : Agrees "researcher" namespacedStart :=
    (agrees_refreshPointer "researcher" { registry := staleState namespacedMetadata } {}).mpr
      (Or.inr ⟨namespacedConfig, hconfig⟩)
  refine ⟨hagrees, hregistry, ?_⟩
  have hinstalled := hagrees.config
  rw [hregistry, hconfig] at hinstalled
  exact (Except.ok.inj hinstalled).symm

/-- From copies that agree: when the registry is out of reach, the host then says that nothing is
active although the version is; when it is not, the namespace stays on the runtime although nothing
is active. -/
theorem disabled_disagrees :
    Agrees weatherHost.agentId namespacedStart ∧
    ¬Agrees weatherHost.agentId (Run.run (DispatchState.step weatherHost) namespacedStart
      [.operation (disableNamespaced true)]) ∧
    ¬Agrees weatherHost.agentId (Run.run (DispatchState.step weatherHost) namespacedStart
      [.operation (disableNamespaced false)]) := by
  obtain ⟨hagrees, hregistry, hinstalled⟩ := namespacedStart_agrees
  refine ⟨hagrees, fun h => ?_, fun h => ?_⟩
  · obtain ⟨hactive, -⟩ :=
      (agrees_operate weatherHost namespacedStart (disableNamespaced true)).mp h
    have hnone := hactive rfl
    rw [hregistry] at hnone
    cases hnone
  · obtain ⟨-, hempty⟩ :=
      (agrees_operate weatherHost namespacedStart (disableNamespaced false)).mp h
    have hcleared := hempty rfl
    rw [hinstalled] at hcleared
    cases hcleared

end CrabbyKit.DispatchHost
