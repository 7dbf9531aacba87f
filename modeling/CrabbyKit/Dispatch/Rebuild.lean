import CrabbyKit.Dispatch.Source
import CrabbyKit.Registry.Publication

/-!
# Rebuilding a bundle whose runtime is out of date

`maybeAutoRebuild`: the active version is built again from its source with the current runtime and
promoted. The metadata of the new version is written by hand.
-/

namespace CrabbyKit.DispatchHost

open BundleRegistry List Option

structure RebuildHost where
  agentId : String
  runtimeHash : String
  runtimeSource : String
  createWorker : CreateWorker
  computeVersionId : List UInt8 → String
  autoRebuild : Option (SourceBucket × String)
  hostCapabilityIds : List String

/-- The members of metadata that the token scope, the guards and the hooks read. -/
def declaredFields : List String :=
  ["requiredCapabilities", "lifecycleHooks", "surfaces", "capabilityConfigs",
    "agentConfigSchemas", "configNamespaces"]

/-- `r.id`, which throws on `null`. -/
def requirementScope : Json → Except RegistryError Json
  | .null => .error (.typeError "Cannot read properties of null (reading 'id')")
  | requirement => .ok ((Json.field "id" requirement).getD .null)

def computeTokenScope (version : Option BundleVersion) : Except RegistryError (List Json) :=
  match metadataField "requiredCapabilities" (version.bind BundleVersion.metadata) with
  | none | some .null => .ok [.str "spine", .str "llm"]
  | some (.arr items) => do
    let catalogIds ← items.mapM requirementScope
    .ok (.str "spine" :: .str "llm" :: catalogIds)
  | some _ => .error (.typeError "map is not a function")

def textField (name : String) (metadata : Option Json) : Option String :=
  match metadataField name metadata with
  | some (.str text) => if text = "" then none else some text
  | _ => none

def rebuiltMetadata (runtimeHash sourceName : String) (buildTimestamp : Instant) : JsonObject where
  members := [("runtimeHash", .str runtimeHash), ("sourceName", .str sourceName),
    ("buildTimestamp", .num buildTimestamp)]
  unique := by
    change ["runtimeHash", "sourceName", "buildTimestamp"].Nodup
    decide

/-- How a rebuild ended; a promotion names the new version and the files it was built from. -/
inductive RebuildOutcome
  | skipped
  | failed
  | identical
  | promoted (versionId : String) (files : List (String × String))

def rebuildOpts (host : RebuildHost) (sourceName : String) (built : BuildBundleResult)
    (now : Instant) : CreateVersionOpts where
  bytes := encodeEnvelope built.mainModule built.modules
  createdBy := some "system:auto-rebuild"
  metadata := some (rebuiltMetadata host.runtimeHash sourceName now)

def promotionOptions (host : RebuildHost) : SetActiveOptions where
  rationale := some "auto-rebuild: runtime hash drift"
  knownCapabilityIds := some host.hostCapabilityIds

/-- The promotion of a version that was created, by a call that may not reach the registry. -/
def promoteRebuilt (host : RebuildHost) (s : D1State) (versionId newId : String)
    (files : List (String × String)) (now : Instant) (writeFails : Bool) :
    RebuildOutcome × D1State :=
  if newId = versionId then (.identical, s)
  else if writeFails then (.failed, s)
  else
    match s.setActive host.agentId (some newId) now (promotionOptions host) with
    | (.error _, s) => (.failed, s)
    | (.ok _, s) => (.promoted newId files, s)

/-- The rebuild of a version whose hash is out of date. -/
def rebuild (host : RebuildHost) (bucket : SourceBucket) (space : String) (s : D1State)
    (versionId sourceName : String) (now : Instant) (visible : Nat → Bool) (writeFails : Bool) :
    RebuildOutcome × D1State :=
  match buildBundle host.createWorker bucket space sourceName host.runtimeSource with
  | none => (.failed, s)
  | some built =>
    match s.createVersion host.computeVersionId (rebuildOpts host sourceName built now) now
        visible with
    | (.error _, s) => (.failed, s)
    | (.ok newVersion, s) =>
      promoteRebuilt host s versionId newVersion.versionId
        (loadBundleFiles bucket space sourceName host.runtimeSource).files now writeFails

/-- One check per wake of the host; the flag says that it was made. -/
def maybeAutoRebuild (host : RebuildHost) (attempted : Bool) (s : D1State) (versionId : String)
    (now : Instant) (visible : Nat → Bool) (writeFails : Bool) : RebuildOutcome × D1State :=
  match attempted, host.autoRebuild with
  | true, _ | _, none => (.skipped, s)
  | false, some (bucket, space) =>
    match s.getVersion versionId with
    | .error _ => (.failed, s)
    | .ok version =>
      let metadata := version.bind BundleVersion.metadata
      match textField "runtimeHash" metadata, textField "sourceName" metadata with
      | some storedHash, some sourceName =>
        if storedHash = host.runtimeHash then (.skipped, s)
        else rebuild host bucket space s versionId sourceName now visible writeFails
      | _, _ => (.skipped, s)

variable {host : RebuildHost} {s : D1State} {versionId : String}

variable {s' : D1State} {files : List (String × String)} {now : Instant} {writeFails : Bool}

theorem promoteRebuilt_promoted {newId promotedId : String} {files' : List (String × String)}
    (h : promoteRebuilt host s versionId newId files now writeFails =
      (.promoted promotedId files', s')) :
    promotedId = newId ∧ files' = files ∧ s'.versions = s.versions := by
  unfold promoteRebuilt at h
  split at h
  · cases h
  · split at h
    · cases h
    · unfold D1State.setActive at h
      split at h
      · rename_i heq
        split at heq
        · cases h
        · cases heq
      · rename_i heq
        split at heq
        · cases heq
        · cases heq
          cases h
          exact ⟨rfl, rfl, rfl⟩

/-- The declared members of the version that a rebuild creates: those of a version that was stored
with the same bytes, or none. -/
def storedField (s : D1State) (versionId name : String) : Option Json :=
  match s.getVersion versionId with
  | .ok (some version) => metadataField name version.metadata
  | _ => none

theorem rebuiltMetadata_declared (runtimeHash sourceName : String) (now : Instant) {name : String}
    (h : name ∈ declaredFields) :
    metadataField name (some (sanitizeMetadata (rebuiltMetadata runtimeHash sourceName now)).toJson)
      = none := by
  have hread : metadataField name
      (some (sanitizeMetadata (rebuiltMetadata runtimeHash sourceName now)).toJson) =
        ((rebuiltMetadata runtimeHash sourceName now).get name).bind (sanitizeMember name) := by
    rw [metadataField, bind_some, JsonObject.field_toJson, sanitizeMetadata, JsonObject.get_filter]
  have habsent : ∀ name ∈ declaredFields,
      name ∉ ["runtimeHash", "sourceName", "buildTimestamp"] := by decide
  have hnone : (rebuiltMetadata runtimeHash sourceName now).get name = none :=
    (JsonObject.get_eq_none_iff _ name).mpr (habsent name h)
  rw [hread, hnone]
  rfl

variable {sourceName : String} {built : BuildBundleResult} {visible : Nat → Bool}
variable {version : BundleVersion}

theorem getVersion_rebuilt
    (h : s.createVersion host.computeVersionId (rebuildOpts host sourceName built now) now
      visible = (.ok version, s')) :
    s'.getVersion version.versionId = .ok (some version) ∧
    ∀ name ∈ declaredFields, metadataField name version.metadata =
      storedField s (host.computeVersionId (encodeEnvelope built.mainModule built.modules))
        name := by
  unfold rebuildOpts at h
  obtain ⟨hread, hstored⟩ := D1State.getVersion_created rfl h
  refine ⟨hread, fun name hname => ?_⟩
  simp only at hstored
  rcases hstored with ⟨hnone, hmetadata⟩ | hsome
  · rw [hmetadata, rebuiltMetadata_declared _ _ _ hname, storedField, hnone]
  · rw [storedField, hsome]

theorem getVersion_congr (h : s'.versions = s.versions) (versionId : String) :
    s'.getVersion versionId = s.getVersion versionId := by
  rw [D1State.getVersion, D1State.getVersion, D1State.version, D1State.version, h]

variable {bucket : SourceBucket}

theorem maybeAutoRebuild_promoted {space : String}
    (hconfig : host.autoRebuild = some (bucket, space)) {attempted : Bool}
    {newId : String}
    (h : maybeAutoRebuild host attempted s versionId now visible writeFails =
      (.promoted newId files, s')) :
    ∃ old new sourceName built, s.getVersion versionId = .ok (some old) ∧
      textField "sourceName" old.metadata = some sourceName ∧
      buildBundle host.createWorker bucket space sourceName host.runtimeSource = some built ∧
      files = (loadBundleFiles bucket space sourceName host.runtimeSource).files ∧
      s'.getVersion newId = .ok (some new) ∧
      ∀ name ∈ declaredFields, metadataField name new.metadata =
        storedField s (host.computeVersionId (encodeEnvelope built.mainModule built.modules))
          name := by
  unfold maybeAutoRebuild at h
  rw [hconfig] at h
  cases attempted with
  | true => cases h
  | false =>
    simp only at h
    split at h
    · cases h
    · rename_i version hversion
      split at h
      · rename_i storedHash sourceName hhash hsource
        split at h
        · cases h
        · cases version with
          | none => cases hsource
          | some old =>
            unfold rebuild at h
            split at h
            · cases h
            · rename_i built hbuilt
              split at h
              · cases h
              · rename_i new s₁ hcreated
                obtain ⟨rfl, rfl, hversions⟩ := promoteRebuilt_promoted h
                obtain ⟨hread, hdeclared⟩ := getVersion_rebuilt hcreated
                exact ⟨old, new, sourceName, built, hversion, hsource, hbuilt, rfl,
                  (getVersion_congr hversions _).trans hread, hdeclared⟩
      · cases h

theorem checkPromotion_undeclared
    (hversion : s.getVersion versionId = .ok (some version))
    (hrequired : metadataField "requiredCapabilities" version.metadata = none)
    {options : SetActiveOptions} {knownIds : List String}
    (hknown : options.knownCapabilityIds = some knownIds) :
    s.checkPromotion versionId options = .ok () := by
  have hcatalog : checkCatalog none versionId options = .ok () := by
    rw [checkCatalog, hknown]
    rfl
  rw [D1State.checkPromotion, hversion]
  simp only [bind, Except.bind, bind_some, hrequired, checkReserved, hcatalog, ite_self]

theorem maybeAutoRebuild_new {space : String}
    (hconfig : host.autoRebuild = some (bucket, space))
    {old : BundleVersion} (hold : s.getVersion versionId = .ok (some old)) {storedHash : String}
    (hhash : textField "runtimeHash" old.metadata = some storedHash)
    (hdrift : storedHash ≠ host.runtimeHash)
    (hsource : textField "sourceName" old.metadata = some sourceName)
    (hbuilt : buildBundle host.createWorker bucket space sourceName host.runtimeSource =
      some built)
    (hsize : (encodeEnvelope built.mainModule built.modules).length ≤ maxBundleSizeBytes)
    (hnew : s.version (host.computeVersionId
      (encodeEnvelope built.mainModule built.modules)) = none)
    (hvisible : D1State.verifyKvReadback visible = true)
    (now : Instant) :
    ∃ s', maybeAutoRebuild host false s versionId now visible false =
      (.promoted (host.computeVersionId (encodeEnvelope built.mainModule built.modules))
        (loadBundleFiles bucket space sourceName host.runtimeSource).files, s') := by
  have hcreated : ∃ s₁, s.createVersion host.computeVersionId
      (rebuildOpts host sourceName built now) now visible =
        (.ok (D1State.newVersion host.computeVersionId
          (rebuildOpts host sourceName built now) now), s₁) := by
    have hbytes : (rebuildOpts host sourceName built now).bytes =
        encodeEnvelope built.mainModule built.modules := by rw [rebuildOpts]
    rw [← hbytes] at hsize hnew
    exact ⟨_, D1State.createVersion_new hsize hnew hvisible⟩
  obtain ⟨s₁, hcreated⟩ := hcreated
  obtain ⟨hread, hdeclared⟩ := getVersion_rebuilt hcreated
  have hnone : s.getVersion (host.computeVersionId
      (encodeEnvelope built.mainModule built.modules)) = .ok none := by
    rw [D1State.getVersion, hnew]
  have hid : (D1State.newVersion host.computeVersionId
      (rebuildOpts host sourceName built now) now).versionId =
        host.computeVersionId (encodeEnvelope built.mainModule built.modules) := by
    rw [D1State.newVersion, rebuildOpts]
  have hne : host.computeVersionId (encodeEnvelope built.mainModule built.modules) ≠ versionId := by
    intro heq
    rw [heq, hold] at hnone
    cases hnone
  have hcheck : s₁.checkPromotion
      (host.computeVersionId (encodeEnvelope built.mainModule built.modules))
      (promotionOptions host) = .ok () := by
    have hrequired := hdeclared "requiredCapabilities" mem_cons_self
    rw [storedField, hnone] at hrequired
    rw [← hid]
    exact checkPromotion_undeclared hread hrequired rfl
  refine ⟨(s₁.setActiveBatch host.agentId (some (host.computeVersionId
    (encodeEnvelope built.mainModule built.modules))) now (promotionOptions host)), ?_⟩
  unfold maybeAutoRebuild
  rw [hconfig]
  simp only [hold, bind_some, hhash, hsource, if_neg hdrift]
  unfold rebuild
  rw [hbuilt]
  simp only [hcreated, hid]
  unfold promoteRebuilt
  rw [if_neg hne, if_neg Bool.false_ne_true]
  simp only [D1State.setActive, elim_some, hcheck]

/-- A rebuilt version declares what the version it replaces declares, its turns get the same
scope, and it was built from all objects of the source. -/
def Preserves (host : RebuildHost) (bucket : SourceBucket) (space : String) (s s' : D1State)
    (versionId newId : String) (files : List (String × String)) : Prop :=
  ∃ old new, s.getVersion versionId = .ok (some old) ∧ s'.getVersion newId = .ok (some new) ∧
    (∀ name ∈ declaredFields,
      metadataField name new.metadata = metadataField name old.metadata) ∧
    computeTokenScope (some new) = computeTokenScope (some old) ∧
    ∃ sourceName, textField "sourceName" old.metadata = some sourceName ∧
      AllObjects bucket (bundlePrefix space sourceName ++ "/") host.runtimeSource files

/-- The version declares nothing, or what a version stored before with the rebuilt bytes
declares, and each object of the source can be loaded. -/
def RebuiltAlike (host : RebuildHost) (bucket : SourceBucket) (space : String) (s : D1State)
    (versionId : String) : Prop :=
  ∃ old sourceName built, s.getVersion versionId = .ok (some old) ∧
    textField "sourceName" old.metadata = some sourceName ∧
    buildBundle host.createWorker bucket space sourceName host.runtimeSource = some built ∧
    (∀ name ∈ declaredFields, metadataField name old.metadata =
      storedField s (host.computeVersionId (encodeEnvelope built.mainModule built.modules))
        name) ∧
    ∀ path text, (bundlePrefix space sourceName ++ "/" ++ path, text) ∈ bucket.objects →
      Loadable bucket (bundlePrefix space sourceName ++ "/") host.runtimeSource path text

theorem computeTokenScope_congr {v w : BundleVersion}
    (h : metadataField "requiredCapabilities" v.metadata =
      metadataField "requiredCapabilities" w.metadata) :
    computeTokenScope (some v) = computeTokenScope (some w) := by
  unfold computeTokenScope
  rw [bind_some, bind_some, h]

theorem rebuild_preserves_iff (host : RebuildHost) (bucket : SourceBucket) (space : String)
    (hconfig : host.autoRebuild = some (bucket, space)) (attempted : Bool) (s s' : D1State)
    (versionId newId : String) (files : List (String × String)) (now : Instant)
    (visible : Nat → Bool) (writeFails : Bool)
    (hpromoted : maybeAutoRebuild host attempted s versionId now visible writeFails =
      (.promoted newId files, s')) :
    Preserves host bucket space s s' versionId newId files ↔
      RebuiltAlike host bucket space s versionId := by
  obtain ⟨old, new, sourceName, built, hold, hsource, hbuilt, rfl, hnew, hdeclared⟩ :=
    maybeAutoRebuild_promoted hconfig hpromoted
  constructor
  · rintro ⟨old', new', hold', hnew', hsame, -, sourceName', hsource', hall⟩
    obtain rfl : old = old' := by simpa [hold] using hold'
    obtain rfl : new = new' := by simpa [hnew] using hnew'
    obtain rfl : sourceName = sourceName' := Option.some.inj (hsource.symm.trans hsource')
    refine ⟨old, sourceName, built, hold, hsource, hbuilt, ?_, ?_⟩
    · intro name hname
      rw [← hdeclared name hname, hsame name hname]
    · exact (allObjects_loadBundleFiles_iff bucket space sourceName host.runtimeSource).mp hall
  · rintro ⟨old', sourceName', built', hold', hsource', hbuilt', hsame, hall⟩
    obtain rfl : old = old' := by simpa [hold] using hold'
    obtain rfl : sourceName = sourceName' := Option.some.inj (hsource.symm.trans hsource')
    obtain rfl : built = built' := Option.some.inj (hbuilt.symm.trans hbuilt')
    have hfields : ∀ name ∈ declaredFields,
        metadataField name new.metadata = metadataField name old.metadata := by
      intro name hname
      rw [hdeclared name hname, hsame name hname]
    refine ⟨old, new, hold, hnew, hfields, ?_, sourceName, hsource, ?_⟩
    · exact computeTokenScope_congr (hfields _ mem_cons_self)
    · exact (allObjects_loadBundleFiles_iff bucket space sourceName host.runtimeSource).mpr hall

def weatherBucket : SourceBucket where
  objects := [("acme/workshop/bundles/weather/src/index.js", "export default 1")]
  unique := List.nodup_singleton _
  pageSize _ := 1000

/-- What the bundler makes of it: a copy. -/
def weatherBuild : BuildBundleResult where
  mainModule := "src/index.js"
  modules := ⟨[("src/index.js", .str "export default 1")], List.nodup_singleton _⟩
  userFileCount := 1

def digestOfEnvelope (bytes : List UInt8) : String :=
  if bytes.length = 1 then digestOfOne bytes
  else "d0cbce2bb481b4961fcacf1726e555257e6212376bac7b8335bfe7e50da17aad"

def weatherHost : RebuildHost where
  agentId := "researcher"
  runtimeHash := "b2"
  runtimeSource := "export const runtime = 2"
  createWorker files := (fileAt files "src/index.js").map fun text =>
    ("src/index.js", ⟨[("src/index.js", .str text)], List.nodup_singleton _⟩)
  computeVersionId := digestOfEnvelope
  autoRebuild := some (weatherBucket, "acme")
  hostCapabilityIds := ["web-search"]

/-- The metadata of a version that was built with an older runtime. -/
def plainMetadata : JsonObject :=
  ⟨[("runtimeHash", .str "a1"), ("sourceName", .str "weather")], by decide⟩

/-- The same with a requirement. -/
def searchingMetadata : JsonObject :=
  ⟨[("runtimeHash", .str "a1"), ("sourceName", .str "weather"),
    ("requiredCapabilities", .arr [.obj [("id", .str "web-search")]])], by decide⟩

def staleRow (metadata : JsonObject) : VersionRow :=
  ⟨digestOfOne [1], kvKeyOf (digestOfOne [1]), 1, 1700000000000, none,
    some metadata.toJson.stringify⟩

/-- A registry in which the version is active. -/
def staleState (metadata : JsonObject) : D1State where
  versions := [staleRow metadata]
  bundles := [⟨"researcher", some (digestOfOne [1]), none, 1700000000000⟩]

def staleVersion (metadata : JsonObject) : BundleVersion :=
  ⟨digestOfOne [1], kvKeyOf (digestOfOne [1]), 1, 1700000000000, none, some metadata.toJson⟩

theorem getVersion_staleState (metadata : JsonObject) :
    (staleState metadata).getVersion (digestOfOne [1]) = .ok (some (staleVersion metadata)) := by
  have hparsed : D1State.ofRow (staleRow metadata) = .ok (staleVersion metadata) :=
    D1State.ofRow_stringify rfl
  have hrow : (staleState metadata).version (digestOfOne [1]) = some (staleRow metadata) := rfl
  rw [D1State.getVersion, hrow]
  simp only [hparsed]
  rfl

theorem weatherBuild_eq : buildBundle weatherHost.createWorker weatherBucket "acme" "weather"
    weatherHost.runtimeSource = some weatherBuild := by
  rfl

theorem length_weatherEnvelope :
    (encodeEnvelope weatherBuild.mainModule weatherBuild.modules).length = 81 := by
  decide

theorem rebuiltId_eq :
    weatherHost.computeVersionId (encodeEnvelope weatherBuild.mainModule weatherBuild.modules) =
      "d0cbce2bb481b4961fcacf1726e555257e6212376bac7b8335bfe7e50da17aad" := by
  have hlong : (encodeEnvelope weatherBuild.mainModule weatherBuild.modules).length ≠ 1 := by
    rw [length_weatherEnvelope]
    decide
  have hdigest : weatherHost.computeVersionId = digestOfEnvelope := rfl
  rw [hdigest, digestOfEnvelope, if_neg hlong]

def weatherFiles : List (String × String) :=
  (loadBundleFiles weatherBucket "acme" "weather" weatherHost.runtimeSource).files

theorem stale_promoted {metadata : JsonObject}
    (hhash : textField "runtimeHash" (some metadata.toJson) = some "a1")
    (hsource : textField "sourceName" (some metadata.toJson) = some "weather") :
    ∃ s', maybeAutoRebuild weatherHost false (staleState metadata) (digestOfOne [1]) 1700000001000
      (fun _ => true) false =
        (.promoted "d0cbce2bb481b4961fcacf1726e555257e6212376bac7b8335bfe7e50da17aad"
          weatherFiles, s') := by
  rw [← rebuiltId_eq]
  apply maybeAutoRebuild_new rfl (getVersion_staleState metadata) hhash (by decide) hsource
    weatherBuild_eq
  · rw [length_weatherEnvelope]
    decide
  · rw [rebuiltId_eq]
    rfl
  · rfl

theorem storedField_staleState (metadata : JsonObject) (name : String) :
    storedField (staleState metadata) (weatherHost.computeVersionId
      (encodeEnvelope weatherBuild.mainModule weatherBuild.modules)) name = none := by
  rw [rebuiltId_eq]
  rfl

/-- A version that declares nothing is rebuilt as it was. -/
theorem plain_preserved :
    ∃ s', maybeAutoRebuild weatherHost false (staleState plainMetadata) (digestOfOne [1])
        1700000001000 (fun _ => true) false =
          (.promoted "d0cbce2bb481b4961fcacf1726e555257e6212376bac7b8335bfe7e50da17aad"
            weatherFiles, s') ∧
      Preserves weatherHost weatherBucket "acme" (staleState plainMetadata) s' (digestOfOne [1])
        "d0cbce2bb481b4961fcacf1726e555257e6212376bac7b8335bfe7e50da17aad" weatherFiles := by
  have hpromoted : ∃ s', maybeAutoRebuild weatherHost false (staleState plainMetadata)
      (digestOfOne [1]) 1700000001000 (fun _ => true) false = (_, s') := stale_promoted rfl rfl
  obtain ⟨s', hpromoted⟩ := hpromoted
  refine ⟨s', hpromoted, ?_⟩
  apply (rebuild_preserves_iff weatherHost weatherBucket "acme" rfl false _ s' _ _ _ _ _ _
    hpromoted).mpr
  refine ⟨staleVersion plainMetadata, "weather", weatherBuild, getVersion_staleState _, rfl,
    weatherBuild_eq, ?_, ?_⟩
  · intro name hname
    rw [storedField_staleState]
    have hundeclared : ∀ name ∈ declaredFields, name ∉ ["runtimeHash", "sourceName"] := by decide
    change Json.field name plainMetadata.toJson = none
    rw [JsonObject.field_toJson]
    exact (JsonObject.get_eq_none_iff _ name).mpr (hundeclared name hname)
  · intro path text hobject
    obtain ⟨hkey, -⟩ := Prod.mk.inj (mem_singleton.mp hobject)
    obtain rfl : path = "src/index.js" :=
      append_injective (bundlePrefix "acme" "weather" ++ "/") (hkey.trans rfl)
    exact ⟨by decide, by decide, by decide⟩

/-- A version that requires a capability is promoted without the requirement. -/
theorem searching_lost :
    ∃ s', maybeAutoRebuild weatherHost false (staleState searchingMetadata) (digestOfOne [1])
        1700000001000 (fun _ => true) false =
          (.promoted "d0cbce2bb481b4961fcacf1726e555257e6212376bac7b8335bfe7e50da17aad"
            weatherFiles, s') ∧
      ¬Preserves weatherHost weatherBucket "acme" (staleState searchingMetadata) s'
        (digestOfOne [1]) "d0cbce2bb481b4961fcacf1726e555257e6212376bac7b8335bfe7e50da17aad"
        weatherFiles := by
  have hpromoted : ∃ s', maybeAutoRebuild weatherHost false (staleState searchingMetadata)
      (digestOfOne [1]) 1700000001000 (fun _ => true) false = (_, s') := stale_promoted rfl rfl
  obtain ⟨s', hpromoted⟩ := hpromoted
  refine ⟨s', hpromoted, ?_⟩
  rintro ⟨old, new, hold, hnew, hsame, -⟩
  obtain ⟨old', new', sourceName, built, hold', hsource, hbuilt, -, hnew', hdeclared⟩ :=
    maybeAutoRebuild_promoted rfl hpromoted
  rw [getVersion_staleState] at hold hold'
  cases hold
  cases hold'
  obtain rfl : new = new' := by simpa [hnew] using hnew'
  obtain rfl : "weather" = sourceName := Option.some.inj hsource
  obtain rfl : weatherBuild = built := Option.some.inj (weatherBuild_eq.symm.trans hbuilt)
  have hlost := (hsame "requiredCapabilities" mem_cons_self).symm.trans
    (hdeclared "requiredCapabilities" mem_cons_self)
  rw [storedField_staleState] at hlost
  cases hlost

end CrabbyKit.DispatchHost
