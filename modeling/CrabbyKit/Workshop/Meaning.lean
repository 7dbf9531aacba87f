import CrabbyKit.Workshop.Deploy

/-!
# What a deploy means

After a reported success the active version has the bytes of the workspace and declares what the
call declares exactly when the registry had no version with these bytes and stores the declaration
whole, or had one that says the same.
-/

namespace CrabbyKit.Workshop

open BundleRegistry DispatchHost

/-- What the readers of a version make of it: the token scope, the catalog guard, and the two
fields that a rebuild goes by. -/
structure Declares (host : WorkshopHost) (args : DeployArgs) (version : BundleVersion) : Prop where
  scope : computeTokenScope (some version) =
    .ok (.str "spine" :: .str "llm" :: args.requiredCapabilities.map Json.str)
  guard : ∀ knownIds,
    missingIds (metadataField "requiredCapabilities" version.metadata) knownIds =
      .ok (args.requiredCapabilities.filter (· ∉ knownIds)).eraseDups
  sourceName : textField "sourceName" version.metadata = some args.name
  runtimeHash : textField "runtimeHash" version.metadata = some host.runtimeHash

/-- The declaration keeps the limits of the registry. -/
structure Fits (host : WorkshopHost) (args : DeployArgs) : Prop where
  count : args.requiredCapabilities.length ≤ metadataCapabilityIdsMax
  ids : ∀ id ∈ args.requiredCapabilities, id ≠ "" ∧ textLength id ≤ metadataStringMax
  hash : host.runtimeHash ≠ "" ∧ textLength host.runtimeHash ≤ metadataStringMax

def storedId (id : String) : Option String :=
  if id = "" then none else some (sliceText metadataStringMax id)

def storedIds (ids : List String) : List String :=
  (ids.take metadataCapabilityIdsMax).filterMap storedId

variable {ids : List String}

theorem storedIds_eq_self_iff :
    storedIds ids = ids ↔ ids.length ≤ metadataCapabilityIdsMax ∧
      ∀ id ∈ ids, id ≠ "" ∧ textLength id ≤ metadataStringMax := by
  refine filterMap_take_eq_self_iff.trans (and_congr_right fun _ => forall₂_congr fun id _ => ?_)
  unfold storedId
  by_cases hid : id = ""
  · simp [hid]
  · rw [if_neg hid, Option.some_inj, sliceText_eq_self_iff]
    exact (and_iff_right hid).symm

theorem sanitizeMember_requirements (ids : List String) :
    sanitizeMember "requiredCapabilities" (requirementsJson ids) =
      if storedIds ids = [] then none else some (requirementsJson (storedIds ids)) := by
  have hentries : ∀ entries : List String,
      (entries.map fun id => Json.obj [("id", .str id)]).filterMap sanitizeRequirement =
        (entries.filterMap storedId).map fun id => Json.obj [("id", .str id)] := by
    intro entries
    rw [List.filterMap_map, List.map_filterMap]
    refine List.filterMap_congr fun id _ => ?_
    change sanitizeRequirement (.obj [("id", .str id)]) = _
    have hfield : (Json.field "id" (.obj [("id", .str id)])).bind Json.asString = some id := by
      simp [Json.field, Json.asString]
    simp only [sanitizeRequirement, hfield, storedId]
    split_ifs <;> rfl
  have hmember : sanitizeMember "requiredCapabilities" (requirementsJson ids) =
      sanitizeRequirements (requirementsJson ids) := by
    unfold sanitizeMember
    rw [if_neg (by decide), if_neg (by decide), if_pos rfl]
  rw [hmember]
  simp only [requirementsJson, sanitizeRequirements]
  rw [← List.map_take, hentries]
  change (if (storedIds ids).map _ = [] then none else some _) = _
  by_cases hnone : storedIds ids = []
  · rw [if_pos hnone, if_pos (by rw [hnone]; rfl)]
  · rw [if_neg hnone, if_neg fun hmap => hnone (List.map_eq_nil_iff.mp hmap)]
    rfl

theorem get_deployMetadata (host : WorkshopHost) (args : DeployArgs) (now : Instant) :
    (deployMetadata host args now).get "requiredCapabilities" =
        (if args.requiredCapabilities = [] then none
          else some (requirementsJson args.requiredCapabilities)) ∧
      (deployMetadata host args now).get "sourceName" = some (.str args.name) ∧
      (deployMetadata host args now).get "runtimeHash" = some (.str host.runtimeHash) := by
  have hget : ∀ name, (deployMetadata host args now).get name = _ :=
    fun name => get_withRequired rfl args.requiredCapabilities name
  refine ⟨(hget _).trans (if_pos rfl), (hget _).trans ?_, (hget _).trans ?_⟩
  · rfl
  · rfl

theorem metadataField_sanitize (raw : JsonObject) (name : String) :
    metadataField name (some (sanitizeMetadata raw).toJson) =
      (raw.get name).bind (sanitizeMember name) := by
  rw [metadataField, Option.bind_some, JsonObject.field_toJson, sanitizeMetadata,
    JsonObject.get_filter]

theorem metadataField_requirements (host : WorkshopHost) (args : DeployArgs) (now : Instant) :
    metadataField "requiredCapabilities"
        (some (sanitizeMetadata (deployMetadata host args now)).toJson) =
      if storedIds args.requiredCapabilities = [] then none
      else some (requirementsJson (storedIds args.requiredCapabilities)) := by
  rw [metadataField_sanitize, (get_deployMetadata host args now).1]
  by_cases hnone : args.requiredCapabilities = []
  · rw [if_pos hnone, hnone]
    rfl
  · rw [if_neg hnone, Option.bind_some, sanitizeMember_requirements]

variable {version : BundleVersion}

theorem computeTokenScope_requirements
    (h : metadataField "requiredCapabilities" version.metadata =
      if ids = [] then none else some (requirementsJson ids)) :
    computeTokenScope (some version) = .ok (.str "spine" :: .str "llm" :: ids.map Json.str) := by
  have hscope : ∀ entries : List String,
      (entries.map fun id => Json.obj [("id", .str id)]).mapM requirementScope =
        .ok (entries.map Json.str) := by
    intro entries
    induction entries with
    | nil => rfl
    | cons id entries ih =>
      rw [List.map_cons, List.mapM_cons, ih]
      simp only [requirementScope, Json.field]
      rfl
  unfold computeTokenScope
  rw [Option.bind_some, h]
  by_cases hnone : ids = []
  · rw [if_pos hnone, hnone]
    rfl
  · rw [if_neg hnone]
    simp only [requirementsJson, hscope]
    rfl

theorem missingIds_requirements (ids knownIds : List String) :
    missingIds (if ids = [] then none else some (requirementsJson ids)) knownIds =
      .ok (ids.filter (· ∉ knownIds)).eraseDups := by
  have hids : (ids.map fun id => Json.obj [("id", .str id)]).filterMap entryId = ids := by
    rw [List.filterMap_map]
    refine (List.filterMap_congr fun id _ => ?_).trans List.filterMap_some
    simp [entryId, Json.field, Json.asString]
  by_cases hnone : ids = []
  · rw [if_pos hnone, hnone]
    rfl
  · have hlength : ((ids.map fun id => Json.obj [("id", .str id)]).length : Int) ≠ 0 := by
      rw [List.length_map]
      simpa using hnone
    rw [if_neg hnone]
    simp only [missingIds, emptyList, requirementsJson, Json.truthy, lengthOf, Option.some.injEq,
      iterate]
    rw [if_neg (by simpa using hlength)]
    change Except.ok _ = _
    rw [hids]

theorem textField_sanitize {raw : JsonObject} {name text : String}
    (hget : raw.get name = some (.str text))
    (hmember : sanitizeMember name (.str text) = some (.str (sliceText metadataStringMax text))) :
    textField name (some (sanitizeMetadata raw).toJson) = some text ↔
      text ≠ "" ∧ textLength text ≤ metadataStringMax := by
  have hfield : metadataField name (some (sanitizeMetadata raw).toJson) =
      some (.str (sliceText metadataStringMax text)) := by
    rw [metadataField_sanitize, hget, Option.bind_some, hmember]
  have hread : textField name (some (sanitizeMetadata raw).toJson) =
      if sliceText metadataStringMax text = "" then none
      else some (sliceText metadataStringMax text) := by
    simp only [textField, hfield]
  rw [hread]
  constructor
  · intro h
    split_ifs at h with hempty
    have hslice := Option.some.inj h
    exact ⟨fun htext => hempty (hslice.trans htext), sliceText_eq_self_iff.mp hslice⟩
  · rintro ⟨hne, hshort⟩
    have hslice := sliceText_eq_self_iff.mpr hshort
    rw [hslice, if_neg hne]

theorem validateBundleName_none {name : String} (h : validateBundleName name = none) :
    name ≠ "" ∧ textLength name ≤ 64 := by
  unfold validateBundleName at h
  split_ifs at h with hempty hregex hlong
  exact ⟨hempty, Nat.not_lt.mp hlong⟩

variable {now : Instant}

theorem declares_stored_iff {host : WorkshopHost} {args : DeployArgs}
    (hname : validateBundleName args.name = none)
    (hmetadata : version.metadata = some (sanitizeMetadata (deployMetadata host args now)).toJson) :
    Declares host args version ↔ Fits host args := by
  have hrequired : metadataField "requiredCapabilities" version.metadata =
      if storedIds args.requiredCapabilities = [] then none
      else some (requirementsJson (storedIds args.requiredCapabilities)) := by
    rw [hmetadata, metadataField_requirements]
  obtain ⟨-, hsource, hhash⟩ := get_deployMetadata host args now
  have hread : textField "sourceName" version.metadata = some args.name := by
    obtain ⟨hne, hshort⟩ := validateBundleName_none hname
    rw [hmetadata]
    exact (textField_sanitize hsource rfl).mpr ⟨hne, Nat.le_trans hshort (by decide)⟩
  have hhash_iff : textField "runtimeHash" version.metadata = some host.runtimeHash ↔ _ :=
    hmetadata ▸ textField_sanitize hhash rfl
  have hscope := computeTokenScope_requirements hrequired
  constructor
  · intro h
    have hstored : storedIds args.requiredCapabilities = args.requiredCapabilities := by
      have hlists := Except.ok.inj (hscope.symm.trans h.scope)
      have hids := (List.cons.inj (List.cons.inj hlists).2).2
      exact List.map_injective_iff.mpr (fun _ _ => Json.str.inj) hids
    obtain ⟨hcount, hids⟩ := storedIds_eq_self_iff.mp hstored
    exact ⟨hcount, hids, hhash_iff.mp h.runtimeHash⟩
  · rintro ⟨hcount, hids, hshort⟩
    have hstored := storedIds_eq_self_iff.mpr ⟨hcount, hids⟩
    rw [hstored] at hrequired hscope
    refine ⟨hscope, fun knownIds => ?_, hread, hhash_iff.mpr hshort⟩
    rw [hrequired]
    exact missingIds_requirements args.requiredCapabilities knownIds

variable {computeVersionId : List UInt8 → String}

variable {s : D1State} {opts : CreateVersionOpts} {visible : Nat → Bool} {id : String}

theorem version_createVersion {row : VersionRow} (h : s.version id = some row) :
    (s.createVersion computeVersionId opts now visible).2.version id = some row := by
  by_cases hsize : opts.bytes.length ≤ maxBundleSizeBytes
  · cases hknown : s.version (computeVersionId opts.bytes) with
    | some known =>
      rw [D1State.createVersion_known hsize hknown]
      exact h
    | none =>
      cases hvisible : D1State.verifyKvReadback visible with
      | true =>
        rw [D1State.createVersion_new hsize hknown hvisible]
        change Table.lookup VersionRow.versionId (s.versions ++ [_]) id = some row
        rw [Table.lookup_concat, show Table.lookup _ s.versions id = some row from h]
        rfl
      | false =>
        have hhidden : ∃ e, s.createVersion computeVersionId opts now visible = (.error e, _) :=
          D1State.createVersion_hidden hsize hknown hvisible
        obtain ⟨e, herror⟩ := hhidden
        rw [herror]
        exact h
  · have hlarge : ∃ e, s.createVersion computeVersionId opts now visible = (.error e, s) :=
      D1State.createVersion_large (Nat.not_le.mp hsize)
    obtain ⟨e, herror⟩ := hlarge
    rw [herror]
    exact h

variable {callers : Callers}

theorem version_step
    {row : VersionRow} (h : callers.registry.version id = some row) (event : PointerEvent) :
    (callers.step computeVersionId event).registry.version id = some row := by
  cases event with
  | createVersion opts now visible => exact version_createVersion h
  | startSetActive caller agentId versionId options =>
    simp only [Callers.step]
    split
    · split
      · exact h
      · exact h
    · exact h
  | startRollback caller agentId opts =>
    simp only [Callers.step]
    split
    · split
      · exact h
      · exact h
    · exact h
  | finish caller now =>
    simp only [Callers.step]
    split
    · exact h
    · exact h
    · exact h

theorem getVersion_run (h : callers.registry.getVersion id = .ok (some version))
    (events : List PointerEvent) :
    (Run.run (Callers.step computeVersionId) callers events).registry.getVersion id =
      .ok (some version) := by
  unfold D1State.getVersion at h
  cases hrow : callers.registry.version id with
  | none =>
    rw [hrow] at h
    cases h
  | some row =>
    rw [hrow] at h
    have hlater := @Run.run_induction _ _ (Callers.step computeVersionId) callers
      (fun _ s => s.registry.version id = some row) hrow
      (fun _ event s hs => version_step hs event) events
    unfold D1State.getVersion
    rw [hlater]
    exact h

theorem created {s' : D1State}
    (h : s.createVersion computeVersionId opts now visible = (.ok version, s')) :
    version.versionId = computeVersionId opts.bytes ∧
      ((s.version (computeVersionId opts.bytes) = none ∧
          version = D1State.newVersion computeVersionId opts now ∧
          s'.getBytes version.versionId = some opts.bytes) ∨
        (s' = s ∧ s.getVersion (computeVersionId opts.bytes) = .ok (some version))) := by
  by_cases hsize : opts.bytes.length ≤ maxBundleSizeBytes
  · cases hrow : s.version (computeVersionId opts.bytes) with
    | some row =>
      rw [D1State.createVersion_known hsize hrow] at h
      obtain ⟨hversion, rfl⟩ := Prod.mk.inj h
      refine ⟨(D1State.versionId_ofRow hversion).trans (Table.mem_of_lookup hrow).2, .inr ⟨rfl, ?_⟩⟩
      rw [D1State.getVersion, hrow]
      simp only [hversion]
      rfl
    | none =>
      cases hvisible : D1State.verifyKvReadback visible with
      | true =>
        rw [D1State.createVersion_new hsize hrow hvisible] at h
        obtain ⟨hversion, rfl⟩ := Prod.mk.inj h
        obtain rfl := Except.ok.inj hversion
        refine ⟨rfl, .inl ⟨rfl, rfl, ?_⟩⟩
        exact (kvGet_putBytes s (kvKeyOf (computeVersionId opts.bytes)) _ opts.bytes).trans
          (if_pos rfl)
      | false =>
        have hhidden : ∃ e, s.createVersion computeVersionId opts now visible = (.error e, _) :=
          D1State.createVersion_hidden hsize hrow hvisible
        obtain ⟨e, herror⟩ := hhidden
        rw [herror] at h
        cases h
  · have hlarge : ∃ e, s.createVersion computeVersionId opts now visible = (.error e, s) :=
      D1State.createVersion_large (Nat.not_le.mp hsize)
    obtain ⟨e, herror⟩ := hlarge
    rw [herror] at h
    cases h

variable {host : WorkshopHost} {bucket : SourceBucket} {w w' : WorkshopState} {args : DeployArgs}
  {env : DeployEnv} {outcome : DeployOutcome}

variable {built : BuildBundleResult}

variable {target versionId : String}

theorem activate_cases (h : activate host w args env target built versionId = (outcome, w')) :
    ((∃ e, outcome = .refused e) ∧ w'.registry = w.registry) ∨
      ((outcome = .deployed (deployReport host args target built versionId) ∨
          outcome = .thrown) ∧
        w'.registry = w.registry.setActiveBatch target (some versionId) env.activatedAt
          (activationOptions host args)) := by
  unfold activate at h
  by_cases hfails : env.setActiveFails = true
  · rw [if_pos hfails] at h
    obtain ⟨rfl, rfl⟩ := Prod.mk.inj h
    exact .inl ⟨⟨_, rfl⟩, rfl⟩
  · rw [if_neg hfails] at h
    cases hcheck : (some versionId).elim (.ok ()) fun id =>
        w.registry.checkPromotion id (activationOptions host args) with
    | error e =>
      simp only [D1State.setActive, hcheck] at h
      obtain ⟨rfl, rfl⟩ := Prod.mk.inj h
      exact .inl ⟨⟨_, rfl⟩, rfl⟩
    | ok done =>
      simp only [D1State.setActive, hcheck] at h
      split at h
      · obtain ⟨rfl, rfl⟩ := Prod.mk.inj h
        exact .inr ⟨.inr rfl, rfl⟩
      · obtain ⟨rfl, rfl⟩ := Prod.mk.inj h
        exact .inr ⟨.inl rfl, rfl⟩

theorem deployBuilt_cases (h : deployBuilt host w args env target built = (outcome, w')) :
    ((∃ e, outcome = .refused e) ∧ w'.registry.bundles = w.registry.bundles) ∨
      ∃ version registry,
        w.registry.createVersion host.computeVersionId (deployOpts host args built env.builtAt)
          env.createdAt env.visible = (.ok version, registry) ∧
        (outcome = .deployed (deployReport host args target built version.versionId) ∨
          outcome = .thrown) ∧
        w'.registry = registry.setActiveBatch target (some version.versionId)
          env.activatedAt (activationOptions host args) := by
  unfold deployBuilt at h
  simp only at h
  split at h
  · obtain ⟨rfl, rfl⟩ := Prod.mk.inj h
    exact .inl ⟨⟨_, rfl⟩, rfl⟩
  split at h
  · obtain ⟨rfl, rfl⟩ := Prod.mk.inj h
    exact .inl ⟨⟨_, rfl⟩, rfl⟩
  split at h
  · obtain ⟨rfl, rfl⟩ := Prod.mk.inj h
    exact .inl ⟨⟨_, rfl⟩, rfl⟩
  have htables := (D1State.createVersion_tables host.computeVersionId w.registry
    (deployOpts host args built env.builtAt) env.createdAt env.visible).1
  cases hcreated : w.registry.createVersion host.computeVersionId
    (deployOpts host args built env.builtAt) env.createdAt env.visible with
  | mk result registry =>
    rw [hcreated] at htables h
    cases result with
    | error e =>
      obtain ⟨rfl, rfl⟩ := Prod.mk.inj h
      exact .inl ⟨⟨_, rfl⟩, htables⟩
    | ok version =>
      rcases activate_cases h with ⟨hrefused, hsame⟩ | ⟨houtcome, hflipped⟩
      · exact .inl ⟨hrefused, (congrArg D1State.bundles hsame).trans htables⟩
      · exact .inr ⟨version, registry, rfl, houtcome, hflipped⟩

theorem deploy_cases (h : deploy host bucket w args env = (outcome, w')) :
    ((∃ e, outcome = .refused e) ∧ w'.registry.bundles = w.registry.bundles) ∨
      (validateBundleName args.name = none ∧ ∃ built version registry,
        buildBundle host.createWorker bucket host.space args.name host.runtimeSource = some built ∧
        w.registry.createVersion host.computeVersionId (deployOpts host args built env.builtAt)
          env.createdAt env.visible = (.ok version, registry) ∧
        (outcome = .deployed (deployReport host args (args.target host) built version.versionId) ∨
          outcome = .thrown) ∧
        w'.registry = registry.setActiveBatch (args.target host) (some version.versionId)
          env.activatedAt (activationOptions host args)) := by
  unfold deploy at h
  cases hname : validateBundleName args.name with
  | some message =>
    simp only [hname] at h
    obtain ⟨rfl, rfl⟩ := Prod.mk.inj h
    exact .inl ⟨⟨_, rfl⟩, rfl⟩
  | none =>
    simp only [hname] at h
    split at h
    · obtain ⟨rfl, rfl⟩ := Prod.mk.inj h
      exact .inl ⟨⟨_, rfl⟩, rfl⟩
    cases hbuilt : buildBundle host.createWorker bucket host.space args.name host.runtimeSource with
    | none =>
      simp only [hbuilt] at h
      obtain ⟨rfl, rfl⟩ := Prod.mk.inj h
      exact .inl ⟨⟨_, rfl⟩, rfl⟩
    | some built =>
      simp only [hbuilt] at h
      rcases deployBuilt_cases h with hrefused | ⟨version, registry, hcreated, hflipped⟩
      · exact .inl hrefused
      · exact .inr ⟨rfl, built, version, registry, rfl, hcreated, hflipped⟩

theorem getActiveForAgent_setActiveBatch (s : D1State) (agentId : String)
    (versionId : Option String) (now : Instant) (options : SetActiveOptions) :
    (s.setActiveBatch agentId versionId now options).getActiveForAgent agentId = versionId := by
  rw [D1State.getActiveForAgent_eq, D1State.pointer_setActiveBatch, if_pos rfl]
  rfl

/-- The active version of the target has the bytes built from all files of the workspace, and is
read now and after any later calls as a version that declares what the call does. -/
structure Delivered (host : WorkshopHost) (bucket : SourceBucket) (args : DeployArgs)
    (registry : D1State) (versionId : String) : Prop where
  active : registry.getActiveForAgent (args.target host) = some versionId
  files : AllObjects bucket (bundlePrefix host.space args.name ++ "/") host.runtimeSource
    (loadBundleFiles bucket host.space args.name host.runtimeSource).files
  bytes : ∃ built,
    buildBundle host.createWorker bucket host.space args.name host.runtimeSource = some built ∧
    registry.getBytes versionId = some (encodeEnvelope built.mainModule built.modules)
  declared : ∃ version, Declares host args version ∧ ∀ pending successive events,
    (Run.run (Callers.step host.computeVersionId) { registry, pending, successive }
      events).registry.getVersion versionId = .ok (some version)

/-- Every file of the workspace can be loaded; and the registry has no version under the hash of
the build and takes the whole declaration, or has these bytes there with what the call declares. -/
def Carried (host : WorkshopHost) (bucket : SourceBucket) (args : DeployArgs) (s : D1State) :
    Prop :=
  (∀ path text, (bundlePrefix host.space args.name ++ "/" ++ path, text) ∈ bucket.objects →
    Loadable bucket (bundlePrefix host.space args.name ++ "/") host.runtimeSource path text) ∧
  ∃ built,
    buildBundle host.createWorker bucket host.space args.name host.runtimeSource = some built ∧
    ((s.version (host.computeVersionId (encodeEnvelope built.mainModule built.modules)) = none ∧
        Fits host args) ∨
      ∃ version, s.getVersion
          (host.computeVersionId (encodeEnvelope built.mainModule built.modules)) =
            .ok (some version) ∧
        s.getBytes (host.computeVersionId (encodeEnvelope built.mainModule built.modules)) =
          some (encodeEnvelope built.mainModule built.modules) ∧
        Declares host args version)

theorem bytes_deployOpts (built : BuildBundleResult) (buildTimestamp : Instant) :
    (deployOpts host args built buildTimestamp).bytes =
      encodeEnvelope built.mainModule built.modules := by
  rw [deployOpts]

theorem delivered_iff {registry : D1State} (hname : validateBundleName args.name = none)
    (hbuilt : buildBundle host.createWorker bucket host.space args.name host.runtimeSource =
      some built)
    (hcreated : w.registry.createVersion host.computeVersionId
      (deployOpts host args built env.builtAt) env.createdAt env.visible = (.ok version, registry))
    (hflipped : w'.registry = registry.setActiveBatch (args.target host) (some version.versionId)
      env.activatedAt (activationOptions host args)) :
    Delivered host bucket args w'.registry version.versionId ↔
      Carried host bucket args w.registry := by
  have hread := (D1State.getVersion_created rfl hcreated).1
  have hnow : w'.registry.getVersion version.versionId = .ok (some version) := by
    rw [hflipped]
    exact (getVersion_congr rfl _).trans hread
  have hbytes : w'.registry.getBytes version.versionId = registry.getBytes version.versionId := by
    rw [hflipped]
    rfl
  have hactive : w'.registry.getActiveForAgent (args.target host) = some version.versionId := by
    rw [hflipped]
    exact getActiveForAgent_setActiveBatch _ _ _ _ _
  have hlater : Declares host args version → ∃ version', Declares host args version' ∧
      ∀ pending successive events, (Run.run (Callers.step host.computeVersionId)
        { registry := w'.registry, pending, successive } events).registry.getVersion
          version.versionId = .ok (some version') :=
    fun hdeclares => ⟨version, hdeclares, fun _ _ events => getVersion_run hnow events⟩
  have hdeclared : Delivered host bucket args w'.registry version.versionId →
      Declares host args version := by
    rintro ⟨-, -, -, version', hdeclares, hall⟩
    have hsame := (hall (fun _ => .idle) [] []).symm.trans hnow
    obtain rfl := Option.some.inj (Except.ok.inj hsame)
    exact hdeclares
  have hfiles := allObjects_loadBundleFiles_iff bucket host.space args.name host.runtimeSource
  have hcall := created hcreated
  rw [bytes_deployOpts] at hcall
  obtain ⟨hid, ⟨hnone, hnew, hput⟩ | ⟨hsame, hknown⟩⟩ := hcall
  · have hmetadata : version.metadata =
        some (sanitizeMetadata (deployMetadata host args env.builtAt)).toJson := by
      rw [hnew, D1State.newVersion, deployOpts]
      rfl
    have hfits : Declares host args version ↔ Fits host args :=
      declares_stored_iff hname hmetadata
    constructor
    · intro h
      exact ⟨hfiles.mp h.files, built, hbuilt, .inl ⟨hnone, hfits.mp (hdeclared h)⟩⟩
    · rintro ⟨hload, built', hbuilt', ⟨-, hfit⟩ | ⟨version', hversion', -, -⟩⟩
      · exact ⟨hactive, hfiles.mpr hload, ⟨built, hbuilt, hbytes.trans hput⟩,
          hlater (hfits.mpr hfit)⟩
      · obtain rfl := Option.some.inj (hbuilt.symm.trans hbuilt')
        unfold D1State.getVersion at hversion'
        rw [hnone] at hversion'
        cases hversion'
  · subst hsame
    constructor
    · intro h
      obtain ⟨built', hbuilt', hstored⟩ := h.bytes
      obtain rfl := Option.some.inj (hbuilt.symm.trans hbuilt')
      refine ⟨hfiles.mp h.files, built, hbuilt, .inr ⟨version, hknown, ?_, hdeclared h⟩⟩
      rw [← hid, ← hbytes, hstored]
    · rintro ⟨hload, built', hbuilt', ⟨hnone, -⟩ | ⟨version', hversion', hstored, hdeclares⟩⟩
      · obtain rfl := Option.some.inj (hbuilt.symm.trans hbuilt')
        unfold D1State.getVersion at hknown
        rw [hnone] at hknown
        cases hknown
      · obtain rfl := Option.some.inj (hbuilt.symm.trans hbuilt')
        obtain rfl := Option.some.inj (Except.ok.inj (hknown.symm.trans hversion'))
        refine ⟨hactive, hfiles.mpr hload, ⟨built, hbuilt, ?_⟩, hlater hdeclares⟩
        rw [hbytes, hid, hstored]

/-- A deploy that reports success means what it says exactly when its declaration is carried; one
that is refused leaves the pointer, and one that throws after the flip leaves it exactly when the
version was the active one before. -/
theorem deploy_means_iff (host : WorkshopHost) (bucket : SourceBucket) (w : WorkshopState)
    (args : DeployArgs) (env : DeployEnv) :
    (∀ report w', deploy host bucket w args env = (.deployed report, w') →
      (Delivered host bucket args w'.registry report.versionId ↔
        Carried host bucket args w.registry)) ∧
    (∀ e w', deploy host bucket w args env = (.refused e, w') →
      w'.registry.getActiveForAgent (args.target host) =
        w.registry.getActiveForAgent (args.target host)) ∧
    (∀ w', deploy host bucket w args env = (.thrown, w') →
      (w'.registry.getActiveForAgent (args.target host) =
          w.registry.getActiveForAgent (args.target host) ↔
        ∃ built, buildBundle host.createWorker bucket host.space args.name host.runtimeSource =
            some built ∧
          w.registry.getActiveForAgent (args.target host) =
            some (host.computeVersionId (encodeEnvelope built.mainModule built.modules)))) := by
  refine ⟨fun report w' h => ?_, fun e w' h => ?_, fun w' h => ?_⟩
  · rcases deploy_cases h with ⟨⟨e, hrefused⟩, -⟩ |
      ⟨hname, built, version, registry, hbuilt, hcreated, houtcome, hflipped⟩
    · cases hrefused
    · rcases houtcome with hdeployed | hthrown
      · cases hdeployed
        exact delivered_iff hname hbuilt hcreated hflipped
      · cases hthrown
  · rcases deploy_cases h with ⟨-, hsame⟩ | ⟨-, built, version, registry, -, -, houtcome, -⟩
    · unfold D1State.getActiveForAgent D1State.bundle
      rw [hsame]
    · rcases houtcome with hdeployed | hthrown
      · cases hdeployed
      · cases hthrown
  · rcases deploy_cases h with ⟨⟨e, hrefused⟩, -⟩ |
      ⟨-, built, version, registry, hbuilt, hcreated, -, hflipped⟩
    · cases hrefused
    · have hactive : w'.registry.getActiveForAgent (args.target host) =
          some version.versionId := by
        rw [hflipped]
        exact getActiveForAgent_setActiveBatch _ _ _ _ _
      have hid := (created hcreated).1
      rw [bytes_deployOpts] at hid
      rw [hactive, hid]
      constructor
      · exact fun hsame => ⟨built, hbuilt, hsame.symm⟩
      · rintro ⟨built', hbuilt', hsame⟩
        obtain rfl := Option.some.inj (hbuilt.symm.trans hbuilt')
        exact hsame.symm

theorem activate_ok
    (hcheck : w.registry.checkPromotion versionId (activationOptions host args) = .ok ()) :
    activate host w args {} target built versionId =
      (.deployed (deployReport host args target built versionId),
        { w with
          registry := w.registry.setActiveBatch target (some versionId) 0
            (activationOptions host args) }) := by
  unfold activate
  simp only [D1State.setActive, Option.elim_some, hcheck]
  rw [if_neg Bool.false_ne_true, if_neg (by rw [Bool.and_false]; exact Bool.false_ne_true)]

section Built

variable {built : BuildBundleResult} (hname : validateBundleName args.name = none)
  (hrate : w.deployCounters (args.target host) = none)
  (hbuilt : buildBundle host.createWorker bucket host.space args.name host.runtimeSource =
    some built)
  (hsmoke : hasDefaultExport (extractModuleContent (built.modules.get built.mainModule)) = true)
  (hsize : (encodeEnvelope built.mainModule built.modules).length ≤ maxBundleSizeBytes)

include hname hrate hbuilt hsmoke hsize

theorem deploy_built {version : BundleVersion} {registry : D1State}
    (hcreated : w.registry.createVersion host.computeVersionId (deployOpts host args built 0) 0
      (fun _ => true) = (.ok version, registry)) :
    ∃ deployCounters, deploy host bucket w args {} =
      activate host { registry, deployCounters } args {} (args.target host) built
        version.versionId := by
  refine ⟨Function.update w.deployCounters (args.target host) (some ⟨1, 60000⟩), ?_⟩
  unfold deploy
  rw [hname]
  simp only [checkDeployRate, hrate]
  rw [if_neg (by decide), hbuilt]
  unfold deployBuilt
  simp only
  rw [hsmoke, if_neg (by decide), if_neg (Nat.not_lt.mpr hsize), if_neg (by decide), hcreated]
  rfl

theorem deploy_fresh (hnew : w.registry.version
      (host.computeVersionId (encodeEnvelope built.mainModule built.modules)) = none)
    (hpromotes : ∀ (s : D1State) version, s.getVersion version.versionId = .ok (some version) →
      version.metadata = some (sanitizeMetadata (deployMetadata host args 0)).toJson →
        s.checkPromotion version.versionId (activationOptions host args) = .ok ()) :
    ∃ report w', deploy host bucket w args {} = (.deployed report, w') := by
  have hbytes : (deployOpts host args built 0).bytes = _ := bytes_deployOpts built 0
  rw [← hbytes] at hsize hnew
  have hcreated : w.registry.createVersion host.computeVersionId (deployOpts host args built 0) 0
      (fun _ => true) = (.ok (D1State.newVersion host.computeVersionId
        (deployOpts host args built 0) 0), _) := D1State.createVersion_new hsize hnew rfl
  rw [hbytes] at hsize
  obtain ⟨deployCounters, hdeploy⟩ := deploy_built hname hrate hbuilt hsmoke hsize hcreated
  rw [activate_ok (hpromotes _ _ (D1State.getVersion_created rfl hcreated).1 (by
    rw [D1State.newVersion, deployOpts]
    rfl))] at hdeploy
  exact ⟨_, _, hdeploy⟩

theorem deploy_known {row : VersionRow} (hrow : w.registry.version
      (host.computeVersionId (encodeEnvelope built.mainModule built.modules)) = some row)
    {version : BundleVersion} (hversion : D1State.ofRow row = .ok version)
    (hpromotes : w.registry.checkPromotion version.versionId (activationOptions host args) =
      .ok ()) :
    ∃ report w', deploy host bucket w args {} = (.deployed report, w') ∧
      report.versionId = version.versionId ∧ w'.registry.versions = w.registry.versions := by
  have hbytes : (deployOpts host args built 0).bytes = _ := bytes_deployOpts built 0
  rw [← hbytes] at hsize hrow
  have hcreated : w.registry.createVersion host.computeVersionId (deployOpts host args built 0) 0
      (fun _ => true) = (D1State.ofRow row, w.registry) := D1State.createVersion_known hsize hrow
  rw [hbytes] at hsize
  rw [hversion] at hcreated
  obtain ⟨deployCounters, hdeploy⟩ := deploy_built hname hrate hbuilt hsmoke hsize hcreated
  exact ⟨_, _, hdeploy.trans (activate_ok hpromotes), rfl, rfl⟩

end Built

def weatherWorkshop : WorkshopHost where
  agentId := "researcher"
  sessionId := "s1"
  runtimeHash := "b2"
  runtimeSource := weatherHost.runtimeSource
  createWorker := weatherHost.createWorker
  computeVersionId := digestOfEnvelope
  space := "acme"
  hostCapabilityIds := ["web-search"]

def searchingArgs : DeployArgs := { name := "weather", requiredCapabilities := ["web-search"] }

def plainArgs : DeployArgs := { name := "weather" }

/-- The version with the same bytes, deployed without requirements. -/
def plainRow : VersionRow :=
  D1State.newRow digestOfEnvelope (deployOpts weatherWorkshop plainArgs weatherBuild 0) 0

def plainVersion : BundleVersion where
  versionId := plainRow.versionId
  kvKey := plainRow.kvKey
  sizeBytes := plainRow.sizeBytes
  createdAt := plainRow.createdAt
  createdBy := plainRow.createdBy
  metadata := some (sanitizeMetadata (deployMetadata weatherWorkshop plainArgs 0)).toJson

def plainRegistry : D1State where
  versions := [plainRow]
  kv := [(plainRow.kvKey, encodeEnvelope weatherBuild.mainModule weatherBuild.modules)]

theorem weather_loadable (path text : String)
    (h : (bundlePrefix "acme" "weather" ++ "/" ++ path, text) ∈ weatherBucket.objects) :
    Loadable weatherBucket (bundlePrefix "acme" "weather" ++ "/") weatherHost.runtimeSource path
      text := by
  obtain ⟨hkey, -⟩ := Prod.mk.inj (List.mem_singleton.mp h)
  obtain rfl : path = "src/index.js" :=
    append_injective (bundlePrefix "acme" "weather" ++ "/") (hkey.trans rfl)
  exact ⟨by decide, by decide, by decide⟩

theorem weather_smoke :
    hasDefaultExport (extractModuleContent (weatherBuild.modules.get weatherBuild.mainModule)) =
      true := by
  decide

theorem weather_size :
    (encodeEnvelope weatherBuild.mainModule weatherBuild.modules).length ≤ maxBundleSizeBytes := by
  rw [length_weatherEnvelope]
  decide

theorem checkPromotion_searching
    (hversion : s.getVersion versionId = .ok (some version))
    (hrequired : metadataField "requiredCapabilities" version.metadata =
      some (requirementsJson ["web-search"])) :
    s.checkPromotion versionId (activationOptions weatherWorkshop searchingArgs) = .ok () := by
  have hreserved : checkReserved (some (requirementsJson ["web-search"])) = .ok () := rfl
  have hcatalog : checkCatalog (some (requirementsJson ["web-search"])) versionId
      (activationOptions weatherWorkshop searchingArgs) = .ok () := rfl
  rw [D1State.checkPromotion, hversion]
  simp only [bind, Except.bind, Option.bind_some, hrequired, hreserved, hcatalog, ite_self]

/-- The first deploy of bytes, with a requirement that the host has. -/
theorem searching_means :
    ∃ report w', deploy weatherWorkshop weatherBucket {} searchingArgs {} =
        (.deployed report, w') ∧
      Delivered weatherWorkshop weatherBucket searchingArgs w'.registry report.versionId := by
  have hdeploy : ∃ report w', deploy weatherWorkshop weatherBucket {} searchingArgs {} =
      (.deployed report, w') := by
    refine deploy_fresh (by decide) rfl weatherBuild_eq weather_smoke weather_size rfl
      fun s version hread hmetadata => checkPromotion_searching hread ?_
    rw [hmetadata]
    exact metadataField_requirements weatherWorkshop searchingArgs 0
  obtain ⟨report, w', hdeploy⟩ := hdeploy
  refine ⟨report, w', hdeploy, ((deploy_means_iff weatherWorkshop weatherBucket {} searchingArgs
    {}).1 report w' hdeploy).mpr ⟨weather_loadable, weatherBuild, weatherBuild_eq, .inl ⟨rfl, ?_⟩⟩⟩
  exact ⟨by decide, by decide, by decide⟩

theorem version_plainRegistry :
    plainRegistry.version (digestOfEnvelope
      (encodeEnvelope weatherBuild.mainModule weatherBuild.modules)) = some plainRow := by
  have hid : plainRow.versionId =
      digestOfEnvelope (encodeEnvelope weatherBuild.mainModule weatherBuild.modules) := by
    rw [plainRow, D1State.newRow, deployOpts]
  rw [← hid]
  exact D1State.version_append (s := {}) rfl

theorem ofRow_plainRow : D1State.ofRow plainRow = .ok plainVersion :=
  D1State.ofRow_stringify (by
    rw [plainRow, D1State.newRow, deployOpts]
    rfl)

theorem plainVersion_undeclared :
    metadataField "requiredCapabilities" plainVersion.metadata = none :=
  metadataField_requirements weatherWorkshop plainArgs 0

/-- A deploy with a requirement, of bytes that were deployed without one, reports success; the
version that it activates has no requirement. -/
theorem redeployed_undeclared :
    ∃ report w', deploy weatherWorkshop weatherBucket { registry := plainRegistry } searchingArgs
        {} = (.deployed report, w') ∧
      ¬ Delivered weatherWorkshop weatherBucket searchingArgs w'.registry report.versionId := by
  have hread : plainRegistry.getVersion plainVersion.versionId = .ok (some plainVersion) := by
    have hid : plainVersion.versionId = digestOfEnvelope
        (encodeEnvelope weatherBuild.mainModule weatherBuild.modules) := by
      rw [plainVersion, plainRow, D1State.newRow, deployOpts]
    rw [D1State.getVersion, hid, version_plainRegistry]
    simp only [ofRow_plainRow]
    rfl
  have hdeploy : ∃ report w', deploy weatherWorkshop weatherBucket { registry := plainRegistry }
      searchingArgs {} = (.deployed report, w') ∧ report.versionId = plainVersion.versionId ∧
        w'.registry.versions = plainRegistry.versions := by
    refine deploy_known (by decide) rfl ?_ weather_smoke weather_size version_plainRegistry
      ofRow_plainRow (checkPromotion_undeclared hread plainVersion_undeclared rfl)
    exact weatherBuild_eq
  obtain ⟨report, w', hdeploy, hid, hversions⟩ := hdeploy
  refine ⟨report, w', hdeploy, fun hdelivered => ?_⟩
  obtain ⟨version, hdeclares, hlater⟩ := hdelivered.declared
  have hnow : w'.registry.getVersion report.versionId = .ok (some version) :=
    hlater (fun _ => .idle) [] []
  rw [getVersion_congr hversions, hid, hread] at hnow
  obtain rfl := Option.some.inj (Except.ok.inj hnow)
  have hscope : computeTokenScope (some plainVersion) =
      .ok (.str "spine" :: .str "llm" :: ([] : List String).map Json.str) :=
    computeTokenScope_requirements plainVersion_undeclared
  cases Except.ok.inj (hscope.symm.trans hdeclares.scope)

/-!
## Stored versions

A version is stored under the hash of its bytes; neither they nor its row change again.
-/

theorem getBytes_createVersion (hrow : s.version id = some row) :
    (s.createVersion computeVersionId opts now visible).2.getBytes id = s.getBytes id := by
  have hput : s.version (computeVersionId opts.bytes) = none →
      (s.putBytes (kvKeyOf (computeVersionId opts.bytes)) opts.bytes).getBytes id =
        s.getBytes id := by
    intro hnone
    refine (kvGet_putBytes ..).trans (if_neg fun hkey => ?_)
    rw [← kvKeyOf_injective hkey, hrow] at hnone
    cases hnone
  unfold D1State.createVersion
  split
  · rfl
  · simp only
    split
    · rfl
    · rename_i hnone
      split <;> exact hput hnone

/-- The bytes of a version: its id is their hash, and its row has their size. -/
def Holds (computeVersionId : List UInt8 → String) (s : D1State) (id : String) (row : VersionRow)
    (bytes : List UInt8) : Prop :=
  s.version id = some row ∧ s.getBytes id = some bytes ∧ computeVersionId bytes = id ∧
    row.sizeBytes = bytes.length

theorem holds_createVersion
    (hrow : (s.createVersion computeVersionId opts now visible).2.version id = some row) :
    s.version id = some row ∨
      Holds computeVersionId (s.createVersion computeVersionId opts now visible).2 id row
        opts.bytes := by
  by_cases hnew : opts.bytes.length ≤ maxBundleSizeBytes ∧
      s.version (computeVersionId opts.bytes) = none ∧ D1State.verifyKvReadback visible = true
  · obtain ⟨hsize, hnone, hvisible⟩ := hnew
    rw [D1State.createVersion_new hsize hnone hvisible] at hrow ⊢
    have hrow' := (@Table.lookup_concat _ _ _ VersionRow.versionId _ _ _).symm.trans hrow
    rcases Option.or_eq_some_iff.mp hrow' with hold | ⟨-, hadded⟩
    · exact .inl hold
    · split_ifs at hadded with hid
      cases hadded
      cases hid
      exact .inr ⟨hrow, (kvGet_putBytes ..).trans (if_pos rfl), rfl, rfl⟩
  · unfold D1State.createVersion at hrow
    split at hrow
    · exact .inl hrow
    · simp only at hrow
      split at hrow
      · exact .inl hrow
      · split at hrow
        · exact absurd ⟨by omega, by assumption, by assumption⟩ hnew
        · exact .inl hrow

/-- Only `createVersion` writes versions and bytes. -/
theorem step_tables (callers : Callers) (event : PointerEvent) :
    (∃ opts now visible, (callers.step computeVersionId event).registry =
      (callers.registry.createVersion computeVersionId opts now visible).2) ∨
    (callers.step computeVersionId event).registry.versions = callers.registry.versions ∧
      (callers.step computeVersionId event).registry.kv = callers.registry.kv := by
  cases event with
  | createVersion opts now visible => exact .inl ⟨opts, now, visible, rfl⟩
  | _ =>
    refine .inr ?_
    simp only [Callers.step]
    split
    all_goals first | exact ⟨rfl, rfl⟩ | split <;> exact ⟨rfl, rfl⟩

theorem Holds.step {bytes : List UInt8} (h : Holds computeVersionId callers.registry id row bytes)
    (event : PointerEvent) :
    Holds computeVersionId (callers.step computeVersionId event).registry id row bytes := by
  refine ⟨version_step h.1 event, ?_, h.2.2⟩
  rcases step_tables callers event with ⟨opts, now, visible, hs⟩ | ⟨-, hkv⟩
  · rw [hs, getBytes_createVersion h.1, h.2.1]
  · rw [D1State.getBytes, D1State.kvGet, hkv]
    exact h.2.1

end CrabbyKit.Workshop
