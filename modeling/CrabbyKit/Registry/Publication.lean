import CrabbyKit.Registry.D1

/-!
# What of a declaration is published

A bundle's metadata goes through the sanitiser and a text column before the checks of `setActive`
and of a dispatch read it back. It comes back whole exactly when every member is one that the
sanitiser stores as it is.
-/

namespace CrabbyKit.BundleRegistry

namespace D1State

variable {s : D1State} {row : VersionRow}

theorem version_append (h : s.version row.versionId = none) :
    Table.lookup VersionRow.versionId (s.versions ++ [row]) row.versionId = some row := by
  rw [Table.lookup_concat, if_pos rfl, show Table.lookup _ _ _ = none from h, Option.none_or]

theorem ofRow_stringify {metadata : JsonObject}
    (h : row.metadata = some metadata.toJson.stringify) :
    ofRow row = .ok { versionId := row.versionId, kvKey := row.kvKey, sizeBytes := row.sizeBytes,
                      createdAt := row.createdAt, createdBy := row.createdBy,
                      metadata := some metadata.toJson } := by
  have hne : metadata.toJson.stringify ≠ "" := by
    intro heq
    obtain ⟨c, cs, htext, _⟩ := Json.head_write metadata.toJson
    have hchars := congrArg String.toList heq
    rw [Json.stringify, String.toList_ofList, htext] at hchars
    cases hchars
  rw [ofRow, h]
  simp only [if_neg hne, Json.parse_stringify]
  rfl

variable {version : BundleVersion}

theorem versionId_ofRow (h : ofRow row = .ok version) : version.versionId = row.versionId := by
  unfold ofRow at h
  split at h
  · cases h
    rfl
  · split at h
    · cases h
      rfl
    · split at h
      · cases h
        rfl
      · cases h

variable {computeVersionId : List UInt8 → String}

variable {opts : CreateVersionOpts} {visible : Nat → Bool} {declared : JsonObject}

theorem getVersion_createVersion {s' : D1State} {now : Instant}
    (hnew : s.version (computeVersionId opts.bytes) = none)
    (hdeclared : opts.metadata = some declared)
    (h : s.createVersion computeVersionId opts now visible = (.ok version, s')) :
    s'.getVersion version.versionId = .ok (some version) ∧
      version.metadata = some (sanitizeMetadata declared).toJson := by
  by_cases hsize : opts.bytes.length ≤ maxBundleSizeBytes
  · cases hvisible : verifyKvReadback visible with
    | false =>
      have hhidden : ∃ e, s.createVersion computeVersionId opts now visible = (.error e, _) :=
        createVersion_hidden hsize hnew hvisible
      obtain ⟨e, herror⟩ := hhidden
      rw [herror] at h
      cases h
    | true =>
      rw [createVersion_new hsize hnew hvisible] at h
      obtain ⟨hversion, hstate⟩ := Prod.mk.inj h
      obtain rfl := Except.ok.inj hversion
      subst hstate
      have hmetadata : (newVersion computeVersionId opts now).metadata =
          some (sanitizeMetadata declared).toJson := by
        rw [newVersion, hdeclared]
        rfl
      refine ⟨?_, hmetadata⟩
      have hrow : (newRow computeVersionId opts now).metadata =
          some (sanitizeMetadata declared).toJson.stringify := by
        rw [newRow, hdeclared]
        rfl
      rw [getVersion, version, show (newVersion computeVersionId opts now).versionId =
        (newRow computeVersionId opts now).versionId from rfl, version_append hnew]
      simp only
      rw [ofRow_stringify hrow, ← hmetadata]
      rfl
  · have hlarge : ∃ e, s.createVersion computeVersionId opts now visible = (.error e, s) :=
      createVersion_large (Nat.not_le.mp hsize)
    obtain ⟨e, herror⟩ := hlarge
    rw [herror] at h
    cases h

theorem getVersion_created {s' : D1State} {now : Instant}
    (hdeclared : opts.metadata = some declared)
    (h : s.createVersion computeVersionId opts now visible = (.ok version, s')) :
    s'.getVersion version.versionId = .ok (some version) ∧
      (s.getVersion (computeVersionId opts.bytes) = .ok none ∧
          version.metadata = some (sanitizeMetadata declared).toJson ∨
        s.getVersion (computeVersionId opts.bytes) = .ok (some version)) := by
  cases hrow : s.version (computeVersionId opts.bytes) with
  | none =>
    obtain ⟨hread, hmetadata⟩ := getVersion_createVersion hrow hdeclared h
    refine ⟨hread, Or.inl ⟨?_, hmetadata⟩⟩
    rw [getVersion, hrow]
  | some row =>
    by_cases hsize : opts.bytes.length ≤ maxBundleSizeBytes
    · rw [createVersion_known hsize hrow] at h
      obtain ⟨hversion, rfl⟩ := Prod.mk.inj h
      have hid : version.versionId = computeVersionId opts.bytes :=
        (versionId_ofRow hversion).trans (Table.mem_of_lookup hrow).2
      have hread : s.getVersion (computeVersionId opts.bytes) = .ok (some version) := by
        rw [getVersion, hrow]
        simp only [hversion]
        rfl
      exact ⟨hid ▸ hread, Or.inr hread⟩
    · have hlarge : ∃ e, s.createVersion computeVersionId opts now visible = (.error e, s) :=
        createVersion_large (Nat.not_le.mp hsize)
      obtain ⟨e, herror⟩ := hlarge
      rw [herror] at h
      cases h

end D1State

/-- After publication, the version read back declares the requirements and every other member. -/
def Survives (s : D1State) (versionId : String) (ids : List String) (others : JsonObject) : Prop :=
  ∃ version metadata, s.getVersion versionId = .ok (some version) ∧
    version.metadata = some metadata ∧
    Json.field "requiredCapabilities" metadata =
      (if ids = [] then none else some (requirementsJson ids)) ∧
    ∀ name ≠ "requiredCapabilities", Json.field name metadata = others.get name

variable {others : JsonObject}

theorem get_withRequired (h : others.get "requiredCapabilities" = none)
    (ids : List String) (name : String) :
    (withRequired others ids).get name =
      if name = "requiredCapabilities" then
        (if ids = [] then none else some (requirementsJson ids))
      else others.get name := by
  unfold withRequired
  by_cases hids : ids = []
  · rw [if_pos hids, if_pos hids]
    split
    · rename_i hname
      rw [hname, h]
    · rfl
  · rw [if_neg hids, if_neg hids, JsonObject.get_set]

theorem get_sanitize_eq_iff (declared : JsonObject) :
    (∀ name, (sanitizeMetadata declared).get name = declared.get name) ↔
      ∀ name value, declared.get name = some value → Kept name value := by
  constructor
  · intro h name value hget
    have hread := h name
    rw [sanitizeMetadata, JsonObject.get_filter, hget] at hread
    exact sanitizeMember_eq_self_iff.mp hread
  · intro h name
    rw [sanitizeMetadata, JsonObject.get_filter]
    cases hget : declared.get name with
    | none => rfl
    | some value => exact sanitizeMember_eq_self_iff.mpr (h name value hget)

variable {ids : List String}

theorem kept_withRequired_iff
    (hothers : others.get "requiredCapabilities" = none) (hids : ∀ id ∈ ids, ValidId id) :
    (∀ name value, (withRequired others ids).get name = some value → Kept name value) ↔
      ids.length ≤ metadataCapabilityIdsMax ∧ ∀ m ∈ others.members, Kept m.1 m.2 := by
  have hother : ∀ m ∈ others.members, m.1 ≠ "requiredCapabilities" := by
    intro m hm heq
    have hget := (others.get_eq_some_iff m.1 m.2).mpr hm
    rw [heq, hothers] at hget
    cases hget
  constructor
  · intro h
    constructor
    · by_cases hne : ids = []
      · rw [hne]
        exact Nat.zero_le _
      · apply (kept_requirements_iff hne hids).mp
        apply h
        rw [get_withRequired hothers, if_pos rfl, if_neg hne]
    · intro m hm
      apply h
      rw [get_withRequired hothers, if_neg (hother m hm)]
      exact (others.get_eq_some_iff m.1 m.2).mpr hm
  · rintro ⟨hlen, hkept⟩ name value hget
    rw [get_withRequired hothers] at hget
    by_cases hname : name = "requiredCapabilities"
    · rw [if_pos hname] at hget
      by_cases hne : ids = []
      · rw [if_pos hne] at hget
        cases hget
      · rw [if_neg hne] at hget
        rw [hname, ← Option.some.inj hget]
        exact (kept_requirements_iff hne hids).mpr hlen
    · rw [if_neg hname] at hget
      exact hkept (name, value) ((others.get_eq_some_iff name value).mp hget)

theorem survives_iff {computeVersionId : List UInt8 → String} {s s' : D1State}
    {opts : CreateVersionOpts} {now : Instant} {visible : Nat → Bool} {version : BundleVersion}
    (hothers : others.get "requiredCapabilities" = none)
    (hdeclared : opts.metadata = some (withRequired others ids))
    (hnew : s.version (computeVersionId opts.bytes) = none)
    (hcreate : s.createVersion computeVersionId opts now visible = (.ok version, s')) :
    Survives s' version.versionId ids others ↔
      ∀ name, (sanitizeMetadata (withRequired others ids)).get name =
        (withRequired others ids).get name := by
  obtain ⟨hread, hmetadata⟩ := D1State.getVersion_createVersion hnew hdeclared hcreate
  constructor
  · rintro ⟨found, metadata, hfound, hmeta, hrequired, hrest⟩ name
    rw [hread] at hfound
    obtain rfl := Option.some.inj (Except.ok.inj hfound)
    rw [hmetadata] at hmeta
    obtain rfl := Option.some.inj hmeta
    rw [← JsonObject.field_toJson, get_withRequired hothers]
    by_cases hname : name = "requiredCapabilities"
    · rw [if_pos hname, hname]
      exact hrequired
    · rw [if_neg hname]
      exact hrest name hname
  · intro h
    refine ⟨version, _, hread, hmetadata, ?_, ?_⟩
    · rw [JsonObject.field_toJson, h, get_withRequired hothers, if_pos rfl]
    · intro name hname
      rw [JsonObject.field_toJson, h, get_withRequired hothers, if_neg hname]

/-- Validated requirements and the other declared members survive the publication of new bytes
exactly when there are no more requirements than the registry stores, and each other member is one
that it stores as it is. -/
theorem declaration_survives_iff (computeVersionId : List UInt8 → String) (s s' : D1State)
    (raw : Option Json) (ids : List String) (hvalid : validateRequirements raw = .ok ids)
    (others : JsonObject) (hothers : others.get "requiredCapabilities" = none)
    (opts : CreateVersionOpts) (hdeclared : opts.metadata = some (withRequired others ids))
    (hnew : s.version (computeVersionId opts.bytes) = none) (now : Instant)
    (visible : Nat → Bool) (version : BundleVersion)
    (hcreate : s.createVersion computeVersionId opts now visible = (.ok version, s')) :
    Survives s' version.versionId ids others ↔
      ids.length ≤ metadataCapabilityIdsMax ∧ ∀ m ∈ others.members, Kept m.1 m.2 := by
  obtain ⟨_, _, hids⟩ := validateRequirements_ok hvalid
  rw [survives_iff hothers hdeclared hnew hcreate, get_sanitize_eq_iff,
    kept_withRequired_iff hothers hids]

/-- The SHA-256 of the single byte 1. -/
def digestOfOne (_ : List UInt8) : String :=
  "4bf5122f344554c53bde2ebb8cd2b7e3d1600ad631c385a5d7cce23c7785459a"

/-- The publication of that byte with one requirement and other members. -/
def publishOpts (others : JsonObject) : CreateVersionOpts :=
  { bytes := [1], metadata := some (withRequired others ["web-search"]) }

def publish (others : JsonObject) : Except RegistryError BundleVersion × D1State :=
  D1State.createVersion digestOfOne {} (publishOpts others) 0 fun _ => true

def publishedVersion (others : JsonObject) : BundleVersion where
  versionId := digestOfOne [1]
  kvKey := kvKeyOf (digestOfOne [1])
  sizeBytes := 1
  createdAt := 0
  createdBy := none
  metadata := some (sanitizeMetadata (withRequired others ["web-search"])).toJson

def named : JsonObject :=
  ⟨[("name", .str "Researcher"), ("buildTimestamp", .num 1700000000000)], by decide⟩

def withAlarmHook : JsonObject :=
  ⟨[("lifecycleHooks", .obj [("onAlarm", .bool true)])], by decide⟩

theorem publish_eq (others : JsonObject) :
    publish others = (.ok (publishedVersion others), (publish others).2) := rfl

theorem validate_webSearch :
    validateRequirements (some (.arr [.obj [("id", .str "web-search")]])) = .ok ["web-search"] := by
  rfl

/-- A bundle with a name and one requirement comes back whole. -/
theorem named_survives :
    Survives (publish named).2 (digestOfOne [1]) ["web-search"] named := by
  refine (declaration_survives_iff digestOfOne {} (publish named).2 _ ["web-search"]
    validate_webSearch named rfl (publishOpts named) rfl rfl 0 (fun _ => true)
    (publishedVersion named) (publish_eq named)).mpr ⟨by decide, ?_⟩
  intro m hm
  simp only [named, List.mem_cons, List.not_mem_nil, or_false] at hm
  rcases hm with rfl | rfl
  · exact ⟨by decide, "Researcher", rfl, by decide⟩
  · exact ⟨by decide, 1700000000000, rfl⟩

/-- A bundle that declares an alarm hook is published without it. -/
theorem alarmHook_lost :
    validateRequirements (some (.arr [.obj [("id", .str "web-search")]])) = .ok ["web-search"] ∧
    publish withAlarmHook = (.ok (publishedVersion withAlarmHook), (publish withAlarmHook).2) ∧
    ¬Survives (publish withAlarmHook).2 (digestOfOne [1]) ["web-search"] withAlarmHook := by
  refine ⟨validate_webSearch, publish_eq withAlarmHook, ?_⟩
  intro h
  have hcreate : D1State.createVersion digestOfOne {} (publishOpts withAlarmHook) 0
      (fun _ => true) = _ := publish_eq withAlarmHook
  have hsame := (survives_iff rfl rfl rfl hcreate).mp h
  have hkept := (get_sanitize_eq_iff _).mp hsame "lifecycleHooks" _ rfl
  exact absurd hkept.1 (by decide)

end CrabbyKit.BundleRegistry
