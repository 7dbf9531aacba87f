import CrabbyKit.Core.JsonText
import CrabbyKit.Registry.Memory

/-!
# What the registry stores of a bundle's metadata

`types.ts` and `sanitizeMetadata` of `d1-registry.ts`: a list of allowed members, and for each of
them what is cut off or left out.
-/

namespace CrabbyKit.BundleRegistry

open List

/-- The allowed members. -/
def metadataKeys : List String :=
  ["id", "name", "description", "declaredModel", "capabilityIds", "authoredBy", "version",
    "buildTimestamp", "runtimeHash", "sourceName", "requiredCapabilities"]

def metadataStringMax : Nat := 256

def metadataDescriptionMax : Nat := 1024

def metadataCapabilityIdsMax : Nat := 32

def sanitizeText (limit : Nat) : Json → Option Json
  | .str text => some (.str (sliceText limit text))
  | _ => none

/-- The texts among the first entries of a list. -/
def sanitizeIds : Json → Option Json
  | .arr items => some (.arr (((items.take metadataCapabilityIdsMax).filterMap Json.asString).map
      fun text => .str (sliceText metadataStringMax text)))
  | _ => none

/-- An entry of `requiredCapabilities` with its id alone. -/
def sanitizeRequirement (entry : Json) : Option Json :=
  match entry with
  | .obj _ =>
    match (Json.field "id" entry).bind Json.asString with
    | some id =>
      if id = "" then none else some (.obj [("id", .str (sliceText metadataStringMax id))])
    | none => none
  | _ => none

/-- The requirements among the first entries of a list; a list with none of them is left out. -/
def sanitizeRequirements : Json → Option Json
  | .arr items =>
    let sanitized := (items.take metadataCapabilityIdsMax).filterMap sanitizeRequirement
    if sanitized = [] then none else some (.arr sanitized)
  | _ => none

def sanitizeMember (key : String) (value : Json) : Option Json :=
  if key ∉ metadataKeys then none
  else if key = "capabilityIds" then sanitizeIds value
  else if key = "requiredCapabilities" then sanitizeRequirements value
  else if key = "buildTimestamp" then
    match value with
    | .num n => some (.num n)
    | _ => none
  else if key = "description" then sanitizeText metadataDescriptionMax value
  else sanitizeText metadataStringMax value

def sanitizeMetadata (raw : JsonObject) : JsonObject := raw.filter sanitizeMember

/-- A text of at most so many code units. -/
def ShortText (limit : Nat) (value : Json) : Prop :=
  ∃ text, value = .str text ∧ textLength text ≤ limit

/-- A requirement as the validator writes it, short enough for the registry. -/
def ShortRequirement (entry : Json) : Prop :=
  ∃ id, entry = .obj [("id", .str id)] ∧ id ≠ "" ∧ textLength id ≤ metadataStringMax

/-- A member that loses nothing: it is allowed, has the type of its name, and keeps the limits of
length and number. -/
def Kept (key : String) (value : Json) : Prop :=
  key ∈ metadataKeys ∧
  if key = "capabilityIds" then
    ∃ items, value = .arr items ∧ items.length ≤ metadataCapabilityIdsMax ∧
      ∀ item ∈ items, ShortText metadataStringMax item
  else if key = "requiredCapabilities" then
    ∃ items, value = .arr items ∧ items ≠ [] ∧ items.length ≤ metadataCapabilityIdsMax ∧
      ∀ item ∈ items, ShortRequirement item
  else if key = "buildTimestamp" then ∃ n, value = .num n
  else if key = "description" then ShortText metadataDescriptionMax value
  else ShortText metadataStringMax value

variable {value : Json}

theorem sanitizeText_eq_self_iff {limit : Nat} :
    sanitizeText limit value = some value ↔ ShortText limit value := by
  cases value with
  | str text =>
    simp only [sanitizeText, Option.some.injEq, Json.str.injEq, sliceText_eq_self_iff, ShortText,
      exists_eq_left']
  | _ => simp [sanitizeText, ShortText]

theorem filterMap_take_eq_self_iff {α : Type} {f : α → Option α} {limit : Nat} {items : List α} :
    (items.take limit).filterMap f = items ↔
      items.length ≤ limit ∧ ∀ item ∈ items, f item = some item := by
  constructor
  · intro h
    have hshort : items.length ≤ limit := by
      have hlen := congrArg List.length h
      have hle := length_filterMap_le f (items.take limit)
      rw [length_take] at hle
      omega
    rw [take_of_length_le hshort] at h
    refine ⟨hshort, ?_⟩
    clear hshort
    induction items with
    | nil => simp
    | cons item items ih =>
      rw [filterMap_cons] at h
      cases hitem : f item with
      | none =>
        rw [hitem] at h
        have hlen := congrArg List.length h
        have hle := length_filterMap_le f items
        simp only [length_cons] at hlen
        omega
      | some made =>
        rw [hitem] at h
        obtain ⟨rfl, htail⟩ := List.cons.inj h
        exact forall_mem_cons.mpr ⟨hitem, ih htail⟩
  · rintro ⟨hshort, hall⟩
    rw [take_of_length_le hshort]
    calc items.filterMap f = items.filterMap some := filterMap_congr hall
      _ = items := filterMap_some

theorem sanitizeIds_eq_self_iff :
    sanitizeIds value = some value ↔ ∃ items, value = .arr items ∧
      items.length ≤ metadataCapabilityIdsMax ∧
      ∀ item ∈ items, ShortText metadataStringMax item := by
  cases value with
  | arr items =>
    have hitem : ∀ item : Json, ((item.asString).map fun text =>
        Json.str (sliceText metadataStringMax text)) = some item ↔
        ShortText metadataStringMax item := by
      intro item
      rw [← sanitizeText_eq_self_iff]
      cases item <;> rfl
    simp only [sanitizeIds, map_filterMap, Option.some.injEq, Json.arr.injEq,
      filterMap_take_eq_self_iff, hitem, exists_eq_left']
  | _ => simp [sanitizeIds]

theorem sanitizeRequirement_eq_self_iff {entry : Json} :
    sanitizeRequirement entry = some entry ↔ ShortRequirement entry := by
  constructor
  · intro h
    cases entry with
    | obj members =>
      unfold sanitizeRequirement at h
      simp only at h
      split at h
      · rename_i id hid
        split at h
        · cases h
        · rename_i hne
          have hmembers := Json.obj.inj (Option.some.inj h)
          rw [← hmembers] at hid
          have hslice : sliceText metadataStringMax id = id := by
            simpa [Json.field, Json.asString] using hid
          refine ⟨id, by rw [← hmembers, hslice], hne, sliceText_eq_self_iff.mp hslice⟩
      · cases h
    | _ => cases h
  · rintro ⟨id, rfl, hne, hlen⟩
    have hfield : (Json.field "id" (.obj [("id", .str id)])).bind Json.asString = some id := by
      simp [Json.field, Json.asString]
    simp only [sanitizeRequirement, hfield, if_neg hne, sliceText_eq_self_iff.mpr hlen]

theorem sanitizeRequirements_eq_self_iff :
    sanitizeRequirements value = some value ↔ ∃ items, value = .arr items ∧ items ≠ [] ∧
      items.length ≤ metadataCapabilityIdsMax ∧ ∀ item ∈ items, ShortRequirement item := by
  cases value with
  | arr items =>
    have hkept : (items.take metadataCapabilityIdsMax).filterMap sanitizeRequirement = items ↔
        items.length ≤ metadataCapabilityIdsMax ∧
          ∀ item ∈ items, sanitizeRequirement item = some item :=
      filterMap_take_eq_self_iff
    simp only [sanitizeRequirement_eq_self_iff] at hkept
    simp only [sanitizeRequirements, Json.arr.injEq, exists_eq_left', ← hkept]
    constructor
    · intro h
      split at h
      · cases h
      · rename_i hne
        have hsame := Json.arr.inj (Option.some.inj h)
        exact ⟨hsame ▸ hne, hsame⟩
    · rintro ⟨hne, hsame⟩
      rw [hsame, if_neg hne]
  | _ => simp [sanitizeRequirements]

theorem sanitizeMember_eq_self_iff {key : String} :
    sanitizeMember key value = some value ↔ Kept key value := by
  unfold sanitizeMember Kept
  by_cases hkey : key ∈ metadataKeys
  · rw [if_neg (not_not.mpr hkey), and_iff_right hkey]
    split
    · exact sanitizeIds_eq_self_iff
    split
    · exact sanitizeRequirements_eq_self_iff
    split
    · cases value <;> simp
    split
    · exact sanitizeText_eq_self_iff
    · exact sanitizeText_eq_self_iff
  · rw [if_pos hkey]
    simp [hkey]

theorem sanitizeMetadata_eq_self_iff {raw : JsonObject} :
    sanitizeMetadata raw = raw ↔ ∀ m ∈ raw.members, Kept m.1 m.2 := by
  constructor
  · intro h m hm
    have hread := raw.get_filter sanitizeMember m.1
    rw [show raw.filter sanitizeMember = raw from h, (raw.get_eq_some_iff m.1 m.2).mpr hm] at hread
    exact sanitizeMember_eq_self_iff.mp hread.symm
  · intro h
    exact JsonObject.filter_eq_self fun m hm => sanitizeMember_eq_self_iff.mpr (h m hm)

/-!
# Declared requirements

`validateRequirements` of the bundle SDK, which `defineBundleAgent` runs on an author's
declaration before it puts the result into the metadata.
-/

def capabilityIdMinLength : Nat := 2

def capabilityIdMaxLength : Nat := 64

def requiredCapabilitiesMaxEntries : Nat := 64

/-- `[a-z]` -/
def lowerLetter (c : Char) : Bool := 97 ≤ c.toNat && c.toNat ≤ 122

/-- `[a-z0-9]` -/
def letterOrDigit (c : Char) : Bool := lowerLetter c || (48 ≤ c.toNat && c.toNat ≤ 57)

/-- `/^[a-z][a-z0-9-]*[a-z0-9]$/` -/
def capabilityIdRegex (id : String) : Bool :=
  id.toList.head?.any lowerLetter && id.toList.tail.getLast?.any letterOrDigit &&
    id.toList.all fun c => letterOrDigit c || c = '-'

/-- `typeof value`, with `null` and arrays by their own names. -/
def typeName : Json → String
  | .null => "null"
  | .bool _ => "boolean"
  | .num _ => "number"
  | .str _ => "string"
  | .arr _ => "array"
  | .obj _ => "object"

/-- `typeof value` of an id, with `null` by its own name. -/
def idTypeName : Option Json → String
  | none => "undefined"
  | some (.arr _) => "object"
  | some value => typeName value

def requirementId (i : Nat) (entry : Json) : Except RegistryError String :=
  match entry with
  | .null => .error (.typeError s!"requiredCapabilities[{i}] must not be null or undefined")
  | .obj _ =>
    match Json.field "id" entry with
    | some (.str id) =>
      let shown := (Json.str id).stringify
      if textLength id < capabilityIdMinLength ∨ capabilityIdMaxLength < textLength id then
        .error (.rangeError (s!"requiredCapabilities[{i}].id must be {capabilityIdMinLength}.." ++
          s!"{capabilityIdMaxLength} characters (got {textLength id}: {shown})"))
      else if !capabilityIdRegex id then
        .error (.typeError (s!"requiredCapabilities[{i}].id must match " ++
          s!"/^[a-z][a-z0-9-]*[a-z0-9]$/ (got {shown})"))
      else if id ∈ reservedScopes then
        .error (.typeError (s!"requiredCapabilities[{i}].id \"" ++ id ++
          "\" is a reserved scope string and cannot be used as a capability id — the " ++
          "dispatcher unconditionally grants this scope to all bundles"))
      else .ok id
    | id =>
      .error (.typeError
        s!"requiredCapabilities[{i}].id must be a string, got {idTypeName id}")
  | _ => .error (.typeError s!"requiredCapabilities[{i}] must be an object, got {typeName entry}")

/-- The ids from an index on that are not among those seen, each once. -/
def validateFrom : Nat → List String → List Json → Except RegistryError (List String)
  | _, _, [] => .ok []
  | i, seen, entry :: rest => do
    let id ← requirementId i entry
    if id ∈ seen then validateFrom (i + 1) seen rest
    else do
      let ids ← validateFrom (i + 1) (id :: seen) rest
      .ok (id :: ids)

/-- The validated ids of a declaration, which may be absent. -/
def validateRequirements : Option Json → Except RegistryError (List String)
  | none => .ok []
  | some (.arr raw) =>
    if requiredCapabilitiesMaxEntries < raw.length then
      .error (.rangeError (s!"requiredCapabilities cannot exceed " ++
        s!"{requiredCapabilitiesMaxEntries} entries (got {raw.length})"))
    else validateFrom 0 [] raw
  | some raw =>
    .error (.typeError s!"requiredCapabilities must be an array, got {typeName raw}")

/-- What the validator makes sure of for each id. -/
structure ValidId (id : String) : Prop where
  length_ge : capabilityIdMinLength ≤ textLength id
  length_le : textLength id ≤ capabilityIdMaxLength
  charset : capabilityIdRegex id = true
  not_reserved : id ∉ reservedScopes

theorem requirementId_ok {i : Nat} {entry : Json} {id : String}
    (h : requirementId i entry = .ok id) : ValidId id := by
  unfold requirementId at h
  split at h
  · cases h
  · split at h
    · simp only at h
      split at h
      · cases h
      · rename_i hlength
        split at h
        · cases h
        · rename_i hregex
          split at h
          · cases h
          · rename_i hreserved
            obtain rfl := Except.ok.inj h
            exact ⟨by omega, by omega, by simpa using hregex, hreserved⟩
    · cases h
  · cases h

variable {ids : List String}

theorem validateFrom_ok {i : Nat} {seen : List String} {raw : List Json}
    (h : validateFrom i seen raw = .ok ids) :
    ids.length ≤ raw.length ∧ ids.Nodup ∧ (∀ id ∈ ids, ValidId id ∧ id ∉ seen) := by
  induction raw generalizing i seen ids with
  | nil =>
    obtain rfl := Except.ok.inj h
    simp
  | cons entry rest ih =>
    rw [validateFrom] at h
    cases hid : requirementId i entry with
    | error e =>
      rw [hid] at h
      cases h
    | ok id =>
      rw [hid] at h
      change (if id ∈ seen then validateFrom (i + 1) seen rest
        else validateFrom (i + 1) (id :: seen) rest >>= fun ids => .ok (id :: ids)) = .ok ids at h
      split at h
      · obtain ⟨hlen, hnodup, hall⟩ := ih h
        exact ⟨by rw [length_cons]; omega, hnodup, hall⟩
      · rename_i hnew
        cases hrest : validateFrom (i + 1) (id :: seen) rest with
        | error e =>
          rw [hrest] at h
          cases h
        | ok more =>
          rw [hrest] at h
          obtain rfl := Except.ok.inj h
          obtain ⟨hlen, hnodup, hall⟩ := ih hrest
          refine ⟨by simp only [length_cons]; omega, ?_, ?_⟩
          · apply nodup_cons.mpr
            exact ⟨fun hmem => (hall id hmem).2 mem_cons_self, hnodup⟩
          · intro other hother
            rcases mem_cons.mp hother with rfl | hother
            · exact ⟨requirementId_ok hid, hnew⟩
            · exact ⟨(hall other hother).1,
                fun hseen => (hall other hother).2 (mem_cons_of_mem _ hseen)⟩

theorem validateRequirements_ok {raw : Option Json} (h : validateRequirements raw = .ok ids) :
    ids.length ≤ requiredCapabilitiesMaxEntries ∧ ids.Nodup ∧ ∀ id ∈ ids, ValidId id := by
  unfold validateRequirements at h
  split at h
  · obtain rfl := Except.ok.inj h
    simp
  · split at h
    · cases h
    · obtain ⟨hlen, hnodup, hall⟩ := validateFrom_ok h
      exact ⟨by omega, hnodup, fun id hid => (hall id hid).1⟩
  · cases h

/-- The requirements as the metadata holds them. -/
def requirementsJson (ids : List String) : Json :=
  .arr (ids.map fun id => .obj [("id", .str id)])

/-- `withRequired` of `defineBundleAgent`: a member only when there are requirements. -/
def withRequired (metadata : JsonObject) (ids : List String) : JsonObject :=
  if ids = [] then metadata else metadata.set "requiredCapabilities" (requirementsJson ids)

theorem kept_requirements_iff (hne : ids ≠ []) (h : ∀ id ∈ ids, ValidId id) :
    Kept "requiredCapabilities" (requirementsJson ids) ↔
      ids.length ≤ metadataCapabilityIdsMax := by
  have hshort : ∀ id ∈ ids, ShortRequirement (.obj [("id", .str id)]) := by
    intro id hid
    have hvalid := h id hid
    refine ⟨id, rfl, ?_, Nat.le_trans hvalid.length_le (by decide)⟩
    rintro rfl
    exact absurd hvalid.charset (by decide)
  have hkey : "requiredCapabilities" ∈ metadataKeys := by decide
  unfold Kept requirementsJson
  rw [and_iff_right hkey, if_neg (by decide), if_pos rfl]
  constructor
  · rintro ⟨items, heq, _, hlen, _⟩
    rw [← Json.arr.inj heq, length_map] at hlen
    exact hlen
  · intro hlen
    refine ⟨_, rfl, by simpa using hne, by simpa using hlen, ?_⟩
    intro item hitem
    obtain ⟨id, hid, rfl⟩ := mem_map.mp hitem
    exact hshort id hid

end CrabbyKit.BundleRegistry
