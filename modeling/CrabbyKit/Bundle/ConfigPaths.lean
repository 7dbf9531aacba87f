import CrabbyKit.Bundle.Schema
import CrabbyKit.Core.Json

/-!
# Paths into the agent config

`validateAgentConfigPaths` of `bundle-sdk/src/validate.ts`: the `agentConfigPath` of each capability
is walked through the schemas that the bundle declares. An object that takes further properties
ends the walk with `return`, so that no later entry is looked at.
-/

namespace CrabbyKit.Bundle

open SchemaValue

/-- An entry of `capabilityEntries`. -/
structure CapabilityPath where
  id : String
  agentConfigPath : Option Json

namespace SchemaValue

/-- Whether a value counts as true. -/
def truthy : SchemaValue → Bool
  | null => false
  | bool value => value
  | num value => value ≠ 0
  | str value => value ≠ ""
  | arr _ => true
  | obj _ _ => true

/-- A value for which `typeof` is `object`, but not `null`. -/
def isObject : SchemaValue → Bool
  | arr _ => true
  | obj _ _ => true
  | _ => false

/-- The own property of a value that may be an object. -/
def own (key : String) : SchemaValue → Option SchemaValue
  | obj members _ => lookup key members
  | arr items => (items.zipIdx.find? fun item => toString item.2 = key).map Prod.fst
  | _ => none

/-- `cursor.additionalProperties === true`. -/
def isOpen (cursor : SchemaValue) : Bool :=
  cursor.member "additionalProperties" matches some (bool true)

end SchemaValue

/-- What stands for an inherited function or prototype: neither has `properties` or
`additionalProperties`. -/
def builtin : SchemaValue := .obj [] none

def inheritedNames : List String :=
  ["constructor", "hasOwnProperty", "isPrototypeOf", "propertyIsEnumerable", "toLocaleString",
    "toString", "valueOf", "__defineGetter__", "__defineSetter__", "__lookupGetter__",
    "__lookupSetter__", "__proto__"]

/-- `agentConfigSchemas[first]`, if it counts as true. -/
def localSchema (agentConfigSchemas : List (String × SchemaValue)) (first : String) :
    Option SchemaValue :=
  match lookup first agentConfigSchemas with
  | some schema => if schema.truthy then some schema else none
  | none => if first ∈ inheritedNames then some builtin else none

/-- `cursor.properties?.[segment]`, if it is an object. Of what is inherited only `__proto__` is
one. -/
def nextCursor (cursor : SchemaValue) (segment : String) : Option SchemaValue :=
  match cursor.member "properties" with
  | none => none
  | some .null => none
  | some props =>
    match props.own segment with
    | some next => if next.isObject then some next else none
    | none => if segment = "__proto__" then some builtin else none

/-- How the check of an entry ends without an error. -/
inductive Walked
  /-- It goes on with the next entry. -/
  | nextEntry
  /-- The function returns. -/
  | returns
  deriving DecidableEq, Repr

/-- The beginning of the messages about a path. -/
def pathLabel (id path : String) : String :=
  "Bundle capability \"" ++ id ++ "\" agentConfigPath \"" ++ path ++ "\""

/-- The segments from position `i` on. -/
def walkPath (id path first : String) : Nat → SchemaValue → List String → Except String Walked
  | _, _, [] => .ok .nextEntry
  | i, cursor, segment :: rest =>
    if segment = "" then
      .error (pathLabel id path ++ " has empty segment at position " ++ toString i)
    else if cursor.isOpen then .ok .returns
    else
      match nextCursor cursor segment with
      | none =>
        .error (pathLabel id path ++ " segment \"" ++ segment ++
          "\" does not exist in the bundle's declared schema for namespace \"" ++ first ++ "\"")
      | some next => walkPath id path first (i + 1) next rest

/-- `path.split(".")`. -/
def segmentsOf (path : String) : List String := (path.toList.splitOn '.').map String.ofList

/-- The body of the outer loop. -/
def walkEntry (agentConfigSchemas : List (String × SchemaValue)) (entry : CapabilityPath) :
    Except String Walked :=
  match entry.agentConfigPath with
  | none => .ok .nextEntry
  | some (.str path) =>
    if path = "" then
      .error ("Bundle capability \"" ++ entry.id ++ "\" agentConfigPath must be a non-empty string")
    else
      let first := (segmentsOf path).headD ""
      if first = "" then .error (pathLabel entry.id path ++ " has empty leading segment")
      else
        match localSchema agentConfigSchemas first with
        | none => .ok .nextEntry
        | some schema => walkPath entry.id path first 1 schema (segmentsOf path).tail
  | some _ =>
    .error ("Bundle capability \"" ++ entry.id ++ "\" agentConfigPath must be a non-empty string")

def validateAgentConfigPaths (agentConfigSchemas : List (String × SchemaValue)) :
    List CapabilityPath → Except String Unit
  | [] => .ok ()
  | entry :: rest =>
    match walkEntry agentConfigSchemas entry with
    | .error message => .error message
    | .ok .returns => .ok ()
    | .ok .nextEntry => validateAgentConfigPaths agentConfigSchemas rest

/-- The segments are those of properties of properties, up to an object that is open. -/
inductive Resolves : SchemaValue → List String → Prop
  | here (cursor : SchemaValue) : Resolves cursor []
  | atOpen {cursor : SchemaValue} {segment : String} (rest : List String) (named : segment ≠ "")
    (opens : cursor.isOpen = true) : Resolves cursor (segment :: rest)
  | property {cursor next : SchemaValue} {segment : String} {rest : List String}
    (named : segment ≠ "") (closed : cursor.isOpen = false)
    (found : nextCursor cursor segment = some next) (later : Resolves next rest) :
    Resolves cursor (segment :: rest)

/-- The segments go on at an object that is open. -/
inductive ReachesOpen : SchemaValue → List String → Prop
  | here {cursor : SchemaValue} {segment : String} (rest : List String) (named : segment ≠ "")
    (opens : cursor.isOpen = true) : ReachesOpen cursor (segment :: rest)
  | property {cursor next : SchemaValue} {segment : String} {rest : List String}
    (named : segment ≠ "") (closed : cursor.isOpen = false)
    (found : nextCursor cursor segment = some next) (later : ReachesOpen next rest) :
    ReachesOpen cursor (segment :: rest)

/-- A path of a name, and of segments that resolve in the schema of that name if there is one. -/
def WellFormedPath (agentConfigSchemas : List (String × SchemaValue)) (path : String) : Prop :=
  (segmentsOf path).headD "" ≠ "" ∧
    ∀ schema, localSchema agentConfigSchemas ((segmentsOf path).headD "") = some schema →
      Resolves schema (segmentsOf path).tail

/-- An entry without a path, or with a good one. -/
def CapabilityPath.WellFormed (agentConfigSchemas : List (String × SchemaValue))
    (entry : CapabilityPath) : Prop :=
  ∀ value, entry.agentConfigPath = some value →
    ∃ path, value = .str path ∧ WellFormedPath agentConfigSchemas path

/-- The path of an entry goes on at an open object of the bundle's schemas. -/
def CapabilityPath.Opens (agentConfigSchemas : List (String × SchemaValue))
    (entry : CapabilityPath) : Prop :=
  ∃ path schema, entry.agentConfigPath = some (.str path) ∧
    (segmentsOf path).headD "" ≠ "" ∧
    localSchema agentConfigSchemas ((segmentsOf path).headD "") = some schema ∧
    ReachesOpen schema (segmentsOf path).tail

variable {cursor : SchemaValue} {rest : List String}

theorem resolves_cons {segment : String} :
    Resolves cursor (segment :: rest) ↔ segment ≠ "" ∧ (cursor.isOpen = true ∨
      cursor.isOpen = false ∧ ∃ next, nextCursor cursor segment = some next ∧
        Resolves next rest) := by
  constructor
  · intro h
    cases h with
    | atOpen _ named opens => exact ⟨named, .inl opens⟩
    | property named closed found later => exact ⟨named, .inr ⟨closed, _, found, later⟩⟩
  · rintro ⟨named, opens | ⟨closed, next, found, later⟩⟩
    · exact .atOpen rest named opens
    · exact .property named closed found later

theorem reachesOpen_cons {segment : String} :
    ReachesOpen cursor (segment :: rest) ↔ segment ≠ "" ∧ (cursor.isOpen = true ∨
      cursor.isOpen = false ∧ ∃ next, nextCursor cursor segment = some next ∧
        ReachesOpen next rest) := by
  constructor
  · intro h
    cases h with
    | here _ named opens => exact ⟨named, .inl opens⟩
    | property named closed found later => exact ⟨named, .inr ⟨closed, _, found, later⟩⟩
  · rintro ⟨named, opens | ⟨closed, next, found, later⟩⟩
    · exact .here rest named opens
    · exact .property named closed found later

theorem walkPath_returns_iff (id path first : String) (segments : List String) :
    ∀ i cursor, walkPath id path first i cursor segments = .ok .returns ↔
      ReachesOpen cursor segments := by
  induction segments with
  | nil =>
    intro i cursor
    constructor
    · intro h
      cases h
    · rintro ⟨⟩
  | cons segment rest ih =>
    intro i cursor
    rw [walkPath, reachesOpen_cons]
    by_cases empty : segment = ""
    · simp [empty]
    · cases opens : cursor.isOpen with
      | true => simp [empty]
      | false => cases found : nextCursor cursor segment <;> simp [empty, ih]

theorem walkPath_ok_iff (id path first : String) (segments : List String) :
    ∀ i cursor, (∃ walked, walkPath id path first i cursor segments = .ok walked) ↔
      Resolves cursor segments := by
  induction segments with
  | nil =>
    intro i cursor
    exact iff_of_true ⟨_, rfl⟩ (.here cursor)
  | cons segment rest ih =>
    intro i cursor
    rw [walkPath, resolves_cons]
    by_cases empty : segment = ""
    · simp [empty]
    · cases opens : cursor.isOpen with
      | true => simp [empty]
      | false => cases found : nextCursor cursor segment <;> simp [empty, ih]

variable (agentConfigSchemas : List (String × SchemaValue))

variable (entry : CapabilityPath)

theorem walkEntry_returns_iff :
    walkEntry agentConfigSchemas entry = .ok .returns ↔ entry.Opens agentConfigSchemas := by
  unfold walkEntry CapabilityPath.Opens
  cases declared : entry.agentConfigPath with
  | none => simp
  | some value =>
    cases value with
    | str path =>
      simp only [Option.some.injEq, Json.str.injEq]
      constructor
      · intro h
        split at h
        · cases h
        · split at h
          · cases h
          · next named =>
            cases found : localSchema agentConfigSchemas ((segmentsOf path).headD "") with
            | none =>
              rw [found] at h
              cases h
            | some schema =>
              rw [found] at h
              exact ⟨path, schema, rfl, named, found, (walkPath_returns_iff ..).mp h⟩
      · rintro ⟨_, schema, rfl, named, found, opens⟩
        have some : path ≠ "" := by
          rintro rfl
          exact named (by decide)
        rw [if_neg some, if_neg named, found]
        exact (walkPath_returns_iff ..).mpr opens
    | _ => simp

theorem walkEntry_ok_iff :
    (∃ walked, walkEntry agentConfigSchemas entry = .ok walked) ↔
      entry.WellFormed agentConfigSchemas := by
  unfold walkEntry CapabilityPath.WellFormed
  cases declared : entry.agentConfigPath with
  | none => simp
  | some value =>
    cases value with
    | str path =>
      simp only [Option.some.injEq]
      constructor
      · rintro ⟨walked, h⟩ _ rfl
        split at h
        · cases h
        · split at h
          · cases h
          · next named =>
            refine ⟨path, rfl, named, ?_⟩
            intro schema found
            rw [found] at h
            exact (walkPath_ok_iff ..).mp ⟨walked, h⟩
      · intro h
        obtain ⟨_, ⟨⟩, named, resolves⟩ := h _ rfl
        have some : path ≠ "" := by
          rintro rfl
          exact named (by decide)
        rw [if_neg some, if_neg named]
        cases found : localSchema agentConfigSchemas ((segmentsOf path).headD "") with
        | none => exact ⟨_, rfl⟩
        | some schema => exact (walkPath_ok_iff ..).mpr (resolves schema found)
    | _ => simp

theorem CapabilityPath.Opens.wellFormed {agentConfigSchemas : List (String × SchemaValue)}
    {entry : CapabilityPath} (h : entry.Opens agentConfigSchemas) :
    entry.WellFormed agentConfigSchemas :=
  (walkEntry_ok_iff agentConfigSchemas entry).mp
    ⟨_, (walkEntry_returns_iff agentConfigSchemas entry).mpr h⟩

/-- Whether the function returns without throwing. -/
def Accepts (entries : List CapabilityPath) : Prop :=
  validateAgentConfigPaths agentConfigSchemas entries = .ok ()

theorem accepts_singleton :
    Accepts agentConfigSchemas [entry] ↔ entry.WellFormed agentConfigSchemas := by
  rw [← walkEntry_ok_iff, Accepts, validateAgentConfigPaths]
  cases walkEntry agentConfigSchemas entry with
  | error message => simp
  | ok walked => cases walked <;> simp [validateAgentConfigPaths]

theorem accepts_cons (rest : List CapabilityPath) :
    Accepts agentConfigSchemas (entry :: rest) ↔ entry.WellFormed agentConfigSchemas ∧
      (entry.Opens agentConfigSchemas ∨ Accepts agentConfigSchemas rest) := by
  rw [← walkEntry_ok_iff, ← walkEntry_returns_iff, Accepts, validateAgentConfigPaths]
  cases walkEntry agentConfigSchemas entry with
  | error message => simp
  | ok walked => cases walked <;> simp [Accepts]

/-- The verdict on a list is the conjunction of those on its elements. -/
def VerdictsAgree (entries : List CapabilityPath) : Prop :=
  Accepts agentConfigSchemas entries ↔ ∀ entry ∈ entries, Accepts agentConfigSchemas [entry]

/-- Behind the first path that opens, if there is nothing wrong before it, all is well. -/
def CheckedBehind (entries : List CapabilityPath) : Prop :=
  ∀ before entry after, entries = before ++ entry :: after → entry.Opens agentConfigSchemas →
    (∀ e ∈ before, e.WellFormed agentConfigSchemas) →
      ∀ e ∈ after, e.WellFormed agentConfigSchemas

theorem accepts_iff (entries : List CapabilityPath) :
    Accepts agentConfigSchemas entries ↔
      (∀ e ∈ entries, e.WellFormed agentConfigSchemas) ∨
        ∃ before entry after, entries = before ++ entry :: after ∧
          entry.Opens agentConfigSchemas ∧ ∀ e ∈ before, e.WellFormed agentConfigSchemas := by
  induction entries with
  | nil => exact iff_of_true rfl (.inl (by simp))
  | cons first rest ih =>
    rw [accepts_cons, ih]
    constructor
    · rintro ⟨well, opens | all | ⟨before, entry, after, rfl, opens, front⟩⟩
      · exact .inr ⟨[], first, rest, rfl, opens, by simp⟩
      · exact .inl (List.forall_mem_cons.mpr ⟨well, all⟩)
      · exact .inr ⟨first :: before, entry, after, rfl, opens,
          List.forall_mem_cons.mpr ⟨well, front⟩⟩
    · rintro (all | ⟨before, entry, after, split, opens, front⟩)
      · obtain ⟨well, later⟩ := List.forall_mem_cons.mp all
        exact ⟨well, .inr (.inl later)⟩
      · cases before with
        | nil =>
          cases split
          exact ⟨opens.wellFormed, .inl opens⟩
        | cons e before =>
          cases split
          obtain ⟨well, front⟩ := List.forall_mem_cons.mp front
          exact ⟨well, .inr (.inr ⟨before, entry, after, rfl, opens, front⟩)⟩

theorem verdictsAgree_iff (entries : List CapabilityPath) :
    VerdictsAgree agentConfigSchemas entries ↔ CheckedBehind agentConfigSchemas entries := by
  simp only [VerdictsAgree, accepts_singleton]
  rw [accepts_iff]
  constructor
  · intro agree before entry after split opens front e mem
    have all := agree.mp (.inr ⟨before, entry, after, split, opens, front⟩)
    exact all e (by simp [split, mem])
  · intro behind
    constructor
    · rintro (all | ⟨before, entry, after, rfl, opens, front⟩)
      · exact all
      · intro e mem
        rcases List.mem_append.mp mem with earlier | mem
        · exact front e earlier
        · rcases List.mem_cons.mp mem with rfl | later
          · exact opens.wellFormed
          · exact behind before entry after rfl opens front e later
    · exact .inl

/-- The verdict on a list is the conjunction of the verdicts on its elements if and only if all is
well behind the first path that opens; and in every order if and only if no path opens or all is
well. -/
theorem validateAgentConfigPaths_law (entries : List CapabilityPath) :
    (VerdictsAgree agentConfigSchemas entries ↔ CheckedBehind agentConfigSchemas entries) ∧
      ((∀ entries', entries'.Perm entries → VerdictsAgree agentConfigSchemas entries') ↔
        (∀ e ∈ entries, ¬ e.Opens agentConfigSchemas) ∨
          ∀ e ∈ entries, e.WellFormed agentConfigSchemas) := by
  refine ⟨verdictsAgree_iff agentConfigSchemas entries, ?_⟩
  simp only [verdictsAgree_iff]
  constructor
  · intro anyOrder
    by_contra neither
    obtain ⟨some, notAll⟩ := not_or.mp neither
    simp only [not_forall, not_not] at some notAll
    obtain ⟨entry, mem, opens⟩ := some
    obtain ⟨bad, badMem, ill⟩ := notAll
    obtain ⟨before, after, rfl⟩ := List.append_of_mem mem
    have behind : bad ∈ before ++ after := by
      rcases List.mem_append.mp badMem with front | rest
      · exact List.mem_append_left _ front
      · rcases List.mem_cons.mp rest with rfl | back
        · exact absurd opens.wellFormed ill
        · exact List.mem_append_right _ back
    exact ill (anyOrder (entry :: (before ++ after)) List.perm_middle.symm [] entry _ rfl opens
      (by simp) bad behind)
  · rintro (none | all) entries' perm before entry after rfl opens front e mem
    · exact absurd opens (none entry (perm.mem_iff.mp (by simp)))
    · exact all e (perm.mem_iff.mp (by simp [mem]))

/-- A path into an open object, and behind it one whose second segment is missing. -/
theorem later_unchecked :
    ¬ VerdictsAgree
        [("free", .obj [("additionalProperties", .bool true)] (some "Object")),
          ("bot", .obj [("properties", .obj [] none)] (some "Object"))]
        [⟨"a", some (.str "free.x")⟩, ⟨"b", some (.str "bot.missing")⟩] := by
  intro agree
  have alone := agree.mp rfl ⟨"b", some (.str "bot.missing")⟩ (by simp)
  have thrown : validateAgentConfigPaths
      [("free", .obj [("additionalProperties", .bool true)] (some "Object")),
        ("bot", .obj [("properties", .obj [] none)] (some "Object"))]
      [⟨"b", some (.str "bot.missing")⟩] ≠ .ok () := by
    intro h
    cases h
  exact thrown alone

end CrabbyKit.Bundle
