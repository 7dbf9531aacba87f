import CrabbyKit.Core.JsonValue
import Mathlib.Data.List.Lex
import Mathlib.Data.List.Perm.Basic
import Mathlib.Data.List.Sort

/-!
# Deterministic serialization

`stable-stringify.ts`: the text of a value with the keys of its objects in order. It is the JSON of
the value with sorted keys, so it tells apart all values but those that differ in the order of keys.
-/

namespace CrabbyKit.DoomLoop

open List

mutual

/-- No object of a value has two members with one key. -/
def Distinct : JsonValue → Prop
  | .arr items => DistinctItems items
  | .obj members => (members.map Prod.fst).Nodup ∧ DistinctMembers members
  | _ => True

def DistinctItems : List JsonValue → Prop
  | [] => True
  | item :: items => Distinct item ∧ DistinctItems items

def DistinctMembers : List (String × JsonValue) → Prop
  | [] => True
  | member :: members => Distinct member.2 ∧ DistinctMembers members

end

/-- A JSON value as the runtime holds it. -/
structure Value where
  json : JsonValue
  distinct : Distinct json

/-- The arguments of a call, which may be undefined. -/
abbrev Args := Option Value

mutual

/-- The same value up to the order of keys. -/
def Same : JsonValue → JsonValue → Prop
  | .null, .null => True
  | .bool a, .bool b => a = b
  | .num a, .num b => a = b
  | .str a, .str b => a = b
  | .arr items, .arr others => SameItems items others
  | .obj members, .obj others => ∃ ordered, ordered.Perm others ∧ SameMembers members ordered
  | _, _ => False

def SameItems : List JsonValue → List JsonValue → Prop
  | [], [] => True
  | item :: items, other :: others => Same item other ∧ SameItems items others
  | _, _ => False

def SameMembers : List (String × JsonValue) → List (String × JsonValue) → Prop
  | [], [] => True
  | member :: members, other :: others =>
    member.1 = other.1 ∧ Same member.2 other.2 ∧ SameMembers members others
  | _, _ => False

end

/-- Equal arguments. -/
def SameArgs : Args → Args → Prop
  | none, none => True
  | some a, some b => Same a.json b.json
  | _, _ => False

/-- The code units of a key, by which `sort` orders. -/
def keyUnits (key : String) : List Nat := key.toList.flatMap unitsOf

/-- `Object.keys(value).sort()`, each key with its member. -/
def sortKeys {α : Type} (members : List (String × α)) : List (String × α) :=
  members.insertionSort fun a b => keyUnits a.1 ≤ keyUnits b.1

mutual

/-- `stableStringify` of what is defined, in characters. -/
def stable : JsonValue → List Char
  | .arr items => '[' :: [','].intercalate (stableItems items) ++ [']']
  | .obj members =>
    '{' :: [','].intercalate ((sortKeys (stableMembers members)).map fun member =>
      quote member.1.toList ++ ':' :: member.2) ++ ['}']
  | value => value.write

/-- `value.map(stableStringify)` -/
def stableItems : List JsonValue → List (List Char)
  | [] => []
  | item :: items => stable item :: stableItems items

def stableMembers : List (String × JsonValue) → List (String × List Char)
  | [] => []
  | member :: members => (member.1, stable member.2) :: stableMembers members

end

def stableStringify : Args → String
  | none => "undefined"
  | some value => String.ofList (stable value.json)

mutual

def sorted : JsonValue → JsonValue
  | .arr items => .arr (sortedItems items)
  | .obj members => .obj (sortKeys (sortedMembers members))
  | value => value

def sortedItems : List JsonValue → List JsonValue
  | [] => []
  | item :: items => sorted item :: sortedItems items

def sortedMembers : List (String × JsonValue) → List (String × JsonValue)
  | [] => []
  | member :: members => (member.1, sorted member.2) :: sortedMembers members

end

theorem keyUnits_injective {a b : String} (h : keyUnits a = keyUnits b) : a = b := by
  have chars := congrArg charsOfUnits h
  rw [keyUnits, keyUnits, charsOfUnits_flatMap, charsOfUnits_flatMap] at chars
  exact String.toList_inj.mp chars

theorem sortKeys_perm {α : Type} (members : List (String × α)) :
    (sortKeys members).Perm members := perm_insertionSort _ _

theorem map_sortKeys {α β : Type} (f : α → β) (members : List (String × α)) :
    (sortKeys members).map (fun m => (m.1, f m.2)) = sortKeys (members.map fun m => (m.1, f m.2)) :=
  map_insertionSort _ _ _ _ fun _ _ _ _ => Iff.rfl

theorem sortKeys_eq_of_perm {α : Type} {ms ns : List (String × α)} (h : ms.Perm ns)
    (distinct : (ms.map Prod.fst).Nodup) : sortKeys ms = sortKeys ns := by
  have total : Std.Total fun a b : String × α => keyUnits a.1 ≤ keyUnits b.1 :=
    ⟨fun a b => le_total (keyUnits a.1) (keyUnits b.1)⟩
  have trans : IsTrans (String × α) fun a b => keyUnits a.1 ≤ keyUnits b.1 :=
    ⟨fun _ _ _ => le_trans⟩
  refine Perm.eq_of_pairwise ?_ (pairwise_insertionSort _ _)
    (pairwise_insertionSort _ _)
    ((sortKeys_perm ms).trans (h.trans (sortKeys_perm ns).symm))
  intro a b ha hb below above
  have ha := (sortKeys_perm ms).mem_iff.mp ha
  have hb := h.mem_iff.mpr ((sortKeys_perm ns).mem_iff.mp hb)
  exact inj_on_of_nodup_map distinct ha hb (keyUnits_injective (le_antisymm below above))

variable (members : List (String × JsonValue))

theorem sortedMembers_eq : sortedMembers members = members.map fun m => (m.1, sorted m.2) := by
  induction members with
  | nil => rfl
  | cons member members ih => rw [sortedMembers, ih, map_cons]

theorem map_fst_sortedMembers : (sortedMembers members).map Prod.fst = members.map Prod.fst := by
  rw [sortedMembers_eq, map_map]
  rfl

mutual

theorem stable_eq_write : ∀ value : JsonValue, stable value = (sorted value).write
  | .null => rfl
  | .bool _ => rfl
  | .num _ => rfl
  | .str _ => rfl
  | .arr items => by
    rw [stable, sorted, JsonValue.write_arr, stableItems_eq_write items]
  | .obj members => by
    have texts := map_sortKeys JsonValue.write (sortedMembers members)
    rw [stable, sorted, JsonValue.write_obj, stableMembers_eq_write members, ← texts, map_map]
    rfl

theorem stableItems_eq_write : ∀ items : List JsonValue,
    stableItems items = (sortedItems items).map JsonValue.write
  | [] => rfl
  | item :: items => by
    rw [stableItems, sortedItems, stable_eq_write item, stableItems_eq_write items, map_cons]

theorem stableMembers_eq_write : ∀ members : List (String × JsonValue),
    stableMembers members = (sortedMembers members).map fun m => (m.1, m.2.write)
  | [] => rfl
  | (key, value) :: members => by
    rw [stableMembers, sortedMembers, stable_eq_write value, stableMembers_eq_write members,
      map_cons]

end

theorem write_injective {a b : JsonValue} (h : a.write = b.write) : a = b := by
  have text : a.stringify = b.stringify := congrArg String.ofList h
  have parsed := congrArg JsonValue.parse text
  rw [JsonValue.parse_stringify, JsonValue.parse_stringify] at parsed
  exact Option.some.inj parsed

theorem stable_eq_iff {a b : JsonValue} : stable a = stable b ↔ sorted a = sorted b := by
  rw [stable_eq_write, stable_eq_write]
  exact ⟨write_injective, congrArg _⟩

theorem distinctMembers_iff : DistinctMembers members ↔ ∀ m ∈ members, Distinct m.2 := by
  induction members with
  | nil => simp [DistinctMembers]
  | cons member members ih => rw [DistinctMembers, ih, forall_mem_cons]

mutual

theorem sorted_eq_iff : ∀ {a b : JsonValue}, Distinct a → Distinct b →
    (sorted a = sorted b ↔ Same a b)
  | .null, b, _, _ => by cases b <;> simp [sorted, Same]
  | .bool _, b, _, _ => by cases b <;> simp [sorted, Same]
  | .num _, b, _, _ => by cases b <;> simp [sorted, Same]
  | .str _, b, _, _ => by cases b <;> simp [sorted, Same]
  | .arr items, b, ha, hb => by
    cases b with
    | arr others =>
      rw [sorted, sorted, JsonValue.arr.injEq, Same, sortedItems_eq_iff ha hb]
    | null => simp [sorted, Same]
    | bool _ => simp [sorted, Same]
    | num _ => simp [sorted, Same]
    | str _ => simp [sorted, Same]
    | obj _ => simp [sorted, Same]
  | .obj members, b, ha, hb => by
    cases b with
    | obj others =>
      obtain ⟨keys, values⟩ := ha
      have reordered {ordered : List (String × JsonValue)} (perm : ordered.Perm others) :
          DistinctMembers ordered := by
        rw [distinctMembers_iff]
        exact fun m mem => (distinctMembers_iff others).mp hb.2 m (perm.mem_iff.mp mem)
      rw [sorted, sorted, JsonValue.obj.injEq, Same]
      constructor
      · intro same
        have perm : (sortedMembers members).Perm (sortedMembers others) :=
          (sortKeys_perm _).symm.trans (same ▸ sortKeys_perm _)
        rw [sortedMembers_eq others] at perm
        obtain ⟨ordered, equal, order⟩ :=
          (congrFun₂ (eq_map_comp_perm _) (sortedMembers members) others).mpr perm
        rw [← sortedMembers_eq] at equal
        exact ⟨ordered, order, (sortedMembers_eq_iff values (reordered order)).mp equal⟩
      · rintro ⟨ordered, order, same⟩
        rw [(sortedMembers_eq_iff values (reordered order)).mpr same]
        apply sortKeys_eq_of_perm
        · rw [sortedMembers_eq, sortedMembers_eq]
          exact order.map _
        · rw [map_fst_sortedMembers, (order.map Prod.fst).nodup_iff]
          exact hb.1
    | null => simp [sorted, Same]
    | bool _ => simp [sorted, Same]
    | num _ => simp [sorted, Same]
    | str _ => simp [sorted, Same]
    | arr _ => simp [sorted, Same]

theorem sortedItems_eq_iff : ∀ {items others : List JsonValue}, DistinctItems items →
    DistinctItems others → (sortedItems items = sortedItems others ↔ SameItems items others)
  | [], others, _, _ => by cases others <;> simp [sortedItems, SameItems]
  | item :: items, others, ha, hb => by
    cases others with
    | nil => simp [sortedItems, SameItems]
    | cons other others =>
      rw [sortedItems, sortedItems, List.cons.injEq, SameItems, sorted_eq_iff ha.1 hb.1,
        sortedItems_eq_iff ha.2 hb.2]

theorem sortedMembers_eq_iff : ∀ {members others : List (String × JsonValue)},
    DistinctMembers members → DistinctMembers others →
      (sortedMembers members = sortedMembers others ↔ SameMembers members others)
  | [], others, _, _ => by cases others <;> simp [sortedMembers, SameMembers]
  | member :: members, others, ha, hb => by
    cases others with
    | nil => simp [sortedMembers, SameMembers]
    | cons other others =>
      rw [sortedMembers, sortedMembers, List.cons.injEq, Prod.mk.injEq, SameMembers,
        sorted_eq_iff ha.1 hb.1, sortedMembers_eq_iff ha.2 hb.2, and_assoc]

end

/-- No value is written like `undefined`. -/
theorem write_ne_undefined (value : JsonValue) : String.ofList value.write ≠ "undefined" := by
  intro same
  have parsed := JsonValue.parse_stringify value
  rw [JsonValue.stringify, same] at parsed
  cases parsed

theorem stableStringify_eq_iff (a b : Args) :
    stableStringify a = stableStringify b ↔ SameArgs a b := by
  cases a with
  | none =>
    cases b with
    | none => exact iff_of_true rfl trivial
    | some b =>
      refine iff_of_false (fun same => ?_) id
      rw [stableStringify, stableStringify, stable_eq_write] at same
      exact write_ne_undefined _ same.symm
  | some a =>
    cases b with
    | none =>
      refine iff_of_false (fun same => ?_) id
      rw [stableStringify, stableStringify, stable_eq_write] at same
      exact write_ne_undefined _ same
    | some b =>
      rw [stableStringify, stableStringify, String.ofList_inj, stable_eq_iff,
        sorted_eq_iff a.distinct b.distinct]
      rfl

end CrabbyKit.DoomLoop
