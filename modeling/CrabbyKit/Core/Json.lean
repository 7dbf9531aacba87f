import Mathlib.Data.Int.Basic
import Mathlib.Data.List.Nodup

/-!
# Parsed JSON

The values of `JSON.parse` and the reads that untyped code makes on them: a member of something
that is no object is undefined.
-/

namespace CrabbyKit

/-- A parsed value; numbers stand for the integers among them. -/
inductive Json
  | null
  | bool (value : Bool)
  | num (value : Int)
  | str (value : String)
  | arr (items : List Json)
  | obj (members : List (String × Json))

namespace Json

/-- A member: of several with one key the last one counts. -/
def field (key : String) : Json → Option Json
  | obj members => (members.reverse.find? fun m => m.1 = key).map Prod.snd
  | _ => none

/-- The element `[0]`. -/
def first : Json → Option Json
  | arr items => items.head?
  | obj members => field "0" (obj members)
  | _ => none

def asString : Json → Option String
  | str value => some value
  | _ => none

def asNumber : Json → Option Int
  | num value => some value
  | _ => none

def asArray : Json → Option (List Json)
  | arr items => some items
  | _ => none

/-- Whether a value counts as true in a condition. -/
def truthy : Json → Bool
  | null => false
  | bool value => value
  | num value => value ≠ 0
  | str value => value ≠ ""
  | arr _ => true
  | obj _ => true

end Json

end CrabbyKit

/-!
## Objects as members with unique names

A JavaScript object holds each name once, in the order in which the names were first set.
-/

namespace CrabbyKit

@[ext] structure JsonObject where
  members : List (String × Json)
  unique : (members.map Prod.fst).Nodup

namespace JsonObject

def empty : JsonObject := ⟨[], List.nodup_nil⟩

def toJson (o : JsonObject) : Json := .obj o.members

/-- The value of a member. -/
def get (o : JsonObject) (name : String) : Option Json :=
  (o.members.find? fun m => m.1 = name).map Prod.snd

/-- Members are replaced in their place, and new ones come last. -/
def setMember (members : List (String × Json)) (name : String) (value : Json) :
    List (String × Json) :=
  if name ∈ members.map Prod.fst then
    members.map fun m => if m.1 = name then (name, value) else m
  else members ++ [(name, value)]

/-- Each member goes on with a value made from it, or is left out. -/
def filterMembers (f : String → Json → Option Json) (members : List (String × Json)) :
    List (String × Json) :=
  members.filterMap fun m => (f m.1 m.2).map fun value => (m.1, value)

theorem map_fst_setMember (members : List (String × Json)) (name : String) (value : Json) :
    (setMember members name value).map Prod.fst =
      if name ∈ members.map Prod.fst then members.map Prod.fst
      else members.map Prod.fst ++ [name] := by
  unfold setMember
  split
  · rw [List.map_map]
    apply List.map_congr_left
    intro m _
    simp only [Function.comp_apply]
    split
    · rename_i heq
      exact heq.symm
    · rfl
  · rw [List.map_append, List.map_singleton]

theorem filterMembers_sublist (f : String → Json → Option Json) (members : List (String × Json)) :
    ((filterMembers f members).map Prod.fst).Sublist (members.map Prod.fst) := by
  induction members with
  | nil => exact List.Sublist.refl _
  | cons m members ih =>
    rw [filterMembers, List.filterMap_cons]
    cases f m.1 m.2 with
    | none => exact ih.cons _
    | some value => exact ih.cons_cons _

def set (o : JsonObject) (name : String) (value : Json) : JsonObject where
  members := setMember o.members name value
  unique := by
    rw [map_fst_setMember]
    split
    · exact o.unique
    · rename_i hnew
      rw [List.nodup_append]
      exact ⟨o.unique, List.nodup_singleton name, fun a ha b hb heq =>
        hnew (by rw [List.mem_singleton.mp hb] at heq; rwa [← heq])⟩

/-- Keep of each member what a function makes of it. -/
def filter (o : JsonObject) (f : String → Json → Option Json) : JsonObject where
  members := filterMembers f o.members
  unique := o.unique.sublist (filterMembers_sublist f o.members)

variable (o : JsonObject)

theorem get_eq_some_iff (name : String) (value : Json) :
    o.get name = some value ↔ (name, value) ∈ o.members := by
  unfold get
  constructor
  · intro h
    obtain ⟨m, hm, rfl⟩ := Option.map_eq_some_iff.mp h
    have hname : m.1 = name := by simpa using List.find?_some hm
    rw [← hname]
    exact List.mem_of_find?_eq_some hm
  · intro h
    cases hfind : o.members.find? fun m => m.1 = name with
    | none =>
      have hno := List.find?_eq_none.mp hfind _ h
      simp at hno
    | some m =>
      have hname : m.1 = name := by simpa using List.find?_some hfind
      have heq := List.inj_on_of_nodup_map o.unique (List.mem_of_find?_eq_some hfind) h hname
      rw [heq]
      rfl

theorem get_eq_none_iff (name : String) : o.get name = none ↔ name ∉ o.members.map Prod.fst := by
  rw [Option.eq_none_iff_forall_ne_some]
  simp only [ne_eq, get_eq_some_iff, List.mem_map, Prod.exists, exists_and_right,
    exists_eq_right, not_exists]

theorem get_ext_iff {o p : JsonObject} {a b : String}
    (h : ∀ value, (a, value) ∈ o.members ↔ (b, value) ∈ p.members) : o.get a = p.get b := by
  apply Option.ext
  intro value
  rw [get_eq_some_iff, get_eq_some_iff, h]

theorem field_toJson (name : String) : Json.field name o.toJson = o.get name := by
  have hreverse : ((o.members.reverse).map Prod.fst).Nodup := by
    rw [List.map_reverse]
    exact List.nodup_reverse.mpr o.unique
  have hback : (⟨o.members.reverse, hreverse⟩ : JsonObject).get name = o.get name :=
    get_ext_iff fun value => List.mem_reverse
  exact hback

@[simp] theorem get_empty (name : String) : empty.get name = none := rfl

theorem get_set (name other : String) (value : Json) :
    (o.set name value).get other = if other = name then some value else o.get other := by
  have hmem : ∀ v, (other, v) ∈ setMember o.members name value ↔
      if other = name then v = value else (other, v) ∈ o.members := by
    intro v
    unfold setMember
    split
    · rename_i hold
      simp only [List.mem_map]
      constructor
      · rintro ⟨m, hm, heq⟩
        by_cases hname : m.1 = name
        · rw [if_pos hname] at heq
          rw [if_pos (congrArg Prod.fst heq).symm]
          exact (congrArg Prod.snd heq).symm
        · rw [if_neg hname] at heq
          subst heq
          rwa [if_neg hname]
      · intro h
        by_cases hname : other = name
        · rw [if_pos hname] at h
          obtain ⟨m, hm, hfst⟩ := List.mem_map.mp hold
          exact ⟨m, hm, by rw [if_pos hfst, hname, h]⟩
        · rw [if_neg hname] at h
          exact ⟨(other, v), h, if_neg hname⟩
    · rename_i hnew
      rw [List.mem_append, List.mem_singleton]
      by_cases hname : other = name
      · subst hname
        have hno : (other, v) ∉ o.members := fun h => hnew (List.mem_map.mpr ⟨_, h, rfl⟩)
        simp [hno]
      · simp [hname]
  by_cases hname : other = name
  · rw [if_pos hname, get_eq_some_iff]
    exact (hmem value).mpr (by rw [if_pos hname])
  · rw [if_neg hname]
    exact get_ext_iff fun v => (hmem v).trans (by rw [if_neg hname])

theorem set_set (name : String) (value later : Json) :
    (o.set name value).set name later = o.set name later := by
  apply JsonObject.ext
  have hkeys := map_fst_setMember o.members name value
  change setMember (setMember o.members name value) name later = setMember o.members name later
  by_cases hold : name ∈ o.members.map Prod.fst
  · have hin : name ∈ (setMember o.members name value).map Prod.fst := by
      rwa [hkeys, if_pos hold]
    unfold setMember at hin ⊢
    rw [if_pos hold] at hin
    rw [if_pos hold, if_pos hold, if_pos hin, List.map_map]
    apply List.map_congr_left
    intro m _
    by_cases hm : m.1 = name
    · simp [hm]
    · simp [hm]
  · have hin : name ∈ (setMember o.members name value).map Prod.fst := by
      rw [hkeys, if_neg hold]
      exact List.mem_append_right _ (List.mem_singleton_self name)
    unfold setMember at hin ⊢
    rw [if_neg hold] at hin
    rw [if_neg hold, if_neg hold, if_pos hin, List.map_append]
    have hkeep : o.members.map (fun m => if m.1 = name then (name, later) else m) =
        o.members := by
      rw [List.map_congr_left (g := id)]
      · exact List.map_id _
      · intro m hm
        refine if_neg fun heq : m.1 = name => hold ?_
        rw [← heq]
        exact List.mem_map_of_mem hm
    rw [hkeep]
    simp

theorem set_eq_self {o : JsonObject} {name : String} {value : Json}
    (h : o.get name = some value) : o.set name value = o := by
  have hmem := (get_eq_some_iff o name value).mp h
  apply JsonObject.ext
  change setMember o.members name value = o.members
  unfold setMember
  rw [if_pos (List.mem_map_of_mem (f := Prod.fst) hmem), List.map_congr_left (g := id)]
  · exact List.map_id _
  · intro m hm
    by_cases heq : m.1 = name
    · rw [if_pos heq]
      exact (List.inj_on_of_nodup_map o.unique hm hmem heq).symm
    · exact if_neg heq

theorem get_filter (f : String → Json → Option Json) (name : String) :
    (o.filter f).get name = (o.get name).bind (f name) := by
  apply Option.ext
  intro value
  rw [get_eq_some_iff, Option.bind_eq_some_iff]
  simp only [filter, filterMembers, List.mem_filterMap, Option.map_eq_some_iff, get_eq_some_iff,
    Prod.mk.injEq]
  constructor
  · rintro ⟨⟨a, v⟩, hm, w, hf, rfl, rfl⟩
    exact ⟨v, hm, hf⟩
  · rintro ⟨v, hm, hf⟩
    exact ⟨(name, v), hm, value, hf, rfl, rfl⟩

theorem filter_eq_self {o : JsonObject} {f : String → Json → Option Json}
    (h : ∀ m ∈ o.members, f m.1 m.2 = some m.2) : o.filter f = o := by
  apply JsonObject.ext
  change filterMembers f o.members = o.members
  unfold filterMembers
  rw [List.filterMap_congr (g := some)]
  · exact List.filterMap_some
  · intro m hm
    rw [h m hm]
    rfl

end JsonObject

end CrabbyKit
