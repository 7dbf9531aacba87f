import Mathlib.Data.List.Nodup
import Mathlib.Data.List.Perm.Basic
import Mathlib.Order.Lattice

/-!
# Stable partitions

Moving the entries that satisfy a predicate to the front, each group in its own order.
-/

namespace CrabbyKit

variable {α β : Type*}

/-- The entries that satisfy `p`, then the others. -/
def frontFirst (p : α → Bool) (l : List α) : List α := l.filter p ++ l.filter fun a => !p a

/-- Every entry that satisfies `p` stands before every entry that does not. -/
def IsFrontFirst (p : α → Bool) (l : List α) : Prop := l.Pairwise fun a b => p b = true → p a = true

variable {p : α → Bool} {l : List α}

theorem frontFirst_perm (p : α → Bool) (l : List α) : (frontFirst p l).Perm l :=
  List.filter_append_perm p l

theorem frontFirst_cons_of_pos {a : α} (ha : p a = true) :
    frontFirst p (a :: l) = a :: frontFirst p l := by
  simp [frontFirst, ha]

theorem isFrontFirst_frontFirst (p : α → Bool) (l : List α) : IsFrontFirst p (frontFirst p l) := by
  refine List.pairwise_append.mpr ⟨?_, ?_, ?_⟩
  · exact List.pairwise_of_forall_mem_list fun a ha b _ _ => List.of_mem_filter ha
  · refine List.pairwise_of_forall_mem_list fun a _ b hb hpb => ?_
    have hnot := List.of_mem_filter hb
    rw [hpb] at hnot
    cases hnot
  · exact fun a ha b _ _ => List.of_mem_filter ha

theorem frontFirst_eq_iff (p : α → Bool) (l : List α) : frontFirst p l = l ↔ IsFrontFirst p l := by
  constructor
  · intro heq
    have hapart := isFrontFirst_frontFirst p l
    rwa [heq] at hapart
  · intro hapart
    induction l with
    | nil => rfl
    | cons a rest ih =>
      obtain ⟨hfirst, hrest⟩ := List.pairwise_cons.mp hapart
      cases ha : p a with
      | true => rw [frontFirst_cons_of_pos ha, ih hrest]
      | false =>
        have hothers : ∀ b ∈ rest, p b = false := by
          intro b hb
          cases hpb : p b with
          | false => rfl
          | true => rw [← ha, hfirst b hb hpb]
        have hnone : rest.filter p = [] :=
          List.filter_eq_nil_iff.mpr fun b hb => by simp [hothers b hb]
        have hall : rest.filter (fun b => !p b) = rest :=
          List.filter_eq_self.mpr fun b hb => by simp [hothers b hb]
        simp [frontFirst, ha, hnone, hall]

/-- Lists with the same images are equal when `f` tells their entries apart. -/
theorem eq_of_map_eq {f : α → β} {l l' : List α} (hinj : ∀ a ∈ l, ∀ b ∈ l', f a = f b → a = b)
    (heq : l.map f = l'.map f) : l = l' := by
  induction l generalizing l' with
  | nil => exact (List.map_eq_nil_iff.mp heq.symm).symm
  | cons a rest ih =>
    cases l' with
    | nil => cases heq
    | cons b rest' =>
      obtain ⟨hhead, htail⟩ := List.cons.inj heq
      have hrest := ih (fun c hc d hd => hinj c (List.mem_cons_of_mem a hc) d
        (List.mem_cons_of_mem b hd)) htail
      rw [hinj a List.mem_cons_self b List.mem_cons_self hhead, hrest]

/-- When `f` tells the entries apart, the images show whether a reordering changed the list. -/
theorem map_eq_iff_of_perm {f : α → β} {l' : List α} (hperm : l'.Perm l)
    (hnodup : (l.map f).Nodup) : l'.map f = l.map f ↔ l' = l := by
  constructor
  · intro heq
    refine eq_of_map_eq ?_ heq
    intro a ha b hb hab
    exact List.inj_on_of_nodup_map hnodup (hperm.mem_iff.mp ha) hb hab
  · intro heq
    rw [heq]

end CrabbyKit

/-!
## Maps in key order and their scopes

A map with its rows in strictly increasing key order. A scope embeds other keys into the keys
of the map; its view is a map of its own, and the operations at embedded keys are the
operations of the view.
-/

namespace CrabbyKit

structure SortedMap (K V : Type*) [LinearOrder K] where
  rows : List (K × V)
  sorted : rows.Pairwise fun a b => a.1 < b.1

namespace SortedMap

variable {J K V : Type*} [LinearOrder J] [LinearOrder K]

theorem ext_rows {m m' : SortedMap K V} (h : m.rows = m'.rows) : m = m' := by
  cases m
  cases m'
  cases h
  rfl

/-- The map without rows. -/
def empty : SortedMap K V := ⟨[], List.Pairwise.nil⟩

/-- The value of a key. -/
def get (m : SortedMap K V) (k : K) : Option V :=
  (m.rows.find? fun row => row.1 = k).map Prod.snd

/-- Set the value of a key. -/
def put (m : SortedMap K V) (k : K) (v : V) : SortedMap K V where
  rows := m.rows.filter (fun row => row.1 < k) ++ (k, v) :: m.rows.filter fun row => k < row.1
  sorted := by
    have hbelow : ∀ row ∈ m.rows.filter (fun row => row.1 < k), row.1 < k :=
      fun row hrow => by simpa using List.of_mem_filter hrow
    have habove : ∀ row ∈ m.rows.filter (fun row => k < row.1), k < row.1 :=
      fun row hrow => by simpa using List.of_mem_filter hrow
    refine List.pairwise_append.mpr ⟨m.sorted.filter _, ?_, ?_⟩
    · exact List.pairwise_cons.mpr ⟨habove, m.sorted.filter _⟩
    · intro a ha b hb
      rcases List.mem_cons.mp hb with rfl | hb
      · exact hbelow a ha
      · exact (hbelow a ha).trans (habove b hb)

/-- Remove a key, with whether it was there. -/
def delete (m : SortedMap K V) (k : K) : SortedMap K V × Bool :=
  (⟨m.rows.filter fun row => row.1 ≠ k, m.sorted.filter _⟩, m.rows.any fun row => row.1 = k)

/-- The rows whose keys satisfy a test. -/
def entries (m : SortedMap K V) (p : K → Bool) : List (K × V) := m.rows.filter fun row => p row.1

theorem get_put (m : SortedMap K V) (k : K) (v : V) : (m.put k v).get k = some v := by
  have hbelow : (m.rows.filter fun row => row.1 < k).find? (fun row => row.1 = k) = none := by
    rw [List.find?_eq_none]
    intro row hrow hk
    have hlt : row.1 < k := by simpa using List.of_mem_filter hrow
    exact hlt.ne (of_decide_eq_true hk)
  unfold get put
  rw [List.find?_append, hbelow, Option.none_or, List.find?_cons_of_pos (by simp)]
  rfl

theorem find?_filter_key (rows : List (K × V)) (p : K → Bool) (j : K) :
    (rows.filter fun row => p row.1).find? (fun row => row.1 = j) =
      if p j then rows.find? fun row => row.1 = j else none := by
  induction rows with
  | nil => simp
  | cons row rest ih =>
    by_cases hrow : row.1 = j
    · subst hrow
      cases hp : p row.1 with
      | true => simp [hp]
      | false => simpa [hp] using ih
    · cases hp : p row.1 with
      | true => simpa [hp, hrow] using ih
      | false => simpa [hp, hrow] using ih

theorem get_put_of_ne (m : SortedMap K V) {k j : K} (h : j ≠ k) (v : V) :
    (m.put k v).get j = m.get j := by
  unfold get put
  rw [List.find?_append, List.find?_cons_of_neg (by simpa using h.symm),
    find?_filter_key m.rows fun key => key < k, find?_filter_key m.rows fun key => k < key]
  rcases lt_or_gt_of_ne h with hbelow | habove
  · rw [if_pos (decide_eq_true hbelow), if_neg (by simpa using hbelow.le), Option.or_none]
  · rw [if_neg (by simpa using habove.le), if_pos (decide_eq_true habove), Option.none_or]

theorem get_delete (m : SortedMap K V) (k : K) : (m.delete k).1.get k = none := by
  change ((m.rows.filter fun row => decide (row.1 ≠ k)).find? fun row => row.1 = k).map _ = none
  rw [find?_filter_key m.rows fun key => key ≠ k, if_neg (by simp)]
  rfl

theorem get_delete_of_ne (m : SortedMap K V) {k j : K} (h : j ≠ k) :
    (m.delete k).1.get j = m.get j := by
  change ((m.rows.filter fun row => decide (row.1 ≠ k)).find? fun row => row.1 = j).map _ = _
  rw [find?_filter_key m.rows fun key => key ≠ k, if_pos (by simpa using h)]
  rfl

theorem get_eq_some_iff (m : SortedMap K V) {k : K} {v : V} :
    m.get k = some v ↔ (k, v) ∈ m.rows := by
  have hkeys : (m.rows.map Prod.fst).Nodup := by
    refine List.Pairwise.map _ ?_ m.sorted
    exact fun _ _ hlt => hlt.ne
  constructor
  · intro h
    obtain ⟨row, hfound, rfl⟩ := Option.map_eq_some_iff.mp h
    have hkey : row.1 = k := by simpa using List.find?_some hfound
    rw [← hkey]
    exact List.mem_of_find?_eq_some hfound
  · intro h
    cases hfound : m.rows.find? fun row => row.1 = k with
    | none =>
      have hnot := List.find?_eq_none.mp hfound (k, v) h
      simp at hnot
    | some row =>
      have hkey : row.1 = k := by simpa using List.find?_some hfound
      have heq : row = (k, v) :=
        List.inj_on_of_nodup_map hkeys (List.mem_of_find?_eq_some hfound) h hkey
      rw [get, hfound, heq]
      rfl

theorem rows_split (m : SortedMap K V) (k : K) :
    m.rows.filter (fun row => row.1 < k) ++ m.rows.filter (fun row => ¬ row.1 < k) = m.rows := by
  have hfront : IsFrontFirst (fun row : K × V => decide (row.1 < k)) m.rows := by
    refine m.sorted.imp fun {a b} hab hb => ?_
    exact decide_eq_true (hab.trans (of_decide_eq_true hb))
  have hsplit := (frontFirst_eq_iff _ _).mpr hfront
  simpa only [frontFirst, decide_not] using hsplit

/-- A way to read the keys of one map as keys of another, in the same order. -/
structure Scope (J K : Type*) [LinearOrder J] [LinearOrder K] where
  lift : J → K
  strip : K → Option J
  strip_eq_some : ∀ {k j}, strip k = some j ↔ lift j = k
  lift_lt : ∀ {i j}, lift i < lift j ↔ i < j

namespace Scope

variable (s : Scope J K)

@[simp] theorem strip_lift (j : J) : s.strip (s.lift j) = some j := s.strip_eq_some.mpr rfl

theorem lift_inj {i j : J} : s.lift i = s.lift j ↔ i = j := by
  constructor
  · intro h
    have hstrip := s.strip_lift i
    rw [h, strip_lift] at hstrip
    exact (Option.some.inj hstrip).symm
  · rintro rfl
    rfl

def row (r : K × V) : Option (J × V) := (s.strip r.1).map fun j => (j, r.2)

theorem row_eq_some {r : K × V} {q : J × V} : s.row r = some q ↔ s.lift q.1 = r.1 ∧ r.2 = q.2 := by
  obtain ⟨j, v⟩ := q
  rw [row, Option.map_eq_some_iff]
  constructor
  · rintro ⟨i, hi, heq⟩
    obtain ⟨rfl, rfl⟩ := Prod.mk.inj heq
    exact ⟨s.strip_eq_some.mp hi, rfl⟩
  · rintro ⟨hj, rfl⟩
    exact ⟨j, s.strip_eq_some.mpr hj, rfl⟩

/-- What a map holds in a scope. -/
def view (m : SortedMap K V) : SortedMap J V where
  rows := m.rows.filterMap s.row
  sorted := by
    refine m.sorted.filterMap s.row fun {a b} hab a' ha' b' hb' => ?_
    rw [← s.lift_lt, (s.row_eq_some.mp ha').1, (s.row_eq_some.mp hb').1]
    exact hab

theorem filterMap_filter {p : K × V → Bool} {q : J × V → Bool}
    (hpq : ∀ r j, s.row r = some j → p r = q j) (rows : List (K × V)) :
    (rows.filter p).filterMap s.row = (rows.filterMap s.row).filter q := by
  rw [List.filterMap_filter, List.filter_filterMap]
  refine List.filterMap_congr fun r _ => ?_
  cases hr : s.row r with
  | none => simp
  | some j =>
    rw [hpq r j hr]
    cases hq : q j with
    | true => simp [Option.filter, hq]
    | false => simp [Option.filter, hq]

theorem get_lift (m : SortedMap K V) (j : J) : m.get (s.lift j) = (s.view m).get j := by
  unfold get view
  rw [List.find?_filterMap]
  have htest : (fun r : K × V => (s.row r).any fun row => row.1 = j) =
      fun r => decide (r.1 = s.lift j) := by
    funext r
    rw [Bool.eq_iff_iff, Option.any_eq_true, decide_eq_true_eq]
    constructor
    · rintro ⟨q, hq, hj⟩
      rw [← (s.row_eq_some.mp hq).1, of_decide_eq_true hj]
    · intro h
      exact ⟨(j, r.2), s.row_eq_some.mpr ⟨h.symm, rfl⟩, decide_eq_true rfl⟩
  rw [htest]
  cases hfind : m.rows.find? fun r => r.1 = s.lift j with
  | none => rfl
  | some r =>
    have hk : r.1 = s.lift j := by simpa using List.find?_some hfind
    have hrow : s.row r = some (j, r.2) := s.row_eq_some.mpr ⟨hk.symm, rfl⟩
    rw [Option.bind_some, hrow]
    rfl

theorem view_put (m : SortedMap K V) (j : J) (v : V) :
    s.view (m.put (s.lift j) v) = (s.view m).put j v := by
  have hrow : s.row (s.lift j, v) = some (j, v) := s.row_eq_some.mpr ⟨rfl, rfl⟩
  refine ext_rows ?_
  simp only [view, put, List.filterMap_append, List.filterMap_cons, hrow]
  congr 1
  · refine s.filterMap_filter (fun r q hq => ?_) m.rows
    rw [decide_eq_decide, ← (s.row_eq_some.mp hq).1]
    exact s.lift_lt
  · congr 1
    refine s.filterMap_filter (fun r q hq => ?_) m.rows
    rw [decide_eq_decide, ← (s.row_eq_some.mp hq).1]
    exact s.lift_lt

theorem delete_lift (m : SortedMap K V) (j : J) :
    s.view (m.delete (s.lift j)).1 = ((s.view m).delete j).1 ∧
      (m.delete (s.lift j)).2 = ((s.view m).delete j).2 := by
  constructor
  · refine ext_rows ?_
    simp only [view, delete]
    refine s.filterMap_filter (fun r q hq => ?_) m.rows
    rw [decide_eq_decide, ← (s.row_eq_some.mp hq).1]
    exact not_congr s.lift_inj
  · simp only [view, delete, List.any_filterMap]
    congr 1
    funext r
    cases hr : s.row r with
    | none =>
      refine decide_eq_false fun hk => ?_
      have hrow : s.row r = some (j, r.2) := s.row_eq_some.mpr ⟨hk.symm, rfl⟩
      rw [hr] at hrow
      cases hrow
    | some q =>
      rw [decide_eq_decide, ← (s.row_eq_some.mp hr).1]
      exact s.lift_inj

theorem entries_lift (m : SortedMap K V) {p : K → Bool} {q : J → Bool} {f : K → J}
    (hp : ∀ k, p k = true ↔ ∃ j, s.lift j = k ∧ q j = true) (hf : ∀ j, f (s.lift j) = j) :
    (m.entries p).map (fun row => (f row.1, row.2)) = (s.view m).entries q := by
  unfold entries view
  rw [List.filter_filterMap, ← List.filterMap_eq_map, ← List.filterMap_eq_filter,
    List.filterMap_filterMap]
  refine List.filterMap_congr fun r _ => ?_
  by_cases hr : p r.1 = true
  · obtain ⟨j, hj, hq⟩ := (hp r.1).mp hr
    have hrow : s.row r = some (j, r.2) := s.row_eq_some.mpr ⟨hj, rfl⟩
    have hfj : f r.1 = j := by rw [← hj, hf]
    simp [Option.guard, hr, hrow, hfj, Option.filter, hq]
  · have hnone : (s.row r).filter (fun row => q row.1) = none := by
      cases hrow : s.row r with
      | none => rfl
      | some row =>
        refine if_neg fun hq => hr ?_
        exact (hp r.1).mpr ⟨row.1, (s.row_eq_some.mp hrow).1, hq⟩
    rw [hnone]
    simp [Option.guard, hr]

theorem row_of_none {r : K × V} (hr : s.strip r.1 = none) : s.row r = none := by
  rw [row, hr]
  rfl

theorem view_put_of_none (m : SortedMap K V) {k : K} (hk : s.strip k = none) (v : V) :
    s.view (m.put k v) = s.view m := by
  refine ext_rows ?_
  have hsplit := congrArg (List.filterMap s.row) (m.rows_split k)
  have hnew : s.row (k, v) = none := s.row_of_none hk
  rw [List.filterMap_append] at hsplit
  simp only [view, put, List.filterMap_append, List.filterMap_cons, hnew]
  rw [← hsplit]
  congr 1
  rw [List.filterMap_filter, List.filterMap_filter]
  refine List.filterMap_congr fun r _ => ?_
  by_cases hlt : r.1 < k
  · simp [hlt, lt_asymm hlt]
  · rcases eq_or_lt_of_le (not_lt.mp hlt) with heq | hgt
    · have hnone : s.row r = none := s.row_of_none (heq ▸ hk)
      simp [hnone]
    · simp [hgt, lt_asymm hgt]

theorem view_delete_of_none (m : SortedMap K V) {k : K} (hk : s.strip k = none) :
    s.view (m.delete k).1 = s.view m := by
  refine ext_rows ?_
  simp only [view, delete]
  rw [List.filterMap_filter]
  refine List.filterMap_congr fun r _ => ?_
  by_cases hr : r.1 = k
  · have hnone : s.row r = none := s.row_of_none (hr ▸ hk)
    rw [hnone]
    exact ite_self _
  · rw [if_pos (decide_eq_true hr)]

end Scope

end SortedMap

end CrabbyKit
