import Mathlib.Data.List.Sort

/-!
# Tables as lists of rows with a unique key

`lookup`, `modify` and `index` are the single-key reads and writes of a table
whose rows stand in insertion order. Uniqueness of keys makes a lookup and an
index answer with exactly the row that carries the key. A map is a table by its
places: to set one of them leaves the others.
-/

namespace CrabbyKit.Table

open List Function

variable {α κ : Type*} [DecidableEq κ] {key : α → κ}

def lookup (key : α → κ) (rows : List α) (k : κ) : Option α := rows.find? fun r => key r = k

def modify (key : α → κ) (k : κ) (f : α → α) (rows : List α) : List α :=
  rows.map fun r => if key r = k then f r else r

/-- A map filled row by row, a later row replacing an earlier one with its key. -/
def index (key : α → κ) (rows : List α) : κ → Option α :=
  rows.foldl (fun m r => Function.update m (key r) (some r)) fun _ => none

variable {rows : List α}

variable {k : κ} {r : α}

theorem mem_of_lookup (h : lookup key rows k = some r) : r ∈ rows ∧ key r = k :=
  ⟨mem_of_find?_eq_some h, by simpa using find?_some h⟩

omit [DecidableEq κ] in
theorem eq_of_key (hn : (rows.map key).Nodup) {a b : α} (ha : a ∈ rows)
    (hb : b ∈ rows) (he : key a = key b) : a = b :=
  inj_on_of_nodup_map hn ha hb he

theorem lookup_eq_some (hn : (rows.map key).Nodup) :
    lookup key rows k = some r ↔ r ∈ rows ∧ key r = k := by
  refine ⟨mem_of_lookup, fun ⟨hr, hk⟩ => ?_⟩
  cases he : lookup key rows k with
  | none =>
    have hne := find?_eq_none.mp he r hr
    simp [hk] at hne
  | some q =>
    obtain ⟨hq, hqk⟩ := mem_of_lookup he
    rw [eq_of_key hn hq hr (hqk.trans hk.symm)]

theorem lookup_eq_none : lookup key rows k = none ↔ ∀ r ∈ rows, key r ≠ k := by
  simp [lookup, find?_eq_none]

variable {f : α → α}

theorem lookup_modify (hf : ∀ r, key (f r) = key r) (j : κ) :
    lookup key (modify key k f rows) j =
      (lookup key rows j).map fun r => if j = k then f r else r := by
  induction rows with
  | nil => rfl
  | cons r rows ih =>
    have hkey : key (if key r = k then f r else r) = key r := by split <;> simp [hf]
    simp only [lookup, modify, map_cons, find?_cons, hkey] at ih ⊢
    by_cases hj : key r = j
    · simp [hj]
    · simp only [hj, decide_false]
      exact ih

theorem map_key_modify (hf : ∀ r, key (f r) = key r) :
    (modify key k f rows).map key = rows.map key := by
  rw [modify, map_map]
  refine map_congr_left fun r _ => ?_
  simp only [comp_apply]
  split <;> simp [hf]

theorem mem_modify : r ∈ modify key k f rows ↔ ∃ q ∈ rows, (if key q = k then f q else q) = r := by
  simp [modify]

theorem lookup_remove (rows : List α) (k j : κ) :
    lookup key (rows.filter fun r => key r ≠ k) j = if j = k then none else lookup key rows j := by
  induction rows with
  | nil => simp [lookup]
  | cons r rows ih =>
    unfold lookup at ih ⊢
    by_cases hk : key r = k
    · rw [filter_cons_of_neg (by simpa using hk), ih]
      by_cases hj : j = k
      · rw [if_pos hj, if_pos hj]
      · rw [if_neg hj, if_neg hj, find?_cons_of_neg]
        simpa [hk] using Ne.symm hj
    · rw [filter_cons_of_pos (by simpa using hk)]
      by_cases hr : key r = j
      · rw [find?_cons_of_pos (by simpa using hr), find?_cons_of_pos (by simpa using hr),
          if_neg fun hj => hk (hr.trans hj)]
      · rw [find?_cons_of_neg (by simpa using hr), find?_cons_of_neg (by simpa using hr),
          ih]

theorem lookup_concat (rows : List α) (row : α) (k : κ) :
    lookup key (rows ++ [row]) k =
      (lookup key rows k).or (if key row = k then some row else none) := by
  rw [lookup, find?_append, lookup]
  by_cases hk : key row = k
  · rw [if_pos hk, find?_cons_of_pos (by simpa using hk)]
  · rw [if_neg hk, find?_cons_of_neg (by simpa using hk), find?_nil]

/-- Rewrite the rows with the given key, or append one when there are none. -/
def upsert (key : α → κ) (k : κ) (f : Option α → α) (rows : List α) : List α :=
  match lookup key rows k with
  | some _ => modify key k (fun r => f (some r)) rows
  | none => rows ++ [f none]

theorem lookup_upsert {f : Option α → α}
    (hsome : ∀ r, key (f (some r)) = key r) (hnone : key (f none) = k) (j : κ) :
    lookup key (upsert key k f rows) j =
      if j = k then some (f (lookup key rows k)) else lookup key rows j := by
  unfold upsert
  cases hfound : lookup key rows k with
  | none =>
    simp only
    rw [lookup_concat, hnone]
    by_cases hj : j = k
    · rw [if_pos hj.symm, if_pos hj, hj, hfound, Option.none_or]
    · rw [if_neg (Ne.symm hj), if_neg hj, Option.or_none]
  | some row =>
    simp only
    rw [lookup_modify hsome]
    by_cases hj : j = k
    · rw [if_pos hj, hj, hfound]
      simp
    · simp [hj]

/-- Put a row under its key: in the place of the old one, or at the end. -/
def set (key : α → κ) (row : α) (rows : List α) : List α :=
  upsert key (key row) (fun _ => row) rows

theorem set_eq_upsert (row : α) : set key row rows =
    upsert key (key row) (fun old => old.elim row fun r => if key r = key row then row else r)
      rows := by
  unfold set upsert
  cases lookup key rows (key row) with
  | none => rfl
  | some _ =>
    refine map_congr_left fun r _ => ?_
    by_cases hr : key r = key row
    · simp [hr]
    · simp [hr]

theorem lookup_set (row : α) (j : κ) :
    lookup key (set key row rows) j = if j = key row then some row else lookup key rows j := by
  have hkey : ∀ r, key (if key r = key row then row else r) = key r := by
    intro r
    by_cases hr : key r = key row
    · simp [hr]
    · simp [hr]
  rw [set_eq_upsert]
  refine (lookup_upsert (k := key row)
    (f := fun old => old.elim row fun r => if key r = key row then row else r) hkey rfl j).trans ?_
  by_cases hj : j = key row
  · rw [if_pos hj, if_pos hj]
    cases hrow : lookup key rows (key row) with
    | none => rfl
    | some r => simp [(mem_of_lookup hrow).2]
  · rw [if_neg hj, if_neg hj]

theorem nodup_set (hn : (rows.map key).Nodup) (row : α) : ((set key row rows).map key).Nodup := by
  unfold set upsert
  cases hrow : lookup key rows (key row) with
  | none =>
    rw [map_append, map_singleton, ← concat_eq_append]
    refine hn.concat fun hmem => ?_
    obtain ⟨r, hr, hkey⟩ := mem_map.mp hmem
    exact lookup_eq_none.mp hrow r hr hkey
  | some old =>
    suffices h : (modify key (key row) (fun _ => row) rows).map key = rows.map key by rwa [h]
    rw [modify, map_map]
    refine map_congr_left fun r _ => ?_
    by_cases hr : key r = key row
    · simp [hr]
    · simp [hr]

theorem foldl_set (front : List α) (hn : ((front ++ rows).map key).Nodup) :
    rows.foldl (fun acc row => set key row acc) front = front ++ rows := by
  induction rows generalizing front with
  | nil => rw [foldl_nil, append_nil]
  | cons row rows ih =>
    have hfree : lookup key front (key row) = none := by
      rw [map_append, map_cons, nodup_middle, nodup_cons, ← map_append] at hn
      exact lookup_eq_none.mpr fun r hr hkey =>
        hn.1 (mem_map.mpr ⟨r, mem_append_left _ hr, hkey⟩)
    have hset : set key row front = front ++ [row] := by
      unfold set upsert
      rw [hfree]
    rw [foldl_cons, hset, ih _ (by rwa [append_assoc]), append_assoc, singleton_append]

theorem lookup_filter (hn : (rows.map key).Nodup) (p : α → Bool) (k : κ) :
    lookup key (rows.filter p) k = (lookup key rows k).filter p := by
  have hfilter : ((rows.filter p).map key).Nodup := hn.sublist (filter_sublist.map key)
  ext row
  rw [lookup_eq_some hfilter, Option.filter_eq_some_iff, lookup_eq_some hn, mem_filter]
  tauto

omit [DecidableEq κ] in
theorem filter_eq_singleton (hn : (rows.map key).Nodup) {p : α → Bool} {row : α} (hrow : row ∈ rows)
    (hp : p row = true) (hkey : ∀ r ∈ rows, p r = true → key r = key row) :
    rows.filter p = [row] := by
  obtain ⟨front, back, rfl⟩ := append_of_mem hrow
  have hother : ∀ r ∈ front ++ back, ¬ p r = true := by
    intro r hr hpr
    have hne : key r ≠ key row := by
      rw [map_append, map_cons, nodup_middle, nodup_cons, ← map_append] at hn
      exact fun h => hn.1 (mem_map.mpr ⟨r, hr, h⟩)
    refine hne (hkey r ?_ hpr)
    rcases mem_append.mp hr with h | h
    · exact mem_append_left _ h
    · exact mem_append_right _ (mem_cons_of_mem _ h)
  rw [filter_append, filter_cons_of_pos hp,
    filter_eq_nil_iff.mpr fun r hr => hother r (mem_append_left _ hr),
    filter_eq_nil_iff.mpr fun r hr => hother r (mem_append_right _ hr), nil_append]

private theorem foldl_update_apply (rows : List α) (m : κ → Option α) (k : κ) :
    rows.foldl (fun m r => Function.update m (key r) (some r)) m k =
      (lookup key rows.reverse k).or (m k) := by
  induction rows generalizing m with
  | nil => rfl
  | cons r rows ih =>
    rw [foldl_cons, ih, lookup, lookup, reverse_cons, find?_append]
    cases List.find? (fun r => decide (key r = k)) rows.reverse with
    | some q => rfl
    | none =>
      by_cases hk : key r = k
      · subst hk; simp
      · simp [hk, update_of_ne (Ne.symm hk)]

theorem index_eq_lookup_reverse (rows : List α) (k : κ) :
    index key rows k = lookup key rows.reverse k := by
  rw [index, foldl_update_apply]
  cases lookup key rows.reverse k <;> rfl

theorem index_eq_some (hn : (rows.map key).Nodup) :
    index key rows k = some r ↔ r ∈ rows ∧ key r = k := by
  rw [index_eq_lookup_reverse, lookup_eq_some (by simpa using hn), mem_reverse]

theorem update_eq_some {ι β : Type*} [DecidableEq ι] {f : ι → Option β} {next : Option β}
    {i j : ι} {b : β} (h : Function.update f i next j = some b) :
    (j = i ∧ next = some b) ∨ (j ≠ i ∧ f j = some b) := by
  by_cases hj : j = i
  · subst hj
    rw [update_self] at h
    exact .inl ⟨rfl, h⟩
  · rw [update_of_ne hj] at h
    exact .inr ⟨hj, h⟩

theorem update_none_eq_some {ι β : Type*} [DecidableEq ι] {f : ι → Option β} {i j : ι} {b : β}
    (h : Function.update f i none j = some b) : j ≠ i ∧ f j = some b := by
  refine (update_eq_some h).resolve_left ?_
  rintro ⟨-, ⟨⟩⟩

section Places

variable {β : Type*} {f : Nat → Option β} {next : Option β} {i j bound : Nat} {b : β}

theorem lt_of_taken (hfree : ∀ j, bound ≤ j → f j = none) (h : f i = some b) : i < bound := by
  by_contra hle
  rw [hfree i (Nat.le_of_not_lt hle)] at h
  cases h

theorem free_update (hfree : ∀ j, bound ≤ j → f j = none) {bound' : Nat} (hbound : bound ≤ bound')
    (hi : i < bound') (j : Nat) (hj : bound' ≤ j) : Function.update f i next j = none := by
  rw [update_of_ne (by omega)]
  exact hfree j (hbound.trans hj)

theorem update_of_taken (hfree : f i = none) (h : f j = some b) :
    Function.update f i next j = some b := by
  refine (update_of_ne ?_ _ _).trans h
  rintro rfl
  cases hfree.symm.trans h

end Places

end CrabbyKit.Table
