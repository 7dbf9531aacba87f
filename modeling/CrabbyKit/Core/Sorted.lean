import Mathlib.Data.List.Nodup
import Mathlib.Order.Basic

/-!
# Selections from ordered lists

In a list whose keys increase strictly, the sorted sublists that are downward closed
are exactly the prefixes. In a list without duplicates a sublist is determined by its
members.
-/

namespace CrabbyKit.Sorted

open List

variable {α κ : Type*} [Preorder κ] {key : α → κ}

theorem isPrefix_of_downClosed {l s : List α} (hl : l.Pairwise fun a b => key a < key b)
    (hs : s.Pairwise fun a b => key a < key b) (hsub : ∀ a ∈ s, a ∈ l)
    (hdown : ∀ a ∈ l, ∀ b ∈ s, key a < key b → a ∈ s) : s <+: l := by
  induction l generalizing s with
  | nil =>
    cases s with
    | nil => exact prefix_refl _
    | cons b s => cases hsub b mem_cons_self
  | cons a l ih =>
    cases s with
    | nil => exact nil_prefix
    | cons b s =>
      obtain ⟨hal, hl'⟩ := pairwise_cons.mp hl
      obtain ⟨hbs, hs'⟩ := pairwise_cons.mp hs
      have hab : b = a := by
        rcases mem_cons.mp (hsub b mem_cons_self) with hba | hb
        · exact hba
        · have hlt := hal b hb
          rcases mem_cons.mp (hdown a mem_cons_self b mem_cons_self hlt) with h | h
          · exact h.symm
          · exact absurd (hbs a h) (lt_asymm hlt)
      subst hab
      have hne : ∀ c ∈ s, c ∈ l := by
        intro c hc
        rcases mem_cons.mp (hsub c (mem_cons_of_mem b hc)) with h | h
        · exact absurd (hbs c hc) (h ▸ lt_irrefl _)
        · exact h
      have hrest : ∀ c ∈ l, ∀ d ∈ s, key c < key d → c ∈ s := by
        intro c hc d hd hcd
        rcases mem_cons.mp (hdown c (mem_cons_of_mem b hc) d (mem_cons_of_mem b hd) hcd) with h | h
        · exact absurd (hal c hc) (h ▸ lt_irrefl _)
        · exact h
      exact cons_prefix_cons.mpr ⟨rfl, ih hl' hs' hne hrest⟩

theorem downClosed_of_isPrefix {l s : List α} (hl : l.Pairwise fun a b => key a < key b)
    (hp : s <+: l) {a b : α} (ha : a ∈ l) (hb : b ∈ s) (hlt : key a < key b) : a ∈ s := by
  obtain ⟨t, rfl⟩ := hp
  rcases mem_append.mp ha with h | h
  · exact h
  · exact absurd ((pairwise_append.mp hl).2.2 b hb a h) (lt_asymm hlt)

theorem split_at_index {l : List α} (hn : l.Nodup) {i : Nat} {k : α} (hi : l[i]? = some k)
    {before after : List α} (hl : l = before ++ k :: after) : before.length = i := by
  obtain ⟨hlt, hget⟩ := List.getElem?_eq_some_iff.mp hi
  have hsome : l[before.length]? = some k := by
    rw [hl, getElem?_append_right (Nat.le_refl _), Nat.sub_self]
    rfl
  obtain ⟨hb, hk⟩ := List.getElem?_eq_some_iff.mp hsome
  exact hn.getElem_inj_iff.mp (hk.trans hget.symm)

omit [Preorder κ] in
theorem eq_of_sublist_of_mem {l a b : List α} (hl : l.Nodup) (ha : a.Sublist l)
    (hb : b.Sublist l) (h : ∀ x, x ∈ a ↔ x ∈ b) : a = b := by
  induction l generalizing a b with
  | nil => rw [sublist_nil.mp ha, sublist_nil.mp hb]
  | cons x l ih =>
    obtain ⟨hx, hl'⟩ := nodup_cons.mp hl
    rcases sublist_cons_iff.mp ha with ha' | ⟨a', rfl, ha'⟩
    · have hxa : x ∉ a := fun hm => hx (ha'.subset hm)
      rcases sublist_cons_iff.mp hb with hb' | ⟨b', rfl, hb'⟩
      · exact ih hl' ha' hb' h
      · exact absurd ((h x).mpr mem_cons_self) hxa
    · rcases sublist_cons_iff.mp hb with hb' | ⟨b', rfl, hb'⟩
      · have hxb : x ∉ b := fun hm => hx (hb'.subset hm)
        exact absurd ((h x).mp mem_cons_self) hxb
      · have hrest : ∀ y, y ∈ a' ↔ y ∈ b' := by
          intro y
          have hy := h y
          simp only [mem_cons] at hy
          by_cases hyx : y = x
          · subst hyx
            exact ⟨fun hm => absurd (ha'.subset hm) hx, fun hm => absurd (hb'.subset hm) hx⟩
          · simpa only [hyx, false_or] using hy
        rw [ih hl' ha' hb' hrest]

omit [Preorder κ] in
/-- When dropping `r` elements of one list at its start leaves what dropping `r` elements
of another one at its end leaves. -/
theorem take_eq_drop_iff {f o : List α} {r : Nat} :
    f.take (f.length - r) = o.drop r ↔ (f.length ≤ r ∧ o.length ≤ r) ∨
      ∃ n d x, o = n ++ d ∧ f = d ++ x ∧ n.length = r ∧ x.length = r := by
  constructor
  · intro h
    by_cases ho : o.length ≤ r
    · have hnil := drop_eq_nil_of_le ho
      rw [hnil, take_eq_nil_iff] at h
      refine Or.inl ⟨?_, ho⟩
      rcases h with h | h
      · omega
      · rw [h]
        exact Nat.zero_le r
    · have hlength := congrArg List.length h
      rw [length_take, length_drop] at hlength
      refine Or.inr ⟨o.take r, o.drop r, f.drop (f.length - r), ?_, ?_, ?_, ?_⟩
      · exact (take_append_drop r o).symm
      · rw [← h, take_append_drop]
      · rw [length_take]
        omega
      · rw [length_drop]
        omega
  · rintro (⟨hf, ho⟩ | ⟨n, d, x, rfl, rfl, hn, hx⟩)
    · rw [drop_eq_nil_of_le ho, Nat.sub_eq_zero_of_le hf, take_zero]
    · have hlength : (d ++ x).length - r = d.length := by
        rw [length_append]
        omega
      rw [hlength, take_left, ← hn, drop_left]

omit [Preorder κ] in
theorem take_eq_drop_self_iff {l : List α} (hl : l.Nodup) {r : Nat} :
    l.take (l.length - r) = l.drop r ↔ l.length ≤ r ∨ r = 0 := by
  rw [take_eq_drop_iff]
  constructor
  · rintro (⟨hle, -⟩ | ⟨n, d, x, hnd, hdx, hn, hx⟩)
    · exact Or.inl hle
    · cases n with
      | nil => exact Or.inr hn.symm
      | cons a n =>
        cases d with
        | nil =>
          left
          rw [hnd, append_nil]
          exact Nat.le_of_eq hn
        | cons b d =>
          have hab : a = b := by
            rw [hnd] at hdx
            exact (List.cons.inj hdx).1
          rw [hnd, nodup_append] at hl
          exact absurd hab (hl.2.2 a mem_cons_self b mem_cons_self)
  · rintro (hle | rfl)
    · exact Or.inl ⟨hle, hle⟩
    · exact Or.inr ⟨[], l, [], rfl, (append_nil l).symm, rfl, rfl⟩

end CrabbyKit.Sorted
