import Mathlib.Data.List.Basic

/-!
# Texts without their matches

Every match of a pattern is taken out of a text, from left to right. Where no match of the pattern
overlaps another one, cutting the text changes what is left just where the cut goes through a match.
-/

namespace CrabbyKit

open List

variable {α : Type*} {Word : List α → Prop} {m : List α → Option Nat} {a b : List α}

/-- The text behind `skip` elements without its matches: `m` says how long the match at the front
of a text is. -/
def eraseMatches (m : List α → Option Nat) : Nat → List α → List α
  | _, [] => []
  | skip + 1, _ :: rest => eraseMatches m skip rest
  | 0, c :: rest =>
    match m (c :: rest) with
    | some (length + 1) => eraseMatches m length rest
    | _ => c :: eraseMatches m 0 rest

/-- `m` finds the words at the front of texts, and no word starts in a word and ends behind it. -/
structure Matches (Word : List α → Prop) (m : List α → Option Nat) : Prop where
  eq_some_iff : ∀ text n, m text = some n ↔ ∃ w rest, text = w ++ rest ∧ Word w ∧ w.length = n
  solid : ∀ u v v', Word (u ++ v) → v ≠ [] → Word (v ++ v') → v' = []
  nonempty : ¬Word []

/-- A word starts in the first text and ends in the second one. -/
def Straddles (Word : List α → Prop) (a b : List α) : Prop :=
  ∃ p x, p ≠ [] ∧ x ≠ [] ∧ p <:+ a ∧ x <+: b ∧ Word (p ++ x)

theorem eraseMatches_eq_drop (n : Nat) (text : List α) :
    eraseMatches m n text = eraseMatches m 0 (text.drop n) := by
  induction text generalizing n with
  | nil => rw [drop_nil, eraseMatches, eraseMatches]
  | cons c rest ih =>
    cases n with
    | zero => rfl
    | succ n =>
      rw [eraseMatches, drop_succ_cons]
      exact ih n

theorem Matches.erase_word (h : Matches Word m) {w : List α} (hw : Word w) (rest : List α) :
    eraseMatches m 0 (w ++ rest) = eraseMatches m 0 rest := by
  cases w with
  | nil => exact absurd hw h.nonempty
  | cons c w =>
    have hm : m (c :: (w ++ rest)) = some (w.length + 1) :=
      (h.eq_some_iff _ _).mpr ⟨c :: w, rest, rfl, hw, rfl⟩
    rw [cons_append, eraseMatches]
    simp only [hm]
    rw [eraseMatches_eq_drop, drop_left]

theorem Matches.erase_cons (h : Matches Word m) {c : α} {text : List α}
    (hnone : ¬∃ w, Word w ∧ w <+: c :: text) :
    eraseMatches m 0 (c :: text) = c :: eraseMatches m 0 text := by
  have hm : m (c :: text) = none := by
    refine Option.eq_none_iff_forall_ne_some.mpr fun n hn => hnone ?_
    obtain ⟨w, rest, htext, hw, -⟩ := (h.eq_some_iff _ _).mp hn
    exact ⟨w, hw, rest, htext.symm⟩
  rw [eraseMatches]
  simp only [hm]

theorem prefix_or_straddles {w : List α} (hw : Word w) (ha : a ≠ []) (hpre : w <+: a ++ b) :
    w <+: a ∨ ∃ x rest, x ≠ [] ∧ w = a ++ x ∧ b = x ++ rest ∧ Straddles Word a b := by
  obtain ⟨rest, heq⟩ := hpre
  rcases append_eq_append_iff.mp heq with ⟨left, ha', -⟩ | ⟨x, rfl, hb⟩
  · exact .inl ⟨left, ha'.symm⟩
  · by_cases hx : x = []
    · rw [hx, append_nil]
      exact .inl (prefix_refl a)
    · exact .inr ⟨x, rest, hx, rfl, hb, a, x, ha, hx, suffix_refl a, ⟨rest, hb.symm⟩, hw⟩

theorem Straddles.append_left (h : Straddles Word a b) (front : List α) :
    Straddles Word (front ++ a) b := by
  obtain ⟨p, x, hp, hx, hsuffix, hrest⟩ := h
  exact ⟨p, x, hp, hx, hsuffix.trans (suffix_append _ _), hrest⟩

theorem Matches.erase_append (h : Matches Word m) (hcut : ¬Straddles Word a b) :
    eraseMatches m 0 (a ++ b) = eraseMatches m 0 a ++ eraseMatches m 0 b := by
  induction hn : a.length using Nat.strongRecOn generalizing a with
  | _ n ih =>
    cases a with
    | nil => rfl
    | cons c a =>
      by_cases hword : ∃ w, Word w ∧ w <+: c :: a
      · obtain ⟨w, hw, rest, hrest⟩ := hword
        rw [← hrest] at hcut hn ⊢
        have hpos := length_pos_iff.mpr fun hnil : w = [] => h.nonempty (hnil ▸ hw)
        rw [length_append] at hn
        rw [append_assoc, h.erase_word hw, h.erase_word hw]
        exact ih rest.length (by omega) (fun hs => hcut (hs.append_left w)) rfl
      · have hboth : ¬∃ w, Word w ∧ w <+: c :: (a ++ b) := by
          rintro ⟨w, hw, hpre⟩
          rcases prefix_or_straddles hw (cons_ne_nil c a) hpre with
            hin | ⟨-, -, -, -, -, hs⟩
          · exact hword ⟨w, hw, hin⟩
          · exact hcut hs
        rw [cons_append, h.erase_cons hboth, h.erase_cons hword, cons_append]
        rw [length_cons] at hn
        rw [ih a.length (by omega) (fun hs => hcut (hs.append_left [c])) rfl]

theorem eraseMatches_sublist (n : Nat) (text : List α) : (eraseMatches m n text).Sublist text := by
  fun_induction eraseMatches m n text with
  | case1 => exact Sublist.refl _
  | case2 _ _ _ ih => exact ih.cons _
  | case3 _ _ _ _ ih => exact ih.cons _
  | case4 _ _ _ ih => exact ih.cons_cons _

theorem Matches.erase_straddles (h : Matches Word m) (hcut : Straddles Word a b) :
    ∃ front p x back, p ≠ [] ∧ x ≠ [] ∧ Word (p ++ x) ∧
      eraseMatches m 0 a = front ++ eraseMatches m 0 p ∧
      eraseMatches m 0 b = eraseMatches m 0 x ++ back ∧
      eraseMatches m 0 (a ++ b) = front ++ back := by
  induction hn : a.length using Nat.strongRecOn generalizing a with
  | _ n ih =>
    obtain ⟨p, x, hp, hx, hsuffix, hpre, hpx⟩ := id hcut
    cases a with
    | nil => exact absurd (suffix_nil.mp hsuffix) hp
    | cons c a =>
      by_cases hword : ∃ w, Word w ∧ w <+: c :: a
      · obtain ⟨w, hw, rest, hrest⟩ := hword
        rw [← hrest] at hsuffix hn ⊢
        have hlater : Straddles Word rest b := by
          obtain ⟨front, hfront⟩ := hsuffix
          rcases append_eq_append_iff.mp hfront with ⟨v, rfl, rfl⟩ | ⟨left, -, hleft⟩
          · by_cases hv : v = []
            · rw [hv, nil_append] at hp hpx
              exact ⟨rest, x, hp, hx, suffix_refl rest, hpre, hpx⟩
            · rw [append_assoc] at hpx
              exact absurd (h.solid _ _ _ hw hv hpx) (append_ne_nil_of_right_ne_nil _ hx)
          · exact ⟨p, x, hp, hx, ⟨left, hleft.symm⟩, hpre, hpx⟩
        have hpos := length_pos_iff.mpr fun hnil : w = [] => h.nonempty (hnil ▸ hw)
        rw [length_append] at hn
        rw [append_assoc, h.erase_word hw, h.erase_word hw]
        exact ih rest.length (by omega) hlater rfl
      · by_cases hboth : ∃ w, Word w ∧ w <+: c :: a ++ b
        · obtain ⟨w, hw, hin⟩ := hboth
          rcases prefix_or_straddles hw (cons_ne_nil c a) hin with
            hin | ⟨x, rest, hx, rfl, rfl, -⟩
          · exact absurd ⟨w, hw, hin⟩ hword
          · have hclean : ¬Straddles Word x rest := by
              rintro ⟨q, y, hq, hy, ⟨front, rfl⟩, -, hqy⟩
              rw [← append_assoc] at hw
              exact hy (h.solid _ _ _ hw hq hqy)
            refine ⟨[], c :: a, x, _, cons_ne_nil c a, hx, hw, rfl, h.erase_append hclean, ?_⟩
            rw [← append_assoc, h.erase_word hw, nil_append]
        · have hlater : Straddles Word a b := by
            rcases suffix_cons_iff.mp hsuffix with rfl | hin
            · exact absurd ⟨_, hpx, (prefix_append_right_inj _).mpr hpre⟩ hboth
            · exact ⟨p, x, hp, hx, hin, hpre, hpx⟩
          rw [length_cons] at hn
          obtain ⟨front, q, y, back, hq, hy, hqy, ha, hb, hab⟩ := ih a.length (by omega) hlater rfl
          refine ⟨c :: front, q, y, back, hq, hy, hqy, ?_, hb, ?_⟩
          · rw [h.erase_cons hword, ha, cons_append]
          · rw [cons_append] at hboth ⊢
            rw [h.erase_cons hboth, hab, cons_append]

theorem Matches.erase_ne_nil (h : Matches Word m) (hne : a ≠ [])
    (hnone : ∀ w, Word w → ¬w <+: a) : eraseMatches m 0 a ≠ [] := by
  obtain ⟨c, rest, rfl⟩ := exists_cons_of_ne_nil hne
  rw [h.erase_cons fun ⟨w, hw, hin⟩ => hnone w hw hin]
  exact cons_ne_nil _ _

theorem Matches.erase_start_ne_nil (h : Matches Word m) {p x : List α} (hp : p ≠ []) (hx : x ≠ [])
    (hpx : Word (p ++ x)) : eraseMatches m 0 p ≠ [] := by
  refine h.erase_ne_nil hp fun w hw hin => ?_
  obtain ⟨rest, rfl⟩ := hin
  rw [append_assoc] at hpx
  have hw' : w ≠ [] := fun hnil => h.nonempty (hnil ▸ hw)
  exact append_ne_nil_of_right_ne_nil _ hx (h.solid [] w _ hw hw' hpx)

theorem Matches.erase_append_lt (h : Matches Word m) (hcut : Straddles Word a b) :
    (eraseMatches m 0 (a ++ b)).length <
      (eraseMatches m 0 a).length + (eraseMatches m 0 b).length := by
  obtain ⟨front, p, x, back, hp, hx, hpx, ha, hb, hab⟩ := h.erase_straddles hcut
  have hpos := length_pos_iff.mpr (h.erase_start_ne_nil hp hx hpx)
  rw [ha, hb, hab, length_append, length_append, length_append]
  omega

theorem Matches.length_erase_append_le (h : Matches Word m) (a b : List α) :
    (eraseMatches m 0 (a ++ b)).length ≤
      (eraseMatches m 0 a).length + (eraseMatches m 0 b).length := by
  by_cases hcut : Straddles Word a b
  · exact Nat.le_of_lt (h.erase_append_lt hcut)
  · exact Nat.le_of_eq (by rw [h.erase_append hcut, length_append])

end CrabbyKit
