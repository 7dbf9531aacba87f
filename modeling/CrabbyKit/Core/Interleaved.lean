import Mathlib.Data.List.Basic

/-!
# Interleavings

A list that consists of the entries of two others, each of them once and in its order.
-/

namespace CrabbyKit

variable {α : Type*}

/-- The third list is an interleaving of the first two. -/
inductive Interleaved : List α → List α → List α → Prop
  | nil : Interleaved [] [] []
  | left (a : α) {l r m : List α} (h : Interleaved l r m) : Interleaved (a :: l) r (a :: m)
  | right (a : α) {l r m : List α} (h : Interleaved l r m) : Interleaved l (a :: r) (a :: m)

namespace Interleaved

variable {l r m l' r' m' : List α}

theorem leftOnly (l : List α) : Interleaved l [] l := by
  induction l with
  | nil => exact nil
  | cons a rest ih => exact ih.left a

theorem rightOnly (r : List α) : Interleaved [] r r := by
  induction r with
  | nil => exact nil
  | cons a rest ih => exact ih.right a

theorem concat (l r : List α) : Interleaved l r (l ++ r) := by
  induction l with
  | nil => exact rightOnly r
  | cons a rest ih => exact ih.left a

theorem concatRight (l r : List α) : Interleaved l r (r ++ l) := by
  induction r with
  | nil => exact leftOnly l
  | cons a rest ih => exact ih.right a

theorem append (h : Interleaved l r m) (h' : Interleaved l' r' m') :
    Interleaved (l ++ l') (r ++ r') (m ++ m') := by
  induction h with
  | nil => exact h'
  | left a _ ih => exact ih.left a
  | right a _ ih => exact ih.right a

theorem length (h : Interleaved l r m) : m.length = l.length + r.length := by
  induction h with
  | nil => rfl
  | left a _ ih =>
    simp only [List.length_cons]
    omega
  | right a _ ih =>
    simp only [List.length_cons]
    omega

theorem eq_left_iff (h : Interleaved l r m) : m = l ↔ r = [] := by
  constructor
  · intro heq
    have hlength := h.length
    rw [heq] at hlength
    exact List.length_eq_zero_iff.mp (by omega)
  · intro hr
    induction h with
    | nil => rfl
    | left a _ ih => rw [ih hr]
    | right a _ ih => cases hr

end Interleaved

end CrabbyKit
