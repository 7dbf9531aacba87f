import Mathlib.Data.List.Infix

/-!
# Trees of files

A tree maps the paths of its files to their contents. Directories are the prefixes of paths.
Two directories neither of which lies in the other share no file, so that what is written
or removed in one of them leaves the other as it was.
-/

namespace CrabbyKit

open List

abbrev FileTree (κ α : Type*) := List κ → Option α

namespace FileTree

variable {κ α : Type*} [DecidableEq κ] {t : FileTree κ α} {d e p : List κ}

def put (t : FileTree κ α) (path : List κ) (content : α) : FileTree κ α :=
  Function.update t path (some content)

/-- Write files below a directory, the later ones over the earlier. -/
def putAll (t : FileTree κ α) (dir : List κ) (files : List (List κ × α)) : FileTree κ α :=
  files.foldl (fun t file => t.put (dir ++ file.1) file.2) t

/-- Remove a directory with all that it holds. -/
def removeDir (t : FileTree κ α) (dir : List κ) : FileTree κ α :=
  fun path => if dir <+: path then none else t path

omit [DecidableEq κ] in
def below (t : FileTree κ α) (dir : List κ) : FileTree κ α := fun path => t (dir ++ path)

def ofFiles (files : List (List κ × α)) : FileTree κ α := putAll (fun _ => none) [] files

/-- Neither directory lies in the other. -/
def Apart (d e : List κ) : Prop := ¬ d <+: e ∧ ¬ e <+: d

instance : Decidable (Apart d e) := inferInstanceAs (Decidable (_ ∧ _))

omit [DecidableEq κ] in
theorem Apart.symm (h : Apart d e) : Apart e d := ⟨h.2, h.1⟩

omit [DecidableEq κ] in
theorem Apart.outside (h : Apart d e) (hp : e <+: p) : ¬ d <+: p := by
  intro hd
  rcases prefix_or_prefix_of_prefix hd hp with hde | hed
  · exact h.1 hde
  · exact h.2 hed

omit [DecidableEq κ] in
theorem Apart.append (h : Apart d e) (x y : List κ) : Apart (d ++ x) (e ++ y) := by
  refine ⟨fun hp => ?_, fun hp => ?_⟩
  · exact h.outside (prefix_append e y) ((prefix_append d x).trans hp)
  · exact h.symm.outside (prefix_append d x) ((prefix_append e y).trans hp)

omit [DecidableEq κ] in
theorem apart_append_left {x y : List κ} : Apart (d ++ x) (d ++ y) ↔ Apart x y := by
  simp only [Apart, prefix_append_right_inj]

omit [DecidableEq κ] in
theorem apart_cons_of_ne {a b : κ} (h : a ≠ b) (x y : List κ) : Apart (a :: x) (b :: y) := by
  refine ⟨fun hp => ?_, fun hp => ?_⟩
  · exact h (cons_prefix_cons.mp hp).1
  · exact h (cons_prefix_cons.mp hp).1.symm

theorem put_of_ne {path : List κ} {content : α} (h : p ≠ path) : t.put path content p = t p :=
  Function.update_of_ne h _ _

theorem below_put_of_outside {path : List κ} {content : α} (h : ¬ d <+: path) :
    (t.put path content).below d = t.below d := by
  funext q
  refine put_of_ne ?_
  rintro rfl
  exact h (prefix_append d q)

theorem putAll_of_outside (files : List (List κ × α)) (h : ¬ d <+: p) :
    t.putAll d files p = t p := by
  induction files generalizing t with
  | nil => rfl
  | cons file files ih =>
    change (t.put (d ++ file.1) file.2).putAll d files p = t p
    rw [ih]
    refine put_of_ne ?_
    rintro rfl
    exact h (prefix_append d file.1)

theorem below_putAll_of_apart (files : List (List κ × α)) (h : Apart d e) :
    (t.putAll d files).below e = t.below e := by
  funext q
  exact putAll_of_outside files (h.outside (prefix_append e q))

theorem below_putAll (files : List (List κ × α)) :
    (t.putAll d files).below d = (t.below d).putAll [] files := by
  induction files generalizing t with
  | nil => rfl
  | cons file files ih =>
    change ((t.put (d ++ file.1) file.2).putAll d files).below d =
      ((t.below d).put file.1 file.2).putAll [] files
    rw [ih]
    congr 1
    funext q
    simp only [below, put, Function.update_apply, append_cancel_left_eq]

theorem putAll_nil_apply (files : List (List κ × α)) (p : List κ) :
    t.putAll [] files p = (ofFiles files p).or (t p) := by
  induction files using List.reverseRecOn with
  | nil => rfl
  | append_singleton files file ih =>
    simp only [putAll, ofFiles, foldl_append, foldl_cons, foldl_nil] at ih ⊢
    by_cases h : p = file.1
    · subst h
      simp [put]
    · rw [put_of_ne (by simpa using h), put_of_ne (by simpa using h)]
      exact ih

variable {files : List (List κ × α)}

theorem ofFiles_isSome : (ofFiles files p).isSome ↔ p ∈ files.map Prod.fst := by
  induction files using List.reverseRecOn with
  | nil => simp [ofFiles, putAll]
  | append_singleton files file ih =>
    rw [ofFiles, putAll, foldl_append, foldl_cons, foldl_nil]
    change ((ofFiles files).put file.1 file.2 p).isSome ↔ _
    by_cases h : p = file.1
    · simp [put, h]
    · rw [put_of_ne h, ih]
      simp [h]

theorem putAll_eq_ofFiles
    (h : ∀ p, (t p).isSome → p ∈ files.map Prod.fst) : t.putAll [] files = ofFiles files := by
  funext p
  rw [putAll_nil_apply]
  cases hp : ofFiles files p with
  | some content => rfl
  | none =>
    rw [Option.none_or]
    cases ht : t p with
    | none => rfl
    | some content =>
      have hmem := ofFiles_isSome.mpr (h p (by simp [ht]))
      simp [hp] at hmem

theorem putAll_eq_self (h : ∀ p content, ofFiles files p = some content → t p = some content) :
    t.putAll [] files = t := by
  funext p
  rw [putAll_nil_apply]
  cases hp : ofFiles files p with
  | none => rfl
  | some content => rw [h p content hp, Option.some_or]

theorem removeDir_of_outside (h : ¬ d <+: p) : t.removeDir d p = t p := if_neg h

end FileTree

end CrabbyKit
