import Mathlib.Data.List.Dedup
import Mathlib.Algebra.Order.BigOperators.Group.List
import Mathlib.Algebra.Order.Group.Nat
import Mathlib.Algebra.GroupWithZero.Nat

/-!
# Acyclic relations and depth-first search

A relation is acyclic when no vertex follows itself. A search with a stack and a list of
visited vertices decides reachability; its fuel is bounded by the edges not yet walked.
-/

namespace CrabbyKit.Search

open Relation List

section Acyclic

variable {α : Type*} {r q : α → α → Prop} {s t : α}

/-- No vertex follows itself along one or more edges. -/
def Acyclic (r : α → α → Prop) : Prop := ∀ v, ¬ TransGen r v v

/-- A relation with one more edge. -/
def insertEdge (r : α → α → Prop) (s t : α) (a b : α) : Prop := r a b ∨ a = s ∧ b = t

theorem Acyclic.mono (h : Acyclic r) (hq : ∀ a b, q a b → r a b) : Acyclic q :=
  fun v hv => h v (TransGen.mono hq v v hv)

theorem acyclic_of_rank (rank : α → Nat) (h : ∀ a b, r a b → rank b < rank a) : Acyclic r := by
  have hfall : ∀ a b, TransGen r a b → rank b < rank a := by
    intro a b hab
    induction hab with
    | single hab => exact h _ _ hab
    | tail _ hbc ih => exact Nat.lt_trans (h _ _ hbc) ih
  intro v hv
  exact Nat.lt_irrefl _ (hfall v v hv)

theorem transGen_insertEdge {a b : α} (h : TransGen (insertEdge r s t) a b) :
    TransGen r a b ∨ ReflTransGen r a s ∧ ReflTransGen r t b := by
  induction h with
  | single hab =>
    rcases hab with hab | ⟨rfl, rfl⟩
    · exact Or.inl (TransGen.single hab)
    · exact Or.inr ⟨ReflTransGen.refl, ReflTransGen.refl⟩
  | tail _ hbc ih =>
    rcases hbc with hbc | ⟨rfl, rfl⟩
    · rcases ih with hab | ⟨has, htb⟩
      · exact Or.inl (hab.tail hbc)
      · exact Or.inr ⟨has, htb.tail hbc⟩
    · rcases ih with hab | ⟨has, -⟩
      · exact Or.inr ⟨hab.to_reflTransGen, ReflTransGen.refl⟩
      · exact Or.inr ⟨has, ReflTransGen.refl⟩

theorem reflTransGen_insertEdge {a : α} :
    ReflTransGen (insertEdge r s t) a s ↔ ReflTransGen r a s := by
  constructor
  · intro h
    induction h using ReflTransGen.head_induction_on with
    | refl => exact ReflTransGen.refl
    | head hab _ ih =>
      rcases hab with hab | ⟨rfl, -⟩
      · exact ih.head hab
      · exact ReflTransGen.refl
  · intro h
    exact ReflTransGen.mono (fun _ _ => Or.inl) _ _ h

theorem acyclic_insertEdge (h : Acyclic r) : Acyclic (insertEdge r s t) ↔ ¬ ReflTransGen r t s := by
  constructor
  · intro hacyclic hts
    have hback : ReflTransGen (insertEdge r s t) t s := 
      ReflTransGen.mono (fun _ _ hab => Or.inl hab) t s hts
    exact hacyclic s (TransGen.head' (Or.inr ⟨rfl, rfl⟩) hback)
  · intro hts v hv
    rcases transGen_insertEdge hv with hv | ⟨hvs, htv⟩
    · exact h v hv
    · exact hts (htv.trans hvs)

/-- Along an acyclic relation that stays in a list every walk can go on to an end. -/
theorem Acyclic.exists_end [DecidableEq α] (h : Acyclic r) (n : Nat) (vertices : List α)
    (hn : vertices.length ≤ n) (v : α) (hv : ∀ w, TransGen r v w → w ∈ vertices) :
    ∃ w, ReflTransGen r v w ∧ ∀ u, ¬ r w u := by
  induction n generalizing vertices v with
  | zero =>
    refine ⟨v, .refl, fun u hu => ?_⟩
    rw [length_eq_zero_iff.mp (Nat.le_zero.mp hn)] at hv
    exact absurd (hv u (.single hu)) not_mem_nil
  | succ n ih =>
    by_cases hnext : ∃ u, r v u
    · obtain ⟨u, hu⟩ := hnext
      have hshorter : (vertices.filter (· ≠ u)).length < vertices.length :=
        length_filter_lt_length_iff_exists.mpr ⟨u, hv u (.single hu), by simp⟩
      obtain ⟨w, hw, hend⟩ := ih (vertices.filter (· ≠ u)) (by omega) u fun w hw =>
        mem_filter.mpr ⟨hv w (.head hu hw), decide_eq_true fun he => h u (he ▸ hw)⟩
      exact ⟨w, .head hu hw, hend⟩
    · exact ⟨v, .refl, fun u hu => hnext ⟨u, hu⟩⟩

end Acyclic

section Search

variable {α : Type*} [DecidableEq α]

/-- Whether a walk from the vertices on the stack meets the goal; absent when the fuel runs
out. -/
def search (next : α → List α) (goal : α) : Nat → List α → List α → Option Bool
  | 0, _, _ => none
  | _ + 1, [], _ => some false
  | fuel + 1, v :: stack, visited =>
    if v = goal then some true
    else if v ∈ visited then search next goal fuel stack visited
    else search next goal fuel ((next v).reverse ++ stack) (v :: visited)

variable {next : α → List α} {goal : α} {fuel : Nat} {stack visited : List α}

theorem search_sound (h : search next goal fuel stack visited = some true) :
    ∃ v ∈ stack, ReflTransGen (fun a b => b ∈ next a) v goal := by
  induction fuel generalizing stack visited with
  | zero => cases h
  | succ fuel ih =>
    cases stack with
    | nil => cases h
    | cons v stack =>
      unfold search at h
      split_ifs at h with hgoal hvisited
      · exact ⟨v, mem_cons_self, hgoal ▸ ReflTransGen.refl⟩
      · obtain ⟨w, hw, hreach⟩ := ih h
        exact ⟨w, mem_cons_of_mem v hw, hreach⟩
      · obtain ⟨w, hw, hreach⟩ := ih h
        rcases mem_append.mp hw with hw | hw
        · exact ⟨v, mem_cons_self, ReflTransGen.head (mem_reverse.mp hw) hreach⟩
        · exact ⟨w, mem_cons_of_mem v hw, hreach⟩

def Frontier (next : α → List α) (goal : α) (stack visited : List α) : Prop :=
  ∀ v ∈ visited, v ≠ goal ∧ ∀ w ∈ next v, w ∈ visited ∨ w ∈ stack

omit [DecidableEq α] in
theorem Frontier.closed (h : Frontier next goal [] visited) {v w : α}
    (hreach : ReflTransGen (fun a b => b ∈ next a) v w) (hv : v ∈ visited) : w ∈ visited := by
  induction hreach with
  | refl => exact hv
  | tail _ hbc ih =>
    rcases (h _ ih).2 _ hbc with hc | hc
    · exact hc
    · exact absurd hc not_mem_nil

theorem search_complete (hfrontier : Frontier next goal stack visited)
    (h : search next goal fuel stack visited = some false) :
    ∀ v, v ∈ visited ∨ v ∈ stack → ¬ ReflTransGen (fun a b => b ∈ next a) v goal := by
  induction fuel generalizing stack visited with
  | zero => cases h
  | succ fuel ih =>
    cases stack with
    | nil =>
      rintro v (hv | hv) hreach
      · exact (hfrontier goal (hfrontier.closed hreach hv)).1 rfl
      · exact absurd hv not_mem_nil
    | cons v stack =>
      unfold search at h
      split_ifs at h with hgoal hvisited
      · cases h
      · have hnew : Frontier next goal stack visited := by
          intro u hu
          refine ⟨(hfrontier u hu).1, fun w hw => ?_⟩
          rcases (hfrontier u hu).2 w hw with hw | hw
          · exact Or.inl hw
          · rcases mem_cons.mp hw with rfl | hw
            · exact Or.inl hvisited
            · exact Or.inr hw
        rintro w (hw | hw)
        · exact ih hnew h w (Or.inl hw)
        · rcases mem_cons.mp hw with rfl | hw
          · exact ih hnew h w (Or.inl hvisited)
          · exact ih hnew h w (Or.inr hw)
      · have hnew : Frontier next goal ((next v).reverse ++ stack) (v :: visited) := by
          intro u hu
          rcases mem_cons.mp hu with rfl | hu
          · refine ⟨hgoal, fun w hw => Or.inr ?_⟩
            exact mem_append_left _ (mem_reverse.mpr hw)
          · refine ⟨(hfrontier u hu).1, fun w hw => ?_⟩
            rcases (hfrontier u hu).2 w hw with hw | hw
            · exact Or.inl (mem_cons_of_mem v hw)
            · rcases mem_cons.mp hw with rfl | hw
              · exact Or.inl mem_cons_self
              · exact Or.inr (mem_append_right _ hw)
        rintro w (hw | hw)
        · exact ih hnew h w (Or.inl (mem_cons_of_mem v hw))
        · rcases mem_cons.mp hw with rfl | hw
          · exact ih hnew h w (Or.inl mem_cons_self)
          · exact ih hnew h w (Or.inr (mem_append_right _ hw))

/-- The edges that leave the vertices not yet visited. -/
def unwalked (next : α → List α) (vertices visited : List α) : Nat :=
  ((vertices.filter fun v => v ∉ visited).map fun v => (next v).length).sum

theorem unwalked_cons (vertices : List α) {v : α} (hv : v ∉ visited)
    (hmem : v ∈ vertices ∨ next v = []) :
    (next v).length + unwalked next vertices (v :: visited) ≤ unwalked next vertices visited := by
  induction vertices with
  | nil =>
    rcases hmem with hmem | hnil
    · exact absurd hmem not_mem_nil
    · simp [unwalked, hnil]
  | cons u vertices ih =>
    unfold unwalked at ih ⊢
    by_cases huv : u = v
    · subst huv
      have hrest : ((vertices.filter fun w => w ∉ u :: visited).map fun w => (next w).length).sum ≤
          ((vertices.filter fun w => w ∉ visited).map fun w => (next w).length).sum := by
        refine Sublist.sum_le_sum (Sublist.map _ ?_) fun _ _ => Nat.zero_le _
        refine monotone_filter_right vertices fun w hw => ?_
        simp only [mem_cons, not_or, decide_eq_true_eq] at hw ⊢
        exact hw.2
      rw [filter_cons_of_neg (by simp), filter_cons_of_pos (by simpa using hv)]
      rw [map_cons, sum_cons]
      omega
    · have hmem' : v ∈ vertices ∨ next v = [] := by
        rcases hmem with hmem | hnil
        · rcases mem_cons.mp hmem with rfl | hmem
          · exact absurd rfl huv
          · exact Or.inl hmem
        · exact Or.inr hnil
      have hrest := ih hmem'
      by_cases hu : u ∈ visited
      · rw [filter_cons_of_neg (by simp [hu]), filter_cons_of_neg (by simpa using hu)]
        exact hrest
      · rw [filter_cons_of_pos (by simp [hu, huv]),
          filter_cons_of_pos (by simpa using hu)]
        rw [map_cons, sum_cons, map_cons, sum_cons]
        omega

theorem search_returns {vertices : List α} (hvertices : ∀ v, v ∉ vertices → next v = [])
    (hfuel : stack.length + unwalked next vertices visited < fuel) :
    ∃ found, search next goal fuel stack visited = some found := by
  induction fuel generalizing stack visited with
  | zero => omega
  | succ fuel ih =>
    cases stack with
    | nil => exact ⟨false, rfl⟩
    | cons v stack =>
      rw [length_cons] at hfuel
      unfold search
      split_ifs with hgoal hvisited
      · exact ⟨true, rfl⟩
      · apply ih
        omega
      · have hmem : v ∈ vertices ∨ next v = [] := by
          by_cases hv : v ∈ vertices
          · exact Or.inl hv
          · exact Or.inr (hvertices v hv)
        have hwalked := unwalked_cons vertices hvisited hmem
        apply ih
        rw [length_append, length_reverse]
        omega

theorem search_iff {v : α} {found : Bool} (h : search next goal fuel [v] [] = some found) :
    found = true ↔ ReflTransGen (fun a b => b ∈ next a) v goal := by
  constructor
  · rintro rfl
    obtain ⟨w, hw, hreach⟩ := search_sound h
    rw [mem_singleton.mp hw] at hreach
    exact hreach
  · intro hreach
    cases found with
    | true => rfl
    | false =>
      have hfrontier : Frontier next goal [v] [] := fun u hu => absurd hu not_mem_nil
      exact absurd hreach (search_complete hfrontier h v (Or.inr mem_cons_self))

end Search

end CrabbyKit.Search
