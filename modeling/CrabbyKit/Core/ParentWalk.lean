import Mathlib.Data.List.Sublists

/-!
# Walks along a partial successor

A node either has one successor or ends the walk. The relation `Chain` is the
terminating loop itself; `walk` and `search` run it with fuel and report fuel
exhaustion as `none`. A rank that falls along every successor gives termination,
and the nodes of such a walk are pairwise different.
-/

namespace CrabbyKit.ParentWalk

open List

variable {α β : Type*} {next next' : α → Option α}

/-- The nodes of a terminating walk from an optional start, in visiting order. -/
inductive Chain (next : α → Option α) : Option α → List α → Prop
  | nil : Chain next none []
  | cons {a xs} : Chain next (next a) xs → Chain next (some a) (a :: xs)

/-- Collect the visited nodes; `none` reports that the fuel ran out first. -/
def walk (next : α → Option α) : Nat → Option α → Option (List α)
  | _, none => some []
  | 0, some _ => none
  | fuel + 1, some a => (walk next fuel (next a)).map (a :: ·)

/-- Stop at the first node that answers; `none` reports that the fuel ran out first. -/
def search (next : α → Option α) (answer : α → Option β) : Nat → Option α → Option (Option β)
  | _, none => some none
  | 0, some _ => none
  | fuel + 1, some a =>
    match answer a with
    | some b => some (some b)
    | none => search next answer fuel (next a)

variable {start : Option α} {xs : List α}

theorem Chain.walk_eq (h : Chain next start xs)
    {fuel : Nat} (hf : xs.length ≤ fuel) : walk next fuel start = some xs := by
  induction h generalizing fuel with
  | nil => cases fuel <;> rfl
  | @cons a xs _ ih =>
    cases fuel with
    | zero => simp at hf
    | succ fuel =>
      rw [walk, ih (by simpa using hf)]
      rfl

theorem chain_of_walk {fuel : Nat} (h : walk next fuel start = some xs) : Chain next start xs := by
  induction fuel generalizing start xs with
  | zero =>
    cases start with
    | none => cases h; exact .nil
    | some a => cases h
  | succ fuel ih =>
    cases start with
    | none => cases h; exact .nil
    | some a =>
      obtain ⟨ys, hys, rfl⟩ := Option.map_eq_some_iff.mp h
      exact .cons (ih hys)

theorem Chain.search_eq {answer : α → Option β}
    (h : Chain next start xs) {fuel : Nat} (hf : xs.length ≤ fuel) :
    search next answer fuel start = some (xs.findSome? answer) := by
  induction h generalizing fuel with
  | nil => cases fuel <;> rfl
  | @cons a xs _ ih =>
    cases fuel with
    | zero => simp at hf
    | succ fuel =>
      rw [search, findSome?_cons]
      cases answer a with
      | some b => rfl
      | none => exact ih (by simpa using hf)

theorem Chain.congr (h : Chain next start xs)
    (hn : ∀ a ∈ xs, next' a = next a) : Chain next' start xs := by
  induction h with
  | nil => exact .nil
  | @cons a xs _ ih =>
    refine .cons ?_
    rw [hn a mem_cons_self]
    exact ih fun b hb => hn b (mem_cons_of_mem a hb)

theorem Chain.forall_mem {P : α → Prop} (hnext : ∀ a, P a → ∀ b, next a = some b → P b)
    (h : Chain next start xs) (hs : ∀ a, start = some a → P a) : ∀ a ∈ xs, P a := by
  induction h with
  | nil => simp
  | @cons a xs _ ih =>
    have ha : P a := hs a rfl
    intro b hb
    rcases mem_cons.mp hb with rfl | hb
    · exact ha
    · exact ih (hnext a ha) b hb

theorem Chain.start_mem {a : α} (h : Chain next (some a) xs) : a ∈ xs := by
  cases h with
  | cons _ => exact mem_cons_self

theorem Chain.next_mem (h : Chain next start xs) {a b : α}
    (ha : a ∈ xs) (hb : next a = some b) : b ∈ xs := by
  induction h with
  | nil => simp at ha
  | @cons c xs htail ih =>
    rcases mem_cons.mp ha with rfl | ha
    · rw [hb] at htail
      exact mem_cons_of_mem a htail.start_mem
    · exact mem_cons_of_mem c (ih ha)

section Ranked

variable {P : α → Prop} {rank : α → Nat}

theorem exists_chain (hnext : ∀ a, P a → ∀ b, next a = some b → P b ∧ rank b < rank a)
    (start : Option α) (hs : ∀ a, start = some a → P a) : ∃ xs, Chain next start xs := by
  have hnode : ∀ n a, rank a < n → P a → ∃ xs, Chain next (some a) xs := by
    intro n
    induction n with
    | zero => intro a ha; omega
    | succ n ih =>
      intro a ha hP
      cases he : next a with
      | none => exact ⟨[a], .cons (he ▸ .nil)⟩
      | some b =>
        obtain ⟨hb, hlt⟩ := hnext a hP b he
        obtain ⟨xs, hxs⟩ := ih b (by omega) hb
        exact ⟨a :: xs, .cons (he ▸ hxs)⟩
  cases start with
  | none => exact ⟨[], .nil⟩
  | some a => exact hnode (rank a + 1) a (Nat.lt_succ_self _) (hs a rfl)

theorem Chain.pairwise_rank (hnext : ∀ a, P a → ∀ b, next a = some b → P b ∧ rank b < rank a)
    {start : Option α} {xs : List α} (h : Chain next start xs) (hs : ∀ a, start = some a → P a) :
    xs.Pairwise fun a b => rank b < rank a := by
  induction h with
  | nil => exact .nil
  | @cons a xs htail ih =>
    have ha : P a := hs a rfl
    have htl := ih fun b hb => (hnext a ha b hb).1
    refine pairwise_cons.mpr ⟨?_, htl⟩
    cases he : next a with
    | none =>
      rw [he] at htail
      cases htail
      simp
    | some b =>
      rw [he] at htail
      cases htail with
      | cons htail =>
        have hlt := (hnext a ha b he).2
        intro c hc
        rcases mem_cons.mp hc with rfl | hc
        · exact hlt
        · exact ((pairwise_cons.mp htl).1 c hc).trans hlt

theorem Chain.nodup (hnext : ∀ a, P a → ∀ b, next a = some b → P b ∧ rank b < rank a)
    {start : Option α} {xs : List α} (h : Chain next start xs) (hs : ∀ a, start = some a → P a) :
    xs.Nodup :=
  (h.pairwise_rank hnext hs).imp fun hlt he => by rw [he] at hlt; exact lt_irrefl _ hlt

end Ranked

end CrabbyKit.ParentWalk
