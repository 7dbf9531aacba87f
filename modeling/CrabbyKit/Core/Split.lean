import Mathlib.Data.List.Infix

/-!
# Splitting and joining lists

What the pieces of a split list have, and what comes of joining pieces.
-/

namespace CrabbyKit

open List

theorem eq_false_of_mem_splitOnP {α : Type*} {p : α → Bool} {xs piece : List α} {x : α}
    (hpiece : piece ∈ xs.splitOnP p) (hx : x ∈ piece) : p x = false := by
  induction xs generalizing piece with
  | nil =>
    rw [splitOnP_nil, mem_singleton] at hpiece
    rw [hpiece] at hx
    cases hx
  | cons y xs ih =>
    rw [splitOnP_cons_eq_if_modifyHead] at hpiece
    by_cases hy : p y = true
    · rw [if_pos hy, mem_cons] at hpiece
      rcases hpiece with rfl | hrest
      · cases hx
      · exact ih hrest hx
    · rw [if_neg hy] at hpiece
      obtain ⟨head, tail, hsplit⟩ := exists_cons_of_ne_nil (splitOnP_ne_nil p xs)
      rw [hsplit, modifyHead_cons, mem_cons] at hpiece
      rcases hpiece with rfl | htail
      · rcases mem_cons.mp hx with rfl | hhead
        · exact eq_false_of_ne_true hy
        · exact ih (by rw [hsplit]; exact mem_cons_self) hhead
      · exact ih (by rw [hsplit]; exact mem_cons_of_mem _ htail) hx

theorem notMem_of_mem_splitOn {α : Type*} [BEq α] [LawfulBEq α] {sep : α} {xs piece : List α}
    (hpiece : piece ∈ xs.splitOn sep) : sep ∉ piece := by
  intro hx
  rw [splitOn_eq_splitOnP] at hpiece
  exact absurd (eq_false_of_mem_splitOnP hpiece hx) (by simp)

theorem exists_intercalate_eq {α : Type*} {sep : List α} {ls : List (List α)} {l : List α}
    (mem : l ∈ ls) : ∃ before after, sep.intercalate ls = before ++ (l ++ after) := by
  induction ls with
  | nil => cases mem
  | cons first ls ih =>
    cases ls with
    | nil =>
      rw [mem_singleton.mp mem, intercalate_singleton]
      exact ⟨[], [], by rw [append_nil, nil_append]⟩
    | cons next ls =>
      rw [intercalate_cons_cons]
      rcases mem_cons.mp mem with rfl | later
      · exact ⟨[], sep ++ sep.intercalate (next :: ls), List.append_assoc _ _ _⟩
      · obtain ⟨before, after, h⟩ := ih later
        exact ⟨first ++ sep ++ before, after, by rw [h, List.append_assoc _ before]⟩

theorem mem_intercalate {α : Type*} {sep : List α} {ls : List (List α)} {a : α} {l : List α}
    (mem : l ∈ ls) (h : a ∈ l) : a ∈ sep.intercalate ls := by
  obtain ⟨before, after, joined⟩ := exists_intercalate_eq mem
  rw [joined]
  exact mem_append_right _ (mem_append_left _ h)

theorem mem_of_mem_intercalate {α : Type*} {sep : List α} {ls : List (List α)} {a : α}
    (h : a ∈ sep.intercalate ls) : a ∈ sep ∨ ∃ l ∈ ls, a ∈ l := by
  induction ls with
  | nil => cases h
  | cons first ls ih =>
    cases ls with
    | nil =>
      rw [intercalate_singleton] at h
      exact .inr ⟨first, mem_singleton_self _, h⟩
    | cons next ls =>
      rw [intercalate_cons_cons] at h
      rcases mem_append.mp h with front | later
      · rcases mem_append.mp front with here | between
        · exact .inr ⟨first, mem_cons_self, here⟩
        · exact .inl between
      · rcases ih later with between | ⟨l, mem, inside⟩
        · exact .inl between
        · exact .inr ⟨l, mem_cons_of_mem _ mem, inside⟩

end CrabbyKit

/-!
# Occurrences of a text in a text

`indexOf`, `split` and a loop that counts occurrences by `indexOf`. All of them find the leftmost
occurrences that do not overlap, for which a text falls into pieces in one way; the loop does not
return on the empty pattern.
-/

namespace CrabbyKit.Occurrences

variable {α : Type*} [DecidableEq α]

def firstIndex (pattern : List α) : List α → Option Nat
  | [] => if pattern = [] then some 0 else none
  | a :: text =>
    if pattern.isPrefixOf (a :: text) then some 0 else (firstIndex pattern text).map (· + 1)

/-- `text.indexOf(pattern, position)` -/
def indexOf (pattern text : List α) (position : Nat) : Option Nat :=
  let start := min position text.length
  (firstIndex pattern (text.drop start)).map (start + ·)

/-- Count and search on behind the occurrence, until there is none; absent without fuel. -/
def countLoop (pattern text : List α) : Nat → Option Nat → Nat → Option Nat
  | 0, _, _ => none
  | _ + 1, none, count => some count
  | fuel + 1, some index, count =>
    countLoop pattern text fuel (indexOf pattern text (index + pattern.length)) (count + 1)

/-- The loop from the first occurrence on. -/
def count (fuel : Nat) (pattern text : List α) : Option Nat :=
  countLoop pattern text fuel (indexOf pattern text 0) 0

/-- The pieces of a text, with fuel for its occurrences. -/
def splitLoop (pattern : List α) : Nat → List α → List (List α)
  | 0, text => [text]
  | fuel + 1, text =>
    match firstIndex pattern text with
    | none => [text]
    | some i => text.take i :: splitLoop pattern fuel (text.drop (i + pattern.length))

/-- `text.split(pattern)` for a pattern that is not empty. -/
def split (pattern text : List α) : List (List α) := splitLoop pattern text.length text

/-- A text is cut at its leftmost occurrences that do not overlap. -/
inductive Leftmost (pattern : List α) : List α → List (List α) → Prop
  | last {text : List α} (none : ¬ pattern <:+: text) : Leftmost pattern text [text]
  | next {before after : List α} {pieces : List (List α)}
      (first : ∀ j < before.length, ¬ pattern <+: (before ++ pattern ++ after).drop j)
      (later : Leftmost pattern after pieces) :
      Leftmost pattern (before ++ pattern ++ after) (before :: pieces)

variable {pattern text : List α}

theorem firstIndex_eq_none_iff : firstIndex pattern text = none ↔ ¬ pattern <:+: text := by
  induction text with
  | nil =>
    rw [firstIndex, List.infix_nil]
    split <;> simp [*]
  | cons a text ih =>
    rw [firstIndex, List.infix_cons_iff, not_or, ← ih]
    split
    · next here => simp [List.isPrefixOf_iff_prefix.mp here]
    · next other =>
      rw [List.isPrefixOf_iff_prefix] at other
      simp [other]

theorem firstIndex_eq_some_iff {i : Nat} :
    firstIndex pattern text = some i ↔ i ≤ text.length ∧ pattern <+: text.drop i ∧
      ∀ j < i, ¬ pattern <+: text.drop j := by
  induction text generalizing i with
  | nil =>
    rw [firstIndex, List.drop_nil, List.prefix_nil]
    split
    · next empty =>
      constructor
      · rintro ⟨⟩
        exact ⟨le_rfl, empty, fun j small => absurd small (Nat.not_lt_zero j)⟩
      · rintro ⟨bound, -, -⟩
        rw [Nat.le_zero.mp bound]
    · next filled => simp [filled]
  | cons a text ih =>
    rw [firstIndex]
    split
    · next here =>
      rw [List.isPrefixOf_iff_prefix] at here
      constructor
      · rintro ⟨⟩
        exact ⟨Nat.zero_le _, here, fun j small => absurd small (Nat.not_lt_zero j)⟩
      · rintro ⟨-, -, first⟩
        cases i with
        | zero => rfl
        | succ i => exact absurd here (first 0 (Nat.succ_pos i))
    · next other =>
      rw [List.isPrefixOf_iff_prefix] at other
      cases i with
      | zero => simp [other]
      | succ i =>
        rw [Option.map_eq_some_iff]
        constructor
        · rintro ⟨k, found, same⟩
          obtain rfl := Nat.succ.inj same
          obtain ⟨bound, here, first⟩ := ih.mp found
          refine ⟨Nat.succ_le_succ bound, here, fun j small => ?_⟩
          cases j with
          | zero => exact other
          | succ j => exact first j (Nat.lt_of_succ_lt_succ small)
        · rintro ⟨bound, here, first⟩
          refine ⟨i, ih.mpr ⟨Nat.le_of_succ_le_succ bound, here, fun j small => ?_⟩, rfl⟩
          exact first (j + 1) (Nat.succ_lt_succ small)

theorem eq_append_of_firstIndex {i : Nat} (h : firstIndex pattern text = some i) :
    text = text.take i ++ pattern ++ text.drop (i + pattern.length) ∧ (text.take i).length = i := by
  obtain ⟨bound, ⟨after, here⟩, -⟩ := firstIndex_eq_some_iff.mp h
  have rest : text.drop (i + pattern.length) = after := by
    rw [← List.drop_drop, ← here, List.drop_left]
  refine ⟨?_, by rw [List.length_take]; omega⟩
  rw [rest, List.append_assoc, here, List.take_append_drop]

theorem firstIndex_of_first {before after : List α}
    (first : ∀ j < before.length, ¬ pattern <+: (before ++ pattern ++ after).drop j) :
    firstIndex pattern (before ++ pattern ++ after) = some before.length := by
  refine firstIndex_eq_some_iff.mpr ⟨by simp, ?_, first⟩
  rw [List.append_assoc, List.drop_left]
  exact List.prefix_append _ _

/-- The pieces of `split` are cut at the leftmost occurrences. -/
theorem leftmost_splitLoop (filled : pattern ≠ []) (fuel : Nat) :
    ∀ text : List α, text.length ≤ fuel → Leftmost pattern text (splitLoop pattern fuel text) := by
  have positive := List.length_pos_iff.mpr filled
  induction fuel with
  | zero =>
    intro text short
    obtain rfl := List.length_eq_zero_iff.mp (Nat.le_zero.mp short)
    exact .last fun inside => filled (List.infix_nil.mp inside)
  | succ fuel ih =>
    intro text short
    rw [splitLoop]
    cases found : firstIndex pattern text with
    | none => exact .last (firstIndex_eq_none_iff.mp found)
    | some i =>
      obtain ⟨cut, length⟩ := eq_append_of_firstIndex found
      have first := (firstIndex_eq_some_iff.mp found).2.2
      have shorter : (text.drop (i + pattern.length)).length ≤ fuel := by
        rw [List.length_drop]
        omega
      have pieces := @Leftmost.next _ pattern (text.take i) _ _ ?_ (ih _ shorter)
      · rwa [← cut] at pieces
      · rw [← cut, length]
        exact first

theorem leftmost_split (filled : pattern ≠ []) (text : List α) :
    Leftmost pattern text (split pattern text) := leftmost_splitLoop filled _ _ le_rfl

variable {pieces : List (List α)}

/-- The pieces are those of `split`. -/
theorem Leftmost.eq_splitLoop
    (h : Leftmost pattern text pieces) (filled : pattern ≠ []) (fuel : Nat)
    (enough : text.length ≤ fuel) : splitLoop pattern fuel text = pieces := by
  have positive := List.length_pos_iff.mpr filled
  induction h generalizing fuel with
  | last none =>
    cases fuel with
    | zero => rfl
    | succ fuel => rw [splitLoop, firstIndex_eq_none_iff.mpr none]
  | @next before after pieces first later ih =>
    rw [List.length_append, List.length_append] at enough
    cases fuel with
    | zero => omega
    | succ fuel =>
      rw [splitLoop, firstIndex_of_first first]
      simp only
      rw [List.append_assoc, List.take_left, ← List.append_assoc, ← List.length_append,
        List.drop_left, ih fuel (by omega)]

theorem Leftmost.unique {others : List (List α)}
    (filled : pattern ≠ []) (h : Leftmost pattern text pieces) (h' : Leftmost pattern text others) :
    pieces = others := by
  rw [← h.eq_splitLoop filled _ le_rfl, h'.eq_splitLoop filled _ le_rfl]

omit [DecidableEq α] in
theorem Leftmost.length_pos (h : Leftmost pattern text pieces) : 0 < pieces.length := by
  cases h <;> simp

theorem indexOf_of_le {position : Nat} (h : position ≤ text.length) :
    indexOf pattern text position =
      (firstIndex pattern (text.drop position)).map (position + ·) := by
  rw [indexOf, Nat.min_eq_left h]

theorem countLoop_eq {rest : List α} (h : Leftmost pattern rest pieces) {position : Nat}
    (bound : position ≤ text.length) (at_position : text.drop position = rest) (counted : Nat)
    {fuel : Nat} (enough : pieces.length ≤ fuel) :
    countLoop pattern text fuel (indexOf pattern text position) counted =
      some (counted + (pieces.length - 1)) := by
  induction h generalizing position counted fuel with
  | last none =>
    cases fuel with
    | zero => cases enough
    | succ fuel =>
      rw [indexOf_of_le bound, at_position, firstIndex_eq_none_iff.mpr none]
      rfl
  | @next before after pieces first later ih =>
    cases fuel with
    | zero => cases enough
    | succ fuel =>
      have length := congrArg List.length at_position
      simp only [List.length_drop, List.length_append] at length
      have moved : text.drop (position + before.length + pattern.length) = after := by
        rw [Nat.add_assoc, ← List.drop_drop, at_position, ← List.length_append, List.drop_left]
      have nonempty := later.length_pos
      rw [indexOf_of_le bound, at_position, firstIndex_of_first first, Option.map_some, countLoop,
        ih (by omega) moved (counted + 1) (Nat.le_of_succ_le_succ enough), List.length_cons]
      congr 1
      omega

theorem count_eq (h : Leftmost pattern text pieces) {fuel : Nat} (enough : pieces.length ≤ fuel) :
    count fuel pattern text = some (pieces.length - 1) := by
  rw [count, countLoop_eq h (Nat.zero_le _) rfl 0 enough, Nat.zero_add]

theorem countLoop_mono {fuel : Nat} {index : Option Nat}
    {counted total : Nat} (h : countLoop pattern text fuel index counted = some total) :
    ∀ more, fuel ≤ more → countLoop pattern text more index counted = some total := by
  induction fuel generalizing index counted with
  | zero => cases h
  | succ fuel ih =>
    intro more enough
    obtain ⟨more, rfl⟩ := Nat.exists_eq_succ_of_ne_zero (Nat.ne_zero_of_lt enough)
    cases index with
    | none => exact h
    | some index => exact ih h more (Nat.le_of_succ_le_succ enough)

theorem eq_of_count (h : Leftmost pattern text pieces) {fuel total : Nat}
    (counted : count fuel pattern text = some total) : total = pieces.length - 1 := by
  have more := countLoop_mono counted (max fuel pieces.length) (le_max_left _ _)
  have exact_count := count_eq h (le_max_right fuel pieces.length)
  rw [count] at exact_count
  exact Option.some.inj (more.symm.trans exact_count)

theorem count_nil (fuel : Nat) (text : List α) : count fuel [] text = none := by
  have found (position : Nat) : ∃ index, indexOf [] text position = some index := by
    rw [indexOf]
    cases text.drop (min position text.length) with
    | nil => exact ⟨_, rfl⟩
    | cons a rest => exact ⟨_, rfl⟩
  have runs (position counted : Nat) : ∀ fuel,
      countLoop [] text fuel (indexOf [] text position) counted = none := by
    intro fuel
    induction fuel generalizing position counted with
    | zero => rfl
    | succ fuel ih =>
      obtain ⟨index, here⟩ := found position
      rw [here, countLoop]
      exact ih _ _
  exact runs 0 0 fuel

end CrabbyKit.Occurrences
