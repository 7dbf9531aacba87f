import CrabbyKit.Compaction.Hook

/-!
# What pruning keeps

The walk of `pruneToolOutputs` keeps every tool result that still fits when its turn comes.
It keeps a newest suffix exactly when nothing older fits into what the suffix leaves.
-/

namespace CrabbyKit.Compaction

open List

/-- The indices of the tool results that stay as they are. -/
def kept (messages : List AgentMessage) (budgetTokens : Nat) : List Nat :=
  keepSet (toolIndices messages) budgetTokens

def totalTokens (results : List (Nat × Nat)) : Nat := (results.map Prod.snd).sum

/-- How many of the newest results fit together. -/
def fitting : List (Nat × Nat) → Nat → Nat
  | [], _ => 0
  | (_, tokens) :: rest, budget => if tokens ≤ budget then fitting rest (budget - tokens) + 1 else 0

/-- Two blocks that differ in their text at most. -/
def SameButText (a b : ContentBlock) : Prop :=
  a = b ∨ ∃ before after, a = .text before ∧ b = .text after

/-- Two messages that differ in the text of their content at most. -/
def TextOnly (a b : AgentMessage) : Prop :=
  (∃ content, b = { a with content := content }) ∧
    ((∃ before after, a.content = .plain before ∧ b.content = .plain after) ∨
      ∃ before after, a.content = .blocks before ∧ b.content = .blocks after ∧
        List.Forall₂ SameButText before after)

/-- Pruning keeps a newest suffix of the tool results: the longest one that fits, with every
older one replaced by the marker and nothing else changed. -/
structure KeepsNewestSuffix (messages : List AgentMessage) (budgetTokens : Nat) : Prop where
  sameLength : (pruneToolOutputs messages budgetTokens).length = messages.length
  unchanged : ∀ (i : Nat) (m : AgentMessage), messages[i]? = some m →
    isToolResult m = false ∨ i ∈ kept messages budgetTokens →
      (pruneToolOutputs messages budgetTokens)[i]? = some m
  replaced : ∀ (i : Nat) (m : AgentMessage), messages[i]? = some m → isToolResult m = true →
    i ∉ kept messages budgetTokens →
      (pruneToolOutputs messages budgetTokens)[i]? = some (pruneMessage m) ∧
        TextOnly m (pruneMessage m)
  suffix : ∃ k ≤ (toolIndices messages).length,
    kept messages budgetTokens = ((toolIndices messages).take k).map Prod.fst ∧
      totalTokens ((toolIndices messages).take k) ≤ budgetTokens ∧
      ∀ more, k < more → more ≤ (toolIndices messages).length →
        budgetTokens < totalTokens ((toolIndices messages).take more)

/-- No result older than the newest ones that fit together fits into what they leave. -/
def NoneFits (messages : List AgentMessage) (budgetTokens : Nat) : Prop :=
  let newest := fitting (toolIndices messages) budgetTokens
  ∀ older ∈ (toolIndices messages).drop newest,
    budgetTokens < totalTokens ((toolIndices messages).take newest) + older.2

instance (messages : List AgentMessage) (budgetTokens : Nat) :
    Decidable (NoneFits messages budgetTokens) :=
  inferInstanceAs (Decidable (∀ older ∈ (toolIndices messages).drop
    (fitting (toolIndices messages) budgetTokens), _ < _))

section Walk

variable {results : List (Nat × Nat)} {budget : Nat}

theorem fitting_le (results : List (Nat × Nat)) (budget : Nat) :
    fitting results budget ≤ results.length := by
  fun_induction fitting results budget with
  | case1 => exact Nat.le_refl 0
  | case2 budget index tokens rest hfits ih => exact Nat.succ_le_succ ih
  | case3 budget index tokens rest hlarge => exact Nat.zero_le _

theorem totalTokens_fitting (results : List (Nat × Nat)) (budget : Nat) :
    totalTokens (results.take (fitting results budget)) ≤ budget := by
  fun_induction fitting results budget with
  | case1 => exact Nat.zero_le _
  | case2 budget index tokens rest hfits ih =>
    simp only [take_succ_cons, totalTokens, map_cons, sum_cons] at ih ⊢
    omega
  | case3 budget index tokens rest hlarge => exact Nat.zero_le _

theorem lt_totalTokens_of_fitting_lt {more : Nat} (hmore : fitting results budget < more)
    (hlength : more ≤ results.length) : budget < totalTokens (results.take more) := by
  fun_induction fitting results budget generalizing more with
  | case1 =>
    exact absurd hlength (Nat.not_le_of_lt hmore)
  | case2 budget index tokens rest hfits ih =>
    obtain ⟨more, rfl⟩ := Nat.exists_eq_succ_of_ne_zero (Nat.ne_zero_of_lt hmore)
    have hrest := ih (Nat.lt_of_succ_lt_succ hmore) (Nat.le_of_succ_le_succ hlength)
    simp only [take_succ_cons, totalTokens, map_cons, sum_cons] at hrest ⊢
    omega
  | case3 budget index tokens rest hlarge =>
    obtain ⟨more, rfl⟩ := Nat.exists_eq_succ_of_ne_zero (Nat.ne_zero_of_lt hmore)
    simp only [take_succ_cons, totalTokens, map_cons, sum_cons]
    omega

theorem fitting_mono {larger : Nat} (h : budget ≤ larger) :
    fitting results budget ≤ fitting results larger := by
  by_contra hlt
  have hlarge := lt_totalTokens_of_fitting_lt (Nat.lt_of_not_le hlt) (fitting_le results budget)
  exact absurd (hlarge.trans_le (totalTokens_fitting results budget)) (Nat.not_lt_of_le h)

theorem keepSet_eq (results : List (Nat × Nat)) (budget : Nat) :
    keepSet results budget = (results.take (fitting results budget)).map Prod.fst ++
      keepSet (results.drop (fitting results budget))
        (budget - totalTokens (results.take (fitting results budget))) := by
  fun_induction fitting results budget with
  | case1 => rfl
  | case2 budget index tokens rest hfits ih =>
    simp only [keepSet, if_pos hfits, take_succ_cons, map_cons, drop_succ_cons,
      cons_append, totalTokens, sum_cons] at ih ⊢
    rw [ih, Nat.sub_sub]
  | case3 budget index tokens rest hlarge => rfl

theorem keepSet_eq_nil_iff (results : List (Nat × Nat)) (budget : Nat) :
    keepSet results budget = [] ↔ ∀ older ∈ results, budget < older.2 := by
  induction results with
  | nil => exact iff_of_true rfl fun _ h => (not_mem_nil h).elim
  | cons result rest ih =>
    obtain ⟨index, tokens⟩ := result
    simp only [keepSet, forall_mem_cons]
    split_ifs with hfits
    · exact iff_of_false not_false fun h => absurd h.1 (Nat.not_lt_of_le hfits)
    · rw [ih]
      exact ⟨fun h => ⟨Nat.lt_of_not_le hfits, h⟩, fun h => h.2⟩

end Walk

section Law

variable {messages : List AgentMessage} {budgetTokens : Nat}

theorem pruneMessage_textOnly (m : AgentMessage) : TextOnly m (pruneMessage m) := by
  refine ⟨⟨_, rfl⟩, ?_⟩
  unfold pruneMessage
  cases m.content with
  | plain text => exact .inl ⟨text, prunedMarker, rfl, rfl⟩
  | blocks blocks =>
    refine .inr ⟨blocks, blocks.map pruneBlock, rfl, rfl, ?_⟩
    rw [forall₂_map_right_iff, forall₂_same]
    intro block _
    cases block with
    | text text => exact .inr ⟨text, prunedMarker, rfl, rfl⟩
    | image data mimeType => exact .inl rfl
    | thinking thinking => exact .inl rfl
    | toolCall id name arguments => exact .inl rfl

theorem getElem?_pruneToolOutputs {i : Nat} {m : AgentMessage} (h : messages[i]? = some m) :
    (pruneToolOutputs messages budgetTokens)[i]? =
      some (if isToolResult m && !(kept messages budgetTokens).contains i then pruneMessage m
        else m) := by
  simp only [pruneToolOutputs, getElem?_mapIdx, h, Option.map_some]
  rfl

theorem kept_eq_iff :
    kept messages budgetTokens = ((toolIndices messages).take
        (fitting (toolIndices messages) budgetTokens)).map Prod.fst ↔
      NoneFits messages budgetTokens := by
  have htotal := totalTokens_fitting (toolIndices messages) budgetTokens
  rw [kept, keepSet_eq, append_right_eq_self, keepSet_eq_nil_iff]
  constructor
  · intro h older holder
    have hlarge := h older holder
    omega
  · intro h older holder
    have hlarge := h older holder
    omega

theorem keepsNewestSuffix_iff :
    KeepsNewestSuffix messages budgetTokens ↔ NoneFits messages budgetTokens := by
  rw [← kept_eq_iff]
  constructor
  · intro h
    obtain ⟨k, hk, hkept, hfits, hlongest⟩ := h.suffix
    have hle : k ≤ fitting (toolIndices messages) budgetTokens := by
      by_contra hlt
      exact absurd (lt_totalTokens_of_fitting_lt (Nat.lt_of_not_le hlt) hk) (Nat.not_lt_of_le hfits)
    have hge : fitting (toolIndices messages) budgetTokens ≤ k := by
      by_contra hlt
      have hlarge := hlongest _ (Nat.lt_of_not_le hlt) (fitting_le _ _)
      exact absurd (totalTokens_fitting _ _) (Nat.not_le_of_lt hlarge)
    rw [hkept, Nat.le_antisymm hle hge]
  · intro h
    refine ⟨length_pruneToolOutputs messages budgetTokens, fun i m hm hcase => ?_,
      fun i m hm htool hnot => ⟨?_, pruneMessage_textOnly m⟩,
      _, fitting_le _ _, h, totalTokens_fitting _ _, fun more => lt_totalTokens_of_fitting_lt⟩
    · rw [getElem?_pruneToolOutputs hm]
      rcases hcase with hother | hmem
      · rw [hother, Bool.false_and, if_neg Bool.false_ne_true]
      · rw [contains_iff_mem.mpr hmem, Bool.not_true, Bool.and_false, if_neg Bool.false_ne_true]
    · have hcontains : (kept messages budgetTokens).contains i = false := by
        rw [← Bool.not_eq_true, contains_iff_mem]
        exact hnot
      rw [getElem?_pruneToolOutputs hm, htool, hcontains]
      rfl

/-- Pruning keeps a newest suffix under two budgets, the larger one with all that the smaller
one keeps, exactly when under neither budget anything older fits. -/
theorem pruning_iff {larger : Nat} (h : budgetTokens ≤ larger) :
    (KeepsNewestSuffix messages budgetTokens ∧ KeepsNewestSuffix messages larger ∧
        ∀ i ∈ kept messages budgetTokens, i ∈ kept messages larger) ↔
      NoneFits messages budgetTokens ∧ NoneFits messages larger := by
  simp only [keepsNewestSuffix_iff]
  constructor
  · rintro ⟨hsmall, hlarge, -⟩
    exact ⟨hsmall, hlarge⟩
  · rintro ⟨hsmall, hlarge⟩
    refine ⟨hsmall, hlarge, fun i hi => ?_⟩
    rw [kept_eq_iff.mpr hsmall] at hi
    rw [kept_eq_iff.mpr hlarge]
    have hfront : (toolIndices messages).take (fitting (toolIndices messages) budgetTokens) <+:
        (toolIndices messages).take (fitting (toolIndices messages) larger) :=
      take_prefix_take_left (fitting_mono h)
    exact (hfront.map Prod.fst).subset hi

end Law

/-- An old result of one token and a new one of ten. -/
def smallThenLarge : List AgentMessage :=
  [ { role := .toolResult, content := .plain "ok", timestamp := 1, toolCallId := some "call-1" },
    { role := .toolResult, content := .plain "0123456789012345678901234567890123", timestamp := 2,
      toolCallId := some "call-2" } ]

/-- With five tokens the old one is kept and the new one is not; with ten it is the other way
round. -/
theorem smallThenLarge_not_suffix :
    kept smallThenLarge 5 = [0] ∧ kept smallThenLarge 10 = [1] ∧
      ¬ KeepsNewestSuffix smallThenLarge 5 := by
  refine ⟨by decide, by decide, fun h => ?_⟩
  have hnone := keepsNewestSuffix_iff.mp h (0, 1) (by decide)
  exact absurd hnone (by decide)

theorem pruning_iff_smallThenLarge :
    KeepsNewestSuffix smallThenLarge 10 ∧ KeepsNewestSuffix smallThenLarge 11 ∧
      ∀ i ∈ kept smallThenLarge 10, i ∈ kept smallThenLarge 11 := by
  apply (pruning_iff (Nat.le_succ 10)).mpr
  decide

end CrabbyKit.Compaction
