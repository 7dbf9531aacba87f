import Mathlib.Data.List.Count

/-!
# Asks and their answers

A log of asks, each for several keys, and of answers to single keys. A log is paired when
directly behind every ask each of its keys is answered once and nothing else is. `mend`
supplies, where the next ask comes, the answers that are still missing.
-/

namespace CrabbyKit

open List

variable {ι : Type*}

/-- An entry of a log; `cut` is an ask that is taken out of the log. -/
inductive Entry (ι : Type*)
  | ask (keys : List ι)
  | cut
  | answer (key : ι)
  deriving DecidableEq, Repr

/-- The keys of each ask with the answers directly behind it; `keys` are open at the start and
`given` are answered. -/
def sectionsFrom (keys given : List ι) : List (Entry ι) → List (List ι × List ι)
  | [] => [(keys, given)]
  | .answer key :: rest => sectionsFrom keys (given ++ [key]) rest
  | .ask keys' :: rest => (keys, given) :: sectionsFrom keys' [] rest
  | .cut :: rest => (keys, given) :: sectionsFrom [] [] rest

/-- The keys of each ask with the answers directly behind it; no keys are open at the start. -/
def sections (log : List (Entry ι)) : List (List ι × List ι) := sectionsFrom [] [] log

theorem sectionsFrom_ne_nil (keys given : List ι) (log : List (Entry ι)) :
    sectionsFrom keys given log ≠ [] := by
  induction log generalizing keys given with
  | nil => exact cons_ne_nil _ _
  | cons entry rest ih =>
    cases entry with
    | ask keys' => exact cons_ne_nil _ _
    | cut => exact cons_ne_nil _ _
    | answer key => exact ih keys (given ++ [key])

theorem sectionsFrom_answers (keys given answers : List ι) (log : List (Entry ι)) :
    sectionsFrom keys given (answers.map .answer ++ log) =
      sectionsFrom keys (given ++ answers) log := by
  induction answers generalizing given with
  | nil => rw [append_nil, map_nil, nil_append]
  | cons key rest ih =>
    rw [map_cons, cons_append, sectionsFrom, ih, append_assoc]
    rfl

theorem sectionsFrom_append_ask (keys given keys' : List ι) (log rest : List (Entry ι)) :
    sectionsFrom keys given (log ++ .ask keys' :: rest) =
      sectionsFrom keys given log ++ sectionsFrom keys' [] rest := by
  induction log generalizing keys given with
  | nil => rfl
  | cons entry log ih =>
    cases entry with
    | ask keys => exact congrArg ((_, _) :: ·) (ih keys [])
    | cut => exact congrArg ((_, _) :: ·) (ih [] [])
    | answer key => exact ih keys (given ++ [key])

section Answered

variable [DecidableEq ι]

def Answered (keys given : List ι) : Prop :=
  (∀ key ∈ keys, given.count key = 1) ∧ ∀ key ∈ given, key ∈ keys

/-- Every answer has a key, and every key has exactly one answer or is the only one of its kind
and has none. -/
def Mendable (keys given : List ι) : Prop :=
  (∀ key ∈ keys, given.count key = 1 ∨ key ∉ given ∧ keys.count key = 1) ∧
    ∀ key ∈ given, key ∈ keys

instance (keys given : List ι) : Decidable (Answered keys given) :=
  inferInstanceAs (Decidable (_ ∧ _))

instance (keys given : List ι) : Decidable (Mendable keys given) :=
  inferInstanceAs (Decidable (_ ∧ _))

/-- Every ask is answered. -/
def Paired (log : List (Entry ι)) : Prop := ∀ s ∈ sections log, Answered s.1 s.2

/-- Every section but the last is mendable, and the last one is answered. -/
def AllMendable : List (List ι × List ι) → Prop
  | [] => True
  | [s] => Answered s.1 s.2
  | s :: t :: rest => Mendable s.1 s.2 ∧ AllMendable (t :: rest)

instance (log : List (Entry ι)) : Decidable (Paired log) :=
  inferInstanceAs (Decidable (∀ s ∈ sections log, Answered s.1 s.2))

variable (log : List (Entry ι))

theorem paired_append_ask (keys answers : List ι) :
    Paired (log ++ .ask keys :: answers.map .answer) ↔ Paired log ∧ Answered keys answers := by
  have hanswers : sectionsFrom keys [] (answers.map .answer) = [(keys, answers)] := by
    have h := sectionsFrom_answers keys [] answers []
    rw [append_nil, nil_append] at h
    exact h
  rw [Paired, Paired, sections, sections, sectionsFrom_append_ask, hanswers, forall_mem_append,
    forall_mem_singleton]

/-- Whether all sections are mendable can be computed. -/
def decideAllMendable : (l : List (List ι × List ι)) → Decidable (AllMendable l)
  | [] => .isTrue trivial
  | [s] => inferInstanceAs (Decidable (Answered s.1 s.2))
  | _ :: t :: rest => @instDecidableAnd _ _ _ (decideAllMendable (t :: rest))

instance (l : List (List ι × List ι)) : Decidable (AllMendable l) := decideAllMendable l

/-- The keys without an answer. -/
def missing (keys given : List ι) : List ι := keys.filter fun key => key ∉ given

/-- Supply the missing answers in front of every ask. -/
def mend (keys given : List ι) : List (Entry ι) → List (Entry ι)
  | [] => []
  | .answer key :: rest => .answer key :: mend keys (given ++ [key]) rest
  | .ask keys' :: rest => (missing keys given).map .answer ++ .ask keys' :: mend keys' [] rest
  | .cut :: rest => (missing keys given).map .answer ++ mend [] [] rest

@[simp] theorem missing_nil (given : List ι) : missing [] given = [] := rfl

theorem mend_nil (given given' : List ι) (log : List (Entry ι)) :
    mend [] given log = mend [] given' log := by
  induction log generalizing given given' with
  | nil => rfl
  | cons entry rest ih =>
    cases entry with
    | ask keys => rfl
    | cut => rfl
    | answer key => exact congrArg (Entry.answer key :: ·) (ih _ _)

theorem allMendable_cons {s : List ι × List ι} {l : List (List ι × List ι)} (h : l ≠ []) :
    AllMendable (s :: l) ↔ Mendable s.1 s.2 ∧ AllMendable l := by
  cases l with
  | nil => exact absurd rfl h
  | cons t rest => exact Iff.rfl

theorem answered_nil (given : List ι) : Answered [] given ↔ given = [] := by
  constructor
  · intro h
    exact eq_nil_iff_forall_not_mem.mpr fun key hkey => not_mem_nil (h.2 key hkey)
  · rintro rfl
    exact ⟨fun _ h => absurd h not_mem_nil, fun _ h => absurd h not_mem_nil⟩

theorem mem_missing {keys given : List ι} {key : ι} :
    key ∈ missing keys given ↔ key ∈ keys ∧ key ∉ given := by
  simp [missing]

theorem count_missing (keys given : List ι) (key : ι) :
    (missing keys given).count key = if key ∈ given then 0 else keys.count key := by
  by_cases h : key ∈ given
  · rw [if_pos h]
    exact count_eq_zero.mpr fun hm => (mem_missing.mp hm).2 h
  · rw [if_neg h, missing, count_filter (by simpa using h)]

theorem answered_missing (keys given : List ι) :
    Answered keys (given ++ missing keys given) ↔ Mendable keys given := by
  have hcount : ∀ key, (given ++ missing keys given).count key =
      given.count key + if key ∈ given then 0 else keys.count key := by
    intro key
    rw [count_append, count_missing]
  constructor
  · intro h
    refine ⟨?_, fun key hkey => h.2 key (mem_append_left _ hkey)⟩
    intro key hkey
    have hone := h.1 key hkey
    rw [hcount] at hone
    by_cases hg : key ∈ given
    · left
      simpa [hg] using hone
    · right
      rw [count_eq_zero.mpr hg, if_neg hg, Nat.zero_add] at hone
      exact ⟨hg, hone⟩
  · intro h
    constructor
    · intro key hkey
      rw [hcount]
      rcases h.1 key hkey with hone | ⟨hg, hone⟩
      · have hg : key ∈ given := count_pos_iff.mp (by omega)
        rw [if_pos hg, hone]
      · rw [if_neg hg, hone, count_eq_zero.mpr hg]
    · intro key hkey
      rcases mem_append.mp hkey with hg | hm
      · exact h.2 key hg
      · exact (mem_missing.mp hm).1

theorem mendable_nil (given : List ι) : Mendable [] given ↔ given = [] := by
  rw [← answered_missing, missing_nil, append_nil, answered_nil]

theorem answered_append {keys full more : List ι} (hfull : ∀ key ∈ keys, key ∈ full) :
    Answered keys (full ++ more) ↔ Answered keys full ∧ more = [] := by
  constructor
  · intro h
    have hmore : more = [] := by
      refine eq_nil_iff_forall_not_mem.mpr fun key hm => ?_
      have hkey := h.2 key (mem_append_right _ hm)
      have hone := h.1 key hkey
      have hpos := count_pos_iff.mpr (hfull key hkey)
      have hpos' := count_pos_iff.mpr hm
      rw [count_append] at hone
      omega
    subst hmore
    rw [append_nil] at h
    exact ⟨h, rfl⟩
  · rintro ⟨h, rfl⟩
    rwa [append_nil]

theorem answered_mend :
    (∀ keys given, (∀ s ∈ sectionsFrom keys given (mend keys given log), Answered s.1 s.2) ↔
        AllMendable (sectionsFrom keys given log)) ∧
      ∀ keys full more, (∀ key ∈ keys, key ∈ full) →
        ((∀ s ∈ sectionsFrom keys (full ++ more) (mend [] more log), Answered s.1 s.2) ↔
          Answered keys full ∧ AllMendable (sectionsFrom [] more log)) := by
  induction log with
  | nil =>
    constructor
    · intro keys given
      simp [mend, sectionsFrom, AllMendable]
    · intro keys full more hfull
      simp [mend, sectionsFrom, AllMendable, answered_append hfull, answered_nil]
  | cons entry rest ih =>
    obtain ⟨hmain, hcut⟩ := ih
    cases entry with
    | answer key =>
      refine ⟨fun keys given => hmain keys (given ++ [key]), fun keys full more hfull => ?_⟩
      have hrest := hcut keys full (more ++ [key]) hfull
      rw [← append_assoc] at hrest
      exact hrest
    | ask keys' =>
      have hne := sectionsFrom_ne_nil keys' [] rest
      constructor
      · intro keys given
        simp only [mend, sectionsFrom_answers]
        rw [sectionsFrom, forall_mem_cons, hmain, answered_missing, sectionsFrom,
          allMendable_cons hne]
      · intro keys full more hfull
        simp only [mend, missing_nil, map_nil, nil_append]
        rw [sectionsFrom, forall_mem_cons, hmain, answered_append hfull, sectionsFrom,
          allMendable_cons hne, mendable_nil, and_assoc]
    | cut =>
      have hne := sectionsFrom_ne_nil [] [] rest
      constructor
      · intro keys given
        simp only [mend, sectionsFrom_answers]
        have hfull : ∀ key ∈ keys, key ∈ given ++ missing keys given := by
          intro key hkey
          by_cases hg : key ∈ given
          · exact mem_append_left _ hg
          · exact mem_append_right _ (mem_missing.mpr ⟨hkey, hg⟩)
        have hrest := hcut keys (given ++ missing keys given) [] hfull
        rw [append_nil] at hrest
        rw [hrest, answered_missing, sectionsFrom, allMendable_cons hne]
      · intro keys full more hfull
        simp only [mend, missing_nil, map_nil, nil_append]
        have hfull' : ∀ key ∈ keys, key ∈ full ++ more :=
          fun key hkey => mem_append_left _ (hfull key hkey)
        have hrest := hcut keys (full ++ more) [] hfull'
        rw [append_nil] at hrest
        rw [hrest, answered_append hfull, sectionsFrom, allMendable_cons hne, mendable_nil,
          and_assoc]

theorem paired_mend : Paired (mend [] [] log) ↔ AllMendable (sections log) :=
  (answered_mend log).1 [] []

end Answered

end CrabbyKit
