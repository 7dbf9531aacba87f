import Mathlib.Tactic.Basic

/-!
# Regular expressions that backtrack

Expressions over any characters, with the two anchors. They are matched by continuations, as
`RegExp` does, and `Matches` is what they mean; a match is found exactly when there is one.
-/

namespace CrabbyKit

open List

variable {α : Type*}

inductive Regex (α : Type*)
  | empty
  | char (accepts : α → Bool)
  | start
  | stop
  | seq (first second : Regex α)
  | star (body : Regex α)
  | optional (body : Regex α)

namespace Regex

def plus (body : Regex α) : Regex α := seq body (star body)

/-- A list of expressions, one after another. -/
def concat (regexes : List (Regex α)) : Regex α := regexes.foldr seq empty

/-- What is to be matched after an expression, from what is before and after that point. -/
abbrev Continuation (α : Type*) := List α → List α → Bool

/-- A body as often as it goes on, which is once for each character at most. -/
def repeated (body : List α → List α → Continuation α → Bool) :
    Nat → List α → List α → Continuation α → Bool
  | 0, before, rest, k => k before rest
  | times + 1, before, rest, k =>
    body before rest (fun before' rest' =>
      decide (rest'.length < rest.length) && repeated body times before' rest' k) || k before rest

def run : Regex α → List α → List α → Continuation α → Bool
  | empty, before, rest, k => k before rest
  | char _, _, [], _ => false
  | char accepts, before, c :: rest, k => accepts c && k (before ++ [c]) rest
  | start, before, rest, k => before.isEmpty && k before rest
  | stop, before, rest, k => rest.isEmpty && k before rest
  | seq first second, before, rest, k =>
    run first before rest fun before rest => run second before rest k
  | star body, before, rest, k => repeated (run body) rest.length before rest k
  | optional body, before, rest, k =>
    run body before rest (fun before' rest' =>
      decide (rest'.length < rest.length) && k before' rest') || k before rest

/-- `test` of a `RegExp`: there is a match from one of the positions on. -/
def test (regex : Regex α) (input : List α) : Bool :=
  (List.range (input.length + 1)).any fun i =>
    run regex (input.take i) (input.drop i) fun _ _ => true

/-- Words one after another, each related to what is before and after it. -/
inductive Many (one : List α → List α → List α → Prop) : List α → List α → List α → Prop
  | nil {before after : List α} : Many one before [] after
  | cons {before w w' after : List α} : one before w (w' ++ after) →
      Many one (before ++ w) w' after → Many one before (w ++ w') after

/-- The words that an expression matches between what is before and after them. -/
def Matches : Regex α → List α → List α → List α → Prop
  | empty, _, w, _ => w = []
  | char accepts, _, w, _ => ∃ c, w = [c] ∧ accepts c = true
  | start, before, w, _ => w = [] ∧ before = []
  | stop, _, w, after => w = [] ∧ after = []
  | seq first second, before, w, after => ∃ u v, w = u ++ v ∧
      Matches first before u (v ++ after) ∧ Matches second (before ++ u) v after
  | star body, before, w, after => Many (Matches body) before w after
  | optional body, before, w, after => w = [] ∨ Matches body before w after

/-- The words that a run may take before it goes on. -/
def Takes (one : List α → List α → List α → Prop) (before rest : List α) (k : Continuation α) :
    Prop :=
  ∃ w after, rest = w ++ after ∧ one before w after ∧ k (before ++ w) after = true

/-- A run that finds what is there to be found. -/
def Sound (body : List α → List α → Continuation α → Bool)
    (one : List α → List α → List α → Prop) : Prop :=
  ∀ before rest k, body before rest k = true ↔ Takes one before rest k

variable {body : List α → List α → Continuation α → Bool} {one : List α → List α → List α → Prop}

theorem Sound.progress (h : Sound body one) (before rest : List α) (k : Continuation α) :
    body before rest (fun before' rest' => decide (rest'.length < rest.length) && k before' rest')
        = true ↔
      ∃ w after, w ≠ [] ∧ rest = w ++ after ∧ one before w after ∧
        k (before ++ w) after = true := by
  rw [h]
  constructor
  · rintro ⟨w, after, rfl, taken, found⟩
    rw [Bool.and_eq_true, decide_eq_true_eq, length_append] at found
    refine ⟨w, after, ?_, rfl, taken, found.2⟩
    rintro rfl
    exact absurd found.1 (by simp)
  · rintro ⟨w, after, filled, rfl, taken, found⟩
    refine ⟨w, after, rfl, taken, ?_⟩
    have length := length_pos_iff.mpr filled
    rw [Bool.and_eq_true, decide_eq_true_eq, length_append]
    exact ⟨by omega, found⟩

theorem Sound.repeated_of_many (h : Sound body one) {before w after : List α}
    {k : Continuation α} (many : Many one before w after) (found : k (before ++ w) after = true) :
    ∀ times, (w ++ after).length ≤ times → repeated body times before (w ++ after) k = true := by
  induction many with
  | nil =>
    intro times _
    rw [append_nil] at found
    cases times with
    | zero => exact found
    | succ times => rw [repeated, nil_append, found, Bool.or_true]
  | @cons before w w' after taken later ih =>
    intro times enough
    rw [← append_assoc] at found
    by_cases nil : w = []
    · rw [nil, append_nil] at ih found
      rw [nil] at enough ⊢
      exact ih found times enough
    · have length := length_pos_iff.mpr nil
      rw [append_assoc] at enough ⊢
      rw [length_append] at enough
      obtain ⟨times, rfl⟩ : ∃ n, times = n + 1 := ⟨times - 1, by omega⟩
      rw [repeated, Bool.or_eq_true]
      left
      exact (h.progress _ _ _).mpr ⟨w, w' ++ after, nil, rfl, taken, ih found times (by omega)⟩

theorem Sound.repeated (h : Sound body one) :
    Sound (fun before rest k => repeated body rest.length before rest k) (Many one) := by
  intro before rest k
  change Regex.repeated body rest.length before rest k = true ↔ _
  constructor
  · generalize rest.length = times
    induction times generalizing before rest with
    | zero => exact fun found => ⟨[], rest, rfl, .nil, by rwa [append_nil]⟩
    | succ times ih =>
      intro found
      rw [Regex.repeated, Bool.or_eq_true] at found
      rcases found with more | found
      · obtain ⟨w, after, -, rfl, taken, later⟩ := (h.progress _ _ _).mp more
        obtain ⟨w', after, rfl, many, found⟩ := ih _ _ later
        exact ⟨w ++ w', after, (append_assoc _ _ _).symm, .cons taken many, by rwa [← append_assoc]⟩
      · exact ⟨[], rest, rfl, .nil, by rwa [append_nil]⟩
  · rintro ⟨w, after, rfl, many, found⟩
    exact h.repeated_of_many many found _ (Nat.le_refl _)

theorem sound_run (regex : Regex α) : Sound regex.run regex.Matches := by
  induction regex with
  | empty =>
    intro before rest k
    constructor
    · exact fun found => ⟨[], rest, rfl, rfl, by rwa [append_nil]⟩
    · rintro ⟨w, after, rfl, rfl, found⟩
      rwa [append_nil] at found
  | char accepts =>
    intro before rest k
    cases rest with
    | nil =>
      refine iff_of_false (by simp [run]) ?_
      rintro ⟨w, after, rest, ⟨c, rfl, -⟩, -⟩
      cases rest
    | cons c rest =>
      rw [run, Bool.and_eq_true]
      constructor
      · exact fun found => ⟨[c], rest, rfl, ⟨c, rfl, found.1⟩, found.2⟩
      · rintro ⟨w, after, eq, ⟨d, rfl, accepted⟩, found⟩
        cases eq
        exact ⟨accepted, found⟩
  | start =>
    intro before rest k
    rw [run, Bool.and_eq_true, List.isEmpty_iff]
    constructor
    · rintro ⟨first, found⟩
      exact ⟨[], rest, rfl, ⟨rfl, first⟩, by rwa [append_nil]⟩
    · rintro ⟨w, after, rfl, ⟨rfl, first⟩, found⟩
      rw [append_nil] at found
      exact ⟨first, found⟩
  | stop =>
    intro before rest k
    rw [run, Bool.and_eq_true, List.isEmpty_iff]
    constructor
    · rintro ⟨last, found⟩
      exact ⟨[], rest, rfl, ⟨rfl, last⟩, by rwa [append_nil]⟩
    · rintro ⟨w, after, rfl, ⟨rfl, last⟩, found⟩
      rw [append_nil] at found
      exact ⟨last, found⟩
  | seq first second ihFirst ihSecond =>
    intro before rest k
    rw [run, ihFirst]
    constructor
    · rintro ⟨u, after, rfl, matched, found⟩
      obtain ⟨v, after, rfl, matched', found⟩ := (ihSecond _ _ _).mp found
      exact ⟨u ++ v, after, (append_assoc _ _ _).symm, ⟨u, v, rfl, matched, matched'⟩,
        by rwa [← append_assoc]⟩
    · rintro ⟨w, after, rfl, ⟨u, v, rfl, matched, matched'⟩, found⟩
      rw [← append_assoc] at found
      exact ⟨u, v ++ after, append_assoc _ _ _, matched,
        (ihSecond _ _ _).mpr ⟨v, after, rfl, matched', found⟩⟩
  | star body ih => exact ih.repeated
  | optional body ih =>
    intro before rest k
    rw [run, Bool.or_eq_true, ih.progress]
    constructor
    · rintro (⟨w, after, -, rfl, matched, found⟩ | found)
      · exact ⟨w, after, rfl, .inr matched, found⟩
      · exact ⟨[], rest, rfl, .inl rfl, by rwa [append_nil]⟩
    · rintro ⟨w, after, rfl, matched, found⟩
      by_cases nil : w = []
      · rw [nil, append_nil] at found
        rw [nil]
        exact .inr found
      · exact .inl ⟨w, after, nil, rfl, matched.resolve_left nil, found⟩

theorem test_iff (regex : Regex α) (input : List α) :
    regex.test input = true ↔
      ∃ before w after, input = before ++ (w ++ after) ∧ regex.Matches before w after := by
  rw [test, any_eq_true]
  constructor
  · rintro ⟨i, -, found⟩
    obtain ⟨w, after, rest, matched, -⟩ := (sound_run regex _ _ _).mp found
    exact ⟨input.take i, w, after, by rw [← rest, take_append_drop], matched⟩
  · rintro ⟨before, w, after, rfl, matched⟩
    refine ⟨before.length, ?_, ?_⟩
    · rw [mem_range, length_append]
      omega
    · rw [take_left, drop_left]
      exact (sound_run regex _ _ _).mpr ⟨w, after, rfl, matched, rfl⟩

theorem matches_concat_cons (regex : Regex α) (regexes : List (Regex α)) (before w after : List α) :
    (concat (regex :: regexes)).Matches before w after ↔
      ∃ u v, w = u ++ v ∧ regex.Matches before u (v ++ after) ∧
        (concat regexes).Matches (before ++ u) v after :=
  Iff.rfl

theorem matches_star_char {accepts : α → Bool} {before w after : List α} :
    (star (char accepts)).Matches before w after ↔ ∀ c ∈ w, accepts c = true := by
  constructor
  · intro many
    induction many with
    | nil => exact fun c mem => by cases mem
    | cons taken _ ih =>
      obtain ⟨d, rfl, accepted⟩ := taken
      rw [singleton_append, forall_mem_cons]
      exact ⟨accepted, ih⟩
  · intro accepted
    induction w generalizing before with
    | nil => exact .nil
    | cons c w ih =>
      rw [forall_mem_cons] at accepted
      exact .cons ⟨c, rfl, accepted.1⟩ (ih accepted.2)

end Regex

end CrabbyKit

/-!
# Sources of regular expressions

`new RegExp(source)` without flags, over UTF-16 code units: literal characters, escapes, `.`,
`[^c]`, groups `(?:...)`, the quantifiers `*`, `+` and `?`, and anchors. A source that is not of
this form is absent, as one is on which the constructor throws.
-/

namespace CrabbyKit.RegExp

/-- The code unit of a character below U+10000. -/
def unit (c : Char) : UInt16 := c.toNat.toUInt16

def units (text : String) : List UInt16 := text.toList.map unit

/-- `SyntaxCharacter` of the grammar. -/
def syntaxCharacters : List UInt16 :=
  ['^', '$', '\\', '.', '*', '+', '?', '(', ')', '[', ']', '{', '}', '|'].map unit

/-- What `.` does not match. -/
def lineTerminators : List UInt16 := [0x0A, 0x0D, 0x2028, 0x2029]

def dot : Regex UInt16 := .char fun c => c ∉ lineTerminators

def literal (c : UInt16) : Regex UInt16 := .char fun d => d = c

/-- `[^c]`. -/
def except (c : UInt16) : Regex UInt16 := .char fun d => d ≠ c

/-- A part of a sequence; only an atom may be quantified. -/
inductive Item
  | atom (regex : Regex UInt16)
  | other (regex : Regex UInt16)

def Item.regex : Item → Regex UInt16
  | atom regex | other regex => regex

/-- The sequence of the parts, of which the last comes first. -/
def sequence (items : List Item) : Regex UInt16 := Regex.concat (items.reverse.map Item.regex)

/-- The last part is quantified. -/
def quantify (quantifier : Regex UInt16 → Regex UInt16) : List Item → Option (List Item)
  | .atom regex :: items => some (.other (quantifier regex) :: items)
  | _ => none

/-- The rest of a source, after the parts of the groups that are open and of the last of them. -/
@[simp] def parseFrom (outer : List (List Item)) (items : List Item) :
    List UInt16 → Option (Regex UInt16)
  | [] => if outer.isEmpty then some (sequence items) else none
  | c :: rest =>
    if c ∉ syntaxCharacters then parseFrom outer (.atom (literal c) :: items) rest
    else if c = unit '\\' then
      match rest with
      | escaped :: rest =>
        if escaped ∈ syntaxCharacters then parseFrom outer (.atom (literal escaped) :: items) rest
        else none
      | [] => none
    else if c = unit '^' then parseFrom outer (.other .start :: items) rest
    else if c = unit '$' then parseFrom outer (.other .stop :: items) rest
    else if c = unit '.' then parseFrom outer (.atom dot :: items) rest
    else if c = unit '*' then
      (quantify .star items).bind fun items => parseFrom outer items rest
    else if c = unit '+' then
      (quantify .plus items).bind fun items => parseFrom outer items rest
    else if c = unit '?' then
      (quantify .optional items).bind fun items => parseFrom outer items rest
    else if c = unit '[' then
      match rest with
      | caret :: member :: close :: rest =>
        if caret = unit '^' ∧ member ∉ syntaxCharacters ∧ close = unit ']' then
          parseFrom outer (.atom (except member) :: items) rest
        else none
      | _ => none
    else if c = unit '(' then
      match rest with
      | mark :: colon :: rest =>
        if mark = unit '?' ∧ colon = unit ':' then parseFrom (items :: outer) [] rest else none
      | _ => none
    else if c = unit ')' then
      match outer with
      | previous :: outer => parseFrom outer (.atom (sequence items) :: previous) rest
      | [] => none
    else none

/-- `new RegExp(source)`. -/
def parse (source : List UInt16) : Option (Regex UInt16) := parseFrom [] [] source

section Parse

variable (outer : List (List Item)) (items : List Item) (rest : List UInt16)

theorem parseFrom_literal {c : UInt16} (h : c ∉ syntaxCharacters) :
    parseFrom outer items (c :: rest) = parseFrom outer (.atom (literal c) :: items) rest := by
  rw [parseFrom.eq_def]
  exact if_pos h

theorem parseFrom_escaped {c : UInt16} (h : c ∈ syntaxCharacters) :
    parseFrom outer items (unit '\\' :: c :: rest) =
      parseFrom outer (.atom (literal c) :: items) rest := by
  rw [parseFrom.eq_def]
  exact (if_neg (by decide)).trans ((if_pos rfl).trans (if_pos h))

theorem parseFrom_start :
    parseFrom outer items (unit '^' :: rest) = parseFrom outer (.other .start :: items) rest := by
  rw [parseFrom.eq_def]
  rfl

theorem parseFrom_stop :
    parseFrom outer items (unit '$' :: rest) = parseFrom outer (.other .stop :: items) rest := by
  rw [parseFrom.eq_def]
  rfl

theorem parseFrom_dot :
    parseFrom outer items (unit '.' :: rest) = parseFrom outer (.atom dot :: items) rest := by
  rw [parseFrom.eq_def]
  rfl

variable (regex : Regex UInt16)

theorem parseFrom_star :
    parseFrom outer (.atom regex :: items) (unit '*' :: rest) =
      parseFrom outer (.other (.star regex) :: items) rest := by
  rw [parseFrom.eq_def]
  rfl

theorem parseFrom_plus :
    parseFrom outer (.atom regex :: items) (unit '+' :: rest) =
      parseFrom outer (.other (.plus regex) :: items) rest := by
  rw [parseFrom.eq_def]
  rfl

theorem parseFrom_optional :
    parseFrom outer (.atom regex :: items) (unit '?' :: rest) =
      parseFrom outer (.other (.optional regex) :: items) rest := by
  rw [parseFrom.eq_def]
  rfl

theorem parseFrom_except {member : UInt16} (h : member ∉ syntaxCharacters) :
    parseFrom outer items (unit '[' :: unit '^' :: member :: unit ']' :: rest) =
      parseFrom outer (.atom (except member) :: items) rest := by
  rw [parseFrom.eq_def]
  change (if unit '^' = unit '^' ∧ member ∉ syntaxCharacters ∧ unit ']' = unit ']' then
    parseFrom outer (.atom (except member) :: items) rest else none) = _
  exact if_pos ⟨rfl, h, rfl⟩

theorem parseFrom_open :
    parseFrom outer items (unit '(' :: unit '?' :: unit ':' :: rest) =
      parseFrom (items :: outer) [] rest := by
  rw [parseFrom.eq_def]
  rfl

theorem parseFrom_close (previous : List Item) :
    parseFrom (previous :: outer) items (unit ')' :: rest) =
      parseFrom outer (.atom (sequence items) :: previous) rest := by
  rw [parseFrom.eq_def]
  rfl

theorem parseFrom_end : parseFrom [] items [] = some (sequence items) := rfl

end Parse

/-- `[^/]*` matches a line feed. -/
example : (parse (['^', '[', '^', '/', ']', '*', '$'].map unit)).map (Regex.test · [0x0A]) =
    some true := by
  decide

end CrabbyKit.RegExp
