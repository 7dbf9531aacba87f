import CrabbyKit.Core.Regex
import Mathlib.Tactic.Tauto

/-!
# Globs

`globToRegex` of `paths.ts` over UTF-16 code units, and the language that a glob stands for. The
expression that is made matches this language for every pattern without `**`, and for no other.
-/

namespace CrabbyKit.Files.Glob

open List

open RegExp (unit units syntaxCharacters lineTerminators dot literal parseFrom)

def regexSpecial : List UInt16 :=
  ['.', '+', '^', '$', '{', '}', '(', ')', '|', '[', ']', '\\'].map unit

def escapeRegexChar (char : UInt16) : List UInt16 :=
  if char ∈ regexSpecial then [unit '\\', char] else [char]

/-- `regexStr`, as it is made from the rest of a pattern. -/
def regexStr : List UInt16 → List UInt16
  | [] => []
  | char :: rest =>
    if char = unit '*' then
      match rest with
      | second :: rest' =>
        if second = unit '*' then
          match rest' with
          | third :: rest'' =>
            if third = unit '/' then units ".*" ++ (units "(?:.+/)?" ++ regexStr rest'')
            else units ".*" ++ regexStr (third :: rest'')
          | [] => units ".*"
        else units "[^/]*" ++ regexStr (second :: rest')
      | [] => units "[^/]*"
    else if char = unit '?' then units "[^/]" ++ regexStr rest
    else escapeRegexChar char ++ regexStr rest

/-- `globToRegex`; absent where the constructor throws. -/
def globToRegex (pattern : List UInt16) : Option (Regex UInt16) :=
  RegExp.parse (units "^" ++ regexStr pattern ++ units "$")

inductive Token
  /-- `**`. -/
  | any
  /-- `**/`. -/
  | directories
  /-- `*`. -/
  | name
  /-- `?`. -/
  | one
  | same (c : UInt16)
  deriving DecidableEq

/-- A pattern is read from left to right. -/
def tokens : List UInt16 → List Token
  | [] => []
  | 42 :: 42 :: 47 :: rest => .directories :: tokens rest
  | 42 :: 42 :: rest => .any :: tokens rest
  | 42 :: rest => .name :: tokens rest
  | 63 :: rest => .one :: tokens rest
  | c :: rest => .same c :: tokens rest

/-- The start of a segment. -/
def AtBoundary (before : List UInt16) : Prop := before = [] ∨ before.getLast? = some (unit '/')

/-- What is left of a path after what is before it. -/
inductive Denotes : List UInt16 → List Token → List UInt16 → Prop
  | nil {before} : Denotes before [] []
  | any {before w rest ts} : Denotes (before ++ w) ts rest →
      Denotes before (.any :: ts) (w ++ rest)
  | directories {before w rest ts} : Denotes (before ++ (w ++ [unit '/'])) ts rest →
      Denotes before (.directories :: ts) (w ++ [unit '/'] ++ rest)
  | noDirectory {before rest ts} : AtBoundary before → Denotes before ts rest →
      Denotes before (.directories :: ts) rest
  | name {before w rest ts} : unit '/' ∉ w → Denotes (before ++ w) ts rest →
      Denotes before (.name :: ts) (w ++ rest)
  | one {before c rest ts} : c ≠ unit '/' → Denotes (before ++ [c]) ts rest →
      Denotes before (.one :: ts) ([c] ++ rest)
  | same {before c rest ts} : Denotes (before ++ [c]) ts rest →
      Denotes before (.same c :: ts) ([c] ++ rest)

def InLanguage (pattern path : List UInt16) : Prop := Denotes [] (tokens pattern) path

/-- The pattern has two asterisks in a row. -/
def DoubleStar (pattern : List UInt16) : Prop := [unit '*', unit '*'] <:+: pattern

def Token.source : Token → List UInt16
  | any => units ".*"
  | directories => units ".*" ++ units "(?:.+/)?"
  | name => units "[^/]*"
  | one => units "[^/]"
  | same c => escapeRegexChar c

def Token.regexes : Token → List (Regex UInt16)
  | any => [.star dot]
  | directories => [.star dot, .optional (Regex.concat [.plus dot, literal (unit '/')])]
  | name => [.star (RegExp.except (unit '/'))]
  | one => [RegExp.except (unit '/')]
  | same c => [literal c]

def Token.Word : Token → List UInt16 → Prop
  | any, w | directories, w => ∀ c ∈ w, c ∉ lineTerminators
  | name, w => unit '/' ∉ w
  | one, w => ∃ c, w = [c] ∧ c ≠ unit '/'
  | same c, w => w = [c]

def Words : List Token → List UInt16 → Prop
  | [], path => path = []
  | t :: ts, path => ∃ u v, path = u ++ v ∧ t.Word u ∧ Words ts v

/-- A token that stands for a character is no wildcard. -/
def Token.Proper : Token → Prop
  | same c => c ≠ unit '*' ∧ c ≠ unit '?'
  | _ => True

variable (pattern : List UInt16)

theorem tokens_proper : ∀ t ∈ tokens pattern, t.Proper := by
  fun_induction tokens pattern with
  | case1 => exact fun t mem => by cases mem
  | case2 rest ih => exact forall_mem_cons.mpr ⟨trivial, ih⟩
  | case3 rest _ ih => exact forall_mem_cons.mpr ⟨trivial, ih⟩
  | case4 rest _ _ ih => exact forall_mem_cons.mpr ⟨trivial, ih⟩
  | case5 rest ih => exact forall_mem_cons.mpr ⟨trivial, ih⟩
  | case6 c rest noDirs noAny noName noOne ih =>
    exact forall_mem_cons.mpr ⟨⟨noName, noOne⟩, ih⟩

theorem regexStr_eq : regexStr pattern = (tokens pattern).flatMap Token.source := by
  fun_induction regexStr pattern with
  | case1 => rfl
  | case2 rest ih =>
    rw [ih, ← append_assoc]
    rfl
  | case3 third rest other ih =>
    have read := tokens.eq_3 (third :: rest) fun _ slash => other (List.cons.inj slash).1
    rw [ih]
    exact congrArg (List.flatMap Token.source) read.symm
  | case4 => rfl
  | case5 second rest other ih =>
    have read := tokens.eq_4 (second :: rest) (fun _ stars => other (List.cons.inj stars).1)
      fun _ star => other (List.cons.inj star).1
    rw [ih]
    exact congrArg (List.flatMap Token.source) read.symm
  | case6 => rfl
  | case7 rest _ ih =>
    rw [ih]
    rfl
  | case8 char rest noStar noMark ih =>
    have read := tokens.eq_6 char rest (fun _ star => absurd star noStar)
      (fun _ star => absurd star noStar) noStar noMark
    rw [ih, read, flatMap_cons]
    rfl

variable {c : UInt16}

theorem mem_syntaxCharacters :
    c ∈ syntaxCharacters ↔ c ∈ regexSpecial ∨ c = unit '*' ∨ c = unit '?' := by
  simp only [syntaxCharacters, regexSpecial, map_cons, map_nil, mem_cons, not_mem_nil, or_false]
  tauto

/-- The parts of a token, of which the last comes first. -/
def Token.items : Token → List RegExp.Item
  | any => [.other (.star dot)]
  | directories =>
    [.other (.optional (Regex.concat [.plus dot, literal (unit '/')])), .other (.star dot)]
  | name => [.other (.star (RegExp.except (unit '/')))]
  | one => [.atom (RegExp.except (unit '/'))]
  | same c => [.atom (literal c)]

theorem units_any : units ".*" = ['.', '*'].map unit := by decide

theorem units_directories :
    units "(?:.+/)?" = ['(', '?', ':', '.', '+', '/', ')', '?'].map unit := by decide

theorem units_name : units "[^/]*" = ['[', '^', '/', ']', '*'].map unit := by decide

theorem units_one : units "[^/]" = ['[', '^', '/', ']'].map unit := by decide

variable {t : Token}

theorem parseFrom_source (proper : t.Proper) (outer : List (List RegExp.Item))
    (items : List RegExp.Item) (rest : List UInt16) :
    parseFrom outer items (t.source ++ rest) = parseFrom outer (t.items ++ items) rest := by
  have slash : unit '/' ∉ syntaxCharacters := by decide
  cases t with
  | any =>
    change parseFrom outer items (units ".*" ++ rest) = _
    rw [units_any]
    change parseFrom outer items (unit '.' :: unit '*' :: rest) = _
    rw [RegExp.parseFrom_dot, RegExp.parseFrom_star]
    rfl
  | directories =>
    change parseFrom outer items (units ".*" ++ units "(?:.+/)?" ++ rest) = _
    rw [units_any, units_directories]
    change parseFrom outer items (unit '.' :: unit '*' :: unit '(' :: unit '?' :: unit ':' ::
      unit '.' :: unit '+' :: unit '/' :: unit ')' :: unit '?' :: rest) = _
    rw [RegExp.parseFrom_dot, RegExp.parseFrom_star, RegExp.parseFrom_open, RegExp.parseFrom_dot,
      RegExp.parseFrom_plus, RegExp.parseFrom_literal _ _ _ slash, RegExp.parseFrom_close,
      RegExp.parseFrom_optional]
    rfl
  | name =>
    change parseFrom outer items (units "[^/]*" ++ rest) = _
    rw [units_name]
    change parseFrom outer items
      (unit '[' :: unit '^' :: unit '/' :: unit ']' :: unit '*' :: rest) = _
    rw [RegExp.parseFrom_except _ _ _ slash, RegExp.parseFrom_star]
    rfl
  | one =>
    change parseFrom outer items (units "[^/]" ++ rest) = _
    rw [units_one]
    change parseFrom outer items (unit '[' :: unit '^' :: unit '/' :: unit ']' :: rest) = _
    rw [RegExp.parseFrom_except _ _ _ slash]
    rfl
  | same c =>
    rw [Token.source, escapeRegexChar]
    split
    · next special =>
      exact RegExp.parseFrom_escaped _ _ _ (mem_syntaxCharacters.mpr (.inl special))
    · next plain =>
      refine RegExp.parseFrom_literal _ _ _ ?_
      rw [mem_syntaxCharacters]
      rintro (special | star | mark)
      · exact plain special
      · exact proper.1 star
      · exact proper.2 mark

variable {ts : List Token}

theorem parseFrom_sources (proper : ∀ t ∈ ts, t.Proper)
    (items : List RegExp.Item) (rest : List UInt16) :
    parseFrom [] items (ts.flatMap Token.source ++ rest) =
      parseFrom [] (ts.reverse.flatMap Token.items ++ items) rest := by
  induction ts generalizing items with
  | nil => rfl
  | cons t ts ih =>
    rw [forall_mem_cons] at proper
    rw [flatMap_cons, append_assoc, parseFrom_source proper.1, ih proper.2,
      reverse_cons, flatMap_append, append_assoc, flatMap_singleton]

def expression (pattern : List UInt16) : Regex UInt16 :=
  Regex.concat (.start :: ((tokens pattern).flatMap Token.regexes ++ [.stop]))

theorem items_regexes (t : Token) : t.items.reverse.map RegExp.Item.regex = t.regexes := by
  cases t <;> rfl

theorem globToRegex_eq : globToRegex pattern = some (expression pattern) := by
  have parsed : globToRegex pattern = parseFrom []
      (.other .stop :: ((tokens pattern).reverse.flatMap Token.items ++ [.other .start])) [] := by
    have first : units "^" = [unit '^'] := by decide
    have last : units "$" = [unit '$'] := by decide
    rw [globToRegex, RegExp.parse, regexStr_eq, first, last, append_assoc, singleton_append,
      RegExp.parseFrom_start, parseFrom_sources (tokens_proper pattern), RegExp.parseFrom_stop]
  rw [parsed]
  have flat (ts : List Token) : (ts.reverse.flatMap Token.items).reverse.map RegExp.Item.regex =
      ts.flatMap Token.regexes := by
    induction ts with
    | nil => rfl
    | cons t ts ih =>
      rw [reverse_cons, flatMap_append, reverse_append, map_append, ih,
        flatMap_singleton, items_regexes, flatMap_cons]
  rw [RegExp.parseFrom_end, RegExp.sequence, reverse_cons, reverse_append,
    map_append, map_append, flat]
  rfl

variable {before w after : List UInt16}

theorem matches_star_dot :
    (Regex.star dot).Matches before w after ↔ ∀ c ∈ w, c ∉ lineTerminators := by
  rw [dot, Regex.matches_star_char]
  simp only [decide_eq_true_eq]

theorem matches_star_except : (Regex.star (RegExp.except c)).Matches before w after ↔ c ∉ w := by
  rw [RegExp.except, Regex.matches_star_char]
  simp only [decide_eq_true_eq]
  exact ⟨fun all mem => all c mem rfl, fun absent d mem same => absent (same ▸ mem)⟩

theorem matches_literal : (literal c).Matches before w after ↔ w = [c] := by
  constructor
  · rintro ⟨d, rfl, same⟩
    rw [of_decide_eq_true same]
  · rintro rfl
    exact ⟨c, rfl, decide_eq_true rfl⟩

/-- What the group in the source of `**/` matches has no line terminator either. -/
theorem matches_group (h : (Regex.concat [.plus dot, literal (unit '/')]).Matches before w after) :
    ∀ c ∈ w, c ∉ lineTerminators := by
  obtain ⟨_, _, rfl, ⟨_, _, rfl, ⟨first, rfl, free⟩, later⟩, _, _, rfl, slash, rfl⟩ := h
  change (Regex.star dot).Matches _ _ _ at later
  rw [matches_star_dot] at later
  rw [matches_literal.mp slash]
  intro c mem
  simp only [mem_append, mem_singleton, not_mem_nil, or_false] at mem
  rcases mem with (rfl | mem) | rfl
  · exact of_decide_eq_true free
  · exact later c mem
  · decide

theorem matches_regexes (t : Token) (regexes : List (Regex UInt16)) (before w after : List UInt16) :
    (Regex.concat (t.regexes ++ regexes)).Matches before w after ↔
      ∃ u v, w = u ++ v ∧ t.Word u ∧ (Regex.concat regexes).Matches (before ++ u) v after := by
  cases t with
  | any =>
    simp only [Token.regexes, singleton_append, Regex.matches_concat_cons, matches_star_dot]
    rfl
  | directories =>
    simp only [Token.regexes, cons_append, nil_append, Regex.matches_concat_cons, matches_star_dot]
    constructor
    · rintro ⟨u, _, rfl, free, u', v, rfl, group, later⟩
      rw [append_assoc] at later
      refine ⟨u ++ u', v, (append_assoc _ _ _).symm, ?_, later⟩
      intro c mem
      rcases mem_append.mp mem with mem | mem
      · exact free c mem
      · rcases group with rfl | group
        · cases mem
        · exact matches_group group c mem
    · rintro ⟨u, v, rfl, free, later⟩
      exact ⟨u, v, rfl, free, [], v, rfl, .inl rfl, by rwa [append_nil]⟩
  | name =>
    simp only [Token.regexes, singleton_append, Regex.matches_concat_cons, matches_star_except]
    rfl
  | one =>
    simp only [Token.regexes, singleton_append, Regex.matches_concat_cons, RegExp.except,
      Regex.Matches, Token.Word, decide_eq_true_eq]
  | same c =>
    simp only [Token.regexes, singleton_append, Regex.matches_concat_cons, matches_literal]
    rfl

theorem matches_flatMap (ts : List Token) (before w after : List UInt16) :
    (Regex.concat (ts.flatMap Token.regexes ++ [.stop])).Matches before w after ↔
      Words ts w ∧ after = [] := by
  induction ts generalizing before w with
  | nil =>
    constructor
    · rintro ⟨_, _, rfl, ⟨rfl, last⟩, rfl⟩
      exact ⟨rfl, last⟩
    · rintro ⟨rfl, rfl⟩
      exact ⟨[], [], rfl, ⟨rfl, rfl⟩, rfl⟩
  | cons t ts ih =>
    rw [flatMap_cons, append_assoc, matches_regexes]
    simp only [ih]
    constructor
    · rintro ⟨u, v, rfl, word, words, last⟩
      exact ⟨⟨u, v, rfl, word, words⟩, last⟩
    · rintro ⟨⟨u, v, rfl, word, words⟩, last⟩
      exact ⟨u, v, rfl, word, words, last⟩

theorem test_expression (pattern path : List UInt16) :
    (expression pattern).test path = true ↔ Words (tokens pattern) path := by
  rw [Regex.test_iff]
  constructor
  · rintro ⟨before, w, after, rfl, u, v, rfl, ⟨rfl, rfl⟩, matched⟩
    obtain ⟨words, rfl⟩ := (matches_flatMap _ _ _ _).mp matched
    rwa [nil_append, nil_append, append_nil]
  · intro words
    refine ⟨[], path, [], by rw [append_nil, nil_append], [], path, rfl, ⟨rfl, rfl⟩, ?_⟩
    exact (matches_flatMap _ _ _ _).mpr ⟨words, rfl⟩

/-- The tokens that stand for two asterisks. -/
def Token.IsDouble (t : Token) : Prop := t = any ∨ t = directories

theorem doubleStar_cons {rest : List UInt16} (h : ¬ (c = unit '*' ∧ rest.head? = some (unit '*'))) :
    DoubleStar (c :: rest) ↔ DoubleStar rest := by
  rw [DoubleStar, infix_cons_iff]
  refine or_iff_right fun stars => h ?_
  obtain ⟨later, eq⟩ := stars
  cases eq
  exact ⟨rfl, rfl⟩

theorem exists_isDouble_cons (single : ¬ t.IsDouble) :
    (∃ d ∈ t :: ts, d.IsDouble) ↔ ∃ d ∈ ts, d.IsDouble := by
  simp only [mem_cons, exists_eq_or_imp, single, false_or]

theorem exists_isDouble_iff : (∃ d ∈ tokens pattern, d.IsDouble) ↔ DoubleStar pattern := by
  have start (rest : List UInt16) : DoubleStar (42 :: 42 :: rest) := ⟨[], rest, rfl⟩
  fun_induction tokens pattern with
  | case1 => exact iff_of_false (by simp) (by simp [DoubleStar])
  | case2 rest => exact iff_of_true ⟨_, mem_cons_self, .inr rfl⟩ (start _)
  | case3 rest => exact iff_of_true ⟨_, mem_cons_self, .inl rfl⟩ (start _)
  | case4 rest noDirs noAny ih =>
    rw [doubleStar_cons]
    · exact (exists_isDouble_cons (by simp [Token.IsDouble])).trans ih
    · rintro ⟨-, star⟩
      cases rest with
      | nil => cases star
      | cons second rest =>
        cases star
        exact noAny rest rfl
  | case5 rest ih =>
    rw [doubleStar_cons fun both => absurd both.1 (by decide)]
    exact (exists_isDouble_cons (by simp [Token.IsDouble])).trans ih
  | case6 c rest noDirs noAny noName noOne ih =>
    rw [doubleStar_cons fun both => noName both.1]
    exact (exists_isDouble_cons (by simp [Token.IsDouble])).trans ih

variable {path : List UInt16}

theorem words_of_denotes (h : Denotes before ts path)
    (free : (∃ d ∈ ts, d.IsDouble) → ∀ c ∈ path, c ∉ lineTerminators) : Words ts path := by
  have tail {t : Token} {ts : List Token} {w rest : List UInt16}
      (free : (∃ d ∈ t :: ts, d.IsDouble) → ∀ c ∈ w ++ rest, c ∉ lineTerminators) :
      (∃ d ∈ ts, d.IsDouble) → ∀ c ∈ rest, c ∉ lineTerminators := by
    rintro ⟨t', mem, double⟩ c later
    exact free ⟨t', mem_cons_of_mem _ mem, double⟩ c (mem_append_right _ later)
  have head {t : Token} {ts : List Token} {w rest : List UInt16} (double : t.IsDouble)
      (free : (∃ d ∈ t :: ts, d.IsDouble) → ∀ c ∈ w ++ rest, c ∉ lineTerminators) :
      ∀ c ∈ w, c ∉ lineTerminators := fun c mem =>
    free ⟨t, mem_cons_self, double⟩ c (mem_append_left _ mem)
  induction h with
  | nil => rfl
  | any _ ih => exact ⟨_, _, rfl, head (.inl rfl) free, ih (tail free)⟩
  | directories _ ih => exact ⟨_, _, rfl, head (.inr rfl) free, ih (tail free)⟩
  | @noDirectory _ rest _ _ _ ih =>
    refine ⟨[], rest, rfl, ?_, ih (tail (w := []) free)⟩
    exact fun c mem => absurd mem not_mem_nil
  | name noSlash _ ih => exact ⟨_, _, rfl, noSlash, ih (tail free)⟩
  | one noSlash _ ih => exact ⟨_, _, rfl, ⟨_, rfl, noSlash⟩, ih (tail free)⟩
  | same _ ih => exact ⟨_, _, rfl, rfl, ih (tail free)⟩

theorem denotes_of_words (plain : .directories ∉ ts)
    (before : List UInt16) (h : Words ts path) : Denotes before ts path := by
  induction ts generalizing before path with
  | nil =>
    obtain rfl : path = [] := h
    exact .nil
  | cons t ts ih =>
    obtain ⟨u, v, rfl, word, words⟩ := h
    have later := ih (fun mem => plain (mem_cons_of_mem _ mem)) (before ++ u) words
    cases t with
    | any => exact .any later
    | directories => exact absurd mem_cons_self plain
    | name => exact .name word later
    | one =>
      obtain ⟨c, rfl, noSlash⟩ := word
      exact .one noSlash later
    | same c =>
      obtain rfl : u = [c] := word
      exact .same later

/-- How often a slash follows a line feed. -/
def turns : List UInt16 → Nat
  | [] => 0
  | c :: rest => turns rest + if c = 0x0A ∧ rest.head? = some (unit '/') then 1 else 0

theorem turns_append (u v : List UInt16) :
    turns u + turns v ≤ turns (u ++ v) ∧ turns (u ++ v) ≤ turns u + turns v + 1 := by
  induction u with
  | nil =>
    rw [nil_append, turns]
    omega
  | cons c u ih =>
    cases u with
    | nil =>
      simp only [cons_append, nil_append, turns, head?_nil, reduceCtorEq, and_false, if_false]
      split <;> omega
    | cons d u =>
      have head : (d :: u ++ v).head? = (d :: u).head? := rfl
      rw [cons_append, turns.eq_2 c (d :: u), turns.eq_2 c (d :: u ++ v), head]
      omega

theorem turns_eq_zero_or (w : List UInt16) :
    turns w = 0 ∨ 0x0A ∈ w ∧ unit '/' ∈ w ∧ 2 ≤ w.length := by
  induction w with
  | nil => exact .inl rfl
  | cons c w ih =>
    rw [turns]
    split
    · next turn =>
      obtain ⟨rfl, slash⟩ := turn
      have mem := mem_of_head? slash
      have length := length_pos_of_mem mem
      refine .inr ⟨mem_cons_self, mem_cons_of_mem _ mem, ?_⟩
      rw [length_cons]
      omega
    · refine ih.imp id ?_
      rintro ⟨feed, slash, length⟩
      refine ⟨mem_cons_of_mem _ feed, mem_cons_of_mem _ slash, ?_⟩
      rw [length_cons]
      omega

theorem turns_word (h : t.Word w) : turns w = 0 := by
  refine (turns_eq_zero_or w).resolve_right ?_
  rintro ⟨feed, slash, length⟩
  cases t with
  | any => exact h _ feed (by decide)
  | directories => exact h _ feed (by decide)
  | name => exact h slash
  | one =>
    obtain ⟨c, rfl, -⟩ := h
    exact absurd length (by simp)
  | same c =>
    obtain rfl : w = [c] := h
    exact absurd length (by simp)

theorem turns_words (h : Words ts path) : turns path ≤ ts.length := by
  induction ts generalizing path with
  | nil =>
    obtain rfl : path = [] := h
    exact Nat.le_refl 0
  | cons t ts ih =>
    obtain ⟨u, v, rfl, word, words⟩ := h
    have first := turns_word word
    have later := ih words
    have join := (turns_append u v).2
    rw [length_cons]
    omega

/-- Directories whose names are line feeds. -/
def feeds : Nat → List UInt16
  | 0 => []
  | n + 1 => [0x0A, unit '/'] ++ feeds n

theorem le_turns_feeds (n : Nat) : n ≤ turns (feeds n) := by
  induction n with
  | zero => exact Nat.zero_le _
  | succ n ih =>
    have join := (turns_append [0x0A, unit '/'] (feeds n)).1
    have one : turns [0x0A, unit '/'] = 1 := by decide
    rw [feeds]
    omega

/-- A word for a token, with so many line feeds where there are two asterisks. -/
def Token.sample (n : Nat) : Token → List UInt16
  | any => feeds n
  | directories => feeds n ++ [unit '/']
  | name => []
  | one => [unit 'a']
  | same c => [c]

theorem denotes_sample (n : Nat) (before : List UInt16) (ts : List Token) :
    Denotes before ts (ts.flatMap (Token.sample n)) := by
  induction ts generalizing before with
  | nil => exact .nil
  | cons t ts ih =>
    rw [flatMap_cons]
    cases t with
    | any => exact .any (ih _)
    | directories => exact .directories (ih _)
    | name => exact .name not_mem_nil (ih _)
    | one => exact .one (by decide) (ih _)
    | same c => exact .same (ih _)

theorem le_turns_sample {n : Nat} (h : t.IsDouble) : n ≤ turns (t.sample n) := by
  have whole := le_turns_feeds n
  rcases h with rfl | rfl
  · exact whole
  · have join := (turns_append (feeds n) [unit '/']).1
    rw [Token.sample]
    omega

theorem le_turns_samples {n : Nat} (h : ∃ d ∈ ts, d.IsDouble) :
    n ≤ turns (ts.flatMap (Token.sample n)) := by
  obtain ⟨d, mem, double⟩ := h
  obtain ⟨first, later, rfl⟩ := append_of_mem mem
  have here := le_turns_sample (n := n) double
  rw [flatMap_append, flatMap_cons]
  have join := (turns_append (first.flatMap (Token.sample n))
    (d.sample n ++ later.flatMap (Token.sample n))).1
  have join' := (turns_append (d.sample n) (later.flatMap (Token.sample n))).1
  omega

theorem exists_not_words (h : ∃ d ∈ ts, d.IsDouble) :
    ∃ path, Denotes [] ts path ∧ ¬ Words ts path := by
  refine ⟨ts.flatMap (Token.sample (ts.length + 1)), denotes_sample _ _ _, fun words => ?_⟩
  have most := turns_words words
  have least := le_turns_samples (n := ts.length + 1) h
  omega

/-- The expression is made for every pattern. It matches what the pattern stands for exactly when
there are no two asterisks in a row; with two asterisks, but without a slash after them, it does so
on the paths without a line terminator. -/
theorem globToRegex_iff (pattern : List UInt16) :
    ∃ regex, globToRegex pattern = some regex ∧
      ((∀ path, regex.test path = true ↔ InLanguage pattern path) ↔ ¬ DoubleStar pattern) ∧
      (.directories ∉ tokens pattern → ∀ path : List UInt16, (∀ c ∈ path, c ∉ lineTerminators) →
        (regex.test path = true ↔ InLanguage pattern path)) := by
  refine ⟨expression pattern, globToRegex_eq pattern, ?_, ?_⟩
  · rw [← exists_isDouble_iff]
    constructor
    · rintro same double
      obtain ⟨path, denotes, other⟩ := exists_not_words double
      exact other ((test_expression _ _).mp ((same path).mpr denotes))
    · intro single path
      rw [test_expression]
      refine ⟨denotes_of_words ?_ [], fun denotes => words_of_denotes denotes fun double => ?_⟩
      · exact fun mem => single ⟨_, mem, .inr rfl⟩
      · exact absurd double single
  · intro plain path free
    rw [test_expression]
    exact ⟨denotes_of_words plain [], fun denotes => words_of_denotes denotes fun _ => free⟩

theorem not_denotes_xfoo (h : Denotes []
    [.directories, .same (unit 'f'), .same (unit 'o'), .same (unit 'o')] path) :
    path ≠ ['x', 'f', 'o', 'o'].map unit := by
  intro eq
  cases h with
  | @directories _ w rest _ later =>
    have slash : unit '/' ∈ w ++ [unit '/'] ++ rest := by simp
    rw [eq] at slash
    exact absurd slash (by decide)
  | noDirectory _ later =>
    cases later with
    | same later => exact absurd (List.cons.inj eq).1 (by decide)

/-- `**/foo` matches `xfoo`, and `**` does not match a line feed. -/
theorem double_star_mismatch :
    (∃ regex, globToRegex (units "**/foo") = some regex ∧ regex.test (units "xfoo") = true ∧
      ¬ InLanguage (units "**/foo") (units "xfoo")) ∧
    ∃ regex, globToRegex (units "**") = some regex ∧ regex.test [0x0A] = false ∧
      InLanguage (units "**") [0x0A] := by
  have foo : tokens (units "**/foo") =
      [.directories, .same (unit 'f'), .same (unit 'o'), .same (unit 'o')] := by decide
  have xfoo : units "xfoo" = ['x', 'f', 'o', 'o'].map unit := by decide
  have stars : tokens (units "**") = [.any] := by decide
  refine ⟨⟨_, globToRegex_eq _, ?_, ?_⟩, _, globToRegex_eq _, ?_, ?_⟩
  · have word : ∀ c ∈ [unit 'x'], c ∉ lineTerminators := by
      intro c mem
      rw [mem_singleton.mp mem]
      decide
    rw [test_expression, foo, xfoo]
    exact ⟨[unit 'x'], _, rfl, word, _, _, rfl, rfl, _, _, rfl, rfl, _, _, rfl, rfl, rfl⟩
  · rw [InLanguage, foo]
    exact fun denotes => not_denotes_xfoo denotes xfoo
  · rw [Bool.eq_false_iff, ne_eq, test_expression, stars]
    rintro ⟨u, v, eq, free, rfl⟩
    rw [append_nil] at eq
    exact free 0x0A (by rw [← eq]; exact mem_cons_self) (by decide)
  · rw [InLanguage, stars]
    exact .any (w := [0x0A]) .nil

end CrabbyKit.Files.Glob
