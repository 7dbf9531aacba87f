import CrabbyKit.Core.Split
import CrabbyKit.Files.Tools

/-!
# Spellings of a path

`validatePath` and `toR2Key` of `paths.ts` over the segments of a path: what is accepted lies under
the prefix and is accepted again as it is, and two spellings have one key when they differ before
their first name only.
-/

namespace CrabbyKit.Files

open List

/-- `toR2Key`. -/
def toR2Key (keyPrefix normalizedPath : String) : String := keyPrefix ++ "/" ++ normalizedPath

/-- The segments of a path, with `/` or `\` between them. -/
def pathSegments (path : String) : List (List Char) := (slashed path.toList).splitOn '/'

/-- A segment that names nothing. -/
def Nameless (segment : List Char) : Prop := segment = [] ∨ segment = ['.']

instance (segment : List Char) : Decidable (Nameless segment) :=
  inferInstanceAs (Decidable (_ ∨ _))

def named (segments : List (List Char)) : List (List Char) :=
  segments.dropWhile fun segment => Nameless segment

variable {path normalized : String}

/-- What `validatePath` accepts, and what it makes of it. -/
theorem validatePath_eq_ok_iff :
    validatePath path = .ok normalized ↔ '\x00' ∉ path.toList ∧ ['.', '.'] ∉ pathSegments path ∧
      normalized.toList = stripLeading (slashed path.toList) ∧ normalized.toList ≠ [] ∧
      normalized.toList ≠ ['.'] ∧ (encodeText normalized).length ≤ maxPathBytes := by
  unfold validatePath pathSegments
  generalize hstripped : stripLeading (slashed path.toList) = stripped
  by_cases null : '\x00' ∈ path.toList
  · simp [null]
  rw [if_neg null]
  by_cases up : ['.', '.'] ∈ (slashed path.toList).splitOn '/'
  · simp [up]
  simp only [if_neg up, hstripped]
  by_cases dot : stripped = ['.']
  · simp only [if_pos dot, if_true]
    refine iff_of_false (by simp) ?_
    rintro ⟨-, -, same, -, other, -⟩
    exact other (same.trans dot)
  by_cases empty : stripped = []
  · simp only [if_neg dot, if_pos empty]
    refine iff_of_false (by simp) ?_
    rintro ⟨-, -, same, other, -⟩
    exact other (same.trans empty)
  simp only [if_neg dot, if_neg empty]
  by_cases long : maxPathBytes < (encodeText (String.ofList stripped)).length
  · rw [if_pos long]
    refine iff_of_false (by simp) ?_
    rintro ⟨-, -, same, -, -, short⟩
    rw [← same, String.ofList_toList] at long
    omega
  · rw [if_neg long, Except.ok.injEq]
    constructor
    · rintro rfl
      rw [String.toList_ofList]
      exact ⟨null, up, rfl, empty, dot, Nat.le_of_not_lt long⟩
    · rintro ⟨-, -, same, -⟩
      rw [← same, String.ofList_toList]

theorem splitOn_slash (rest : List Char) : ('/' :: rest).splitOn '/' = [] :: rest.splitOn '/' := by
  rw [splitOn_cons_eq_if_modifyHead]
  rfl

theorem splitOn_dot_slash (rest : List Char) :
    ('.' :: '/' :: rest).splitOn '/' = ['.'] :: rest.splitOn '/' := by
  rw [splitOn_cons_eq_if_modifyHead, splitOn_slash]
  rfl

theorem splitOn_other {c : Char} (other : c ≠ '/') (rest : List Char) :
    ∃ first later, rest.splitOn '/' = first :: later ∧
      (c :: rest).splitOn '/' = (c :: first) :: later := by
  obtain ⟨first, later, cut⟩ := exists_cons_of_ne_nil (splitOn_ne_nil '/' rest)
  refine ⟨first, later, cut, ?_⟩
  rw [splitOn_cons_eq_if_modifyHead, cut]
  simp [other]

theorem eq_nil_or_slash {path : List Char} {later : List (List Char)}
    (h : path.splitOn '/' = [] :: later) : path = [] ∨ ∃ rest, path = '/' :: rest := by
  cases path with
  | nil => exact .inl rfl
  | cons c rest =>
    by_cases slash : c = '/'
    · exact .inr ⟨rest, by rw [slash]⟩
    · obtain ⟨first, later, -, cut⟩ := splitOn_other slash rest
      rw [cut] at h
      cases h

theorem splitOn_stripLeading (path : List Char) :
    (stripLeading path).splitOn '/' = named (path.splitOn '/') ∨
      stripLeading path = [] ∨ stripLeading path = ['.'] := by
  induction path using stripLeading.induct with
  | case1 rest ih =>
    rw [stripLeading, splitOn_slash, named, dropWhile_cons_of_pos (by decide)]
    exact ih
  | case2 rest ih =>
    rw [stripLeading, splitOn_dot_slash, named, dropWhile_cons_of_pos (by decide)]
    exact ih
  | case3 path noSlash noDot =>
    rw [stripLeading.eq_3 path noSlash noDot]
    cases path with
    | nil => exact .inr (.inl rfl)
    | cons c rest =>
      have slash : c ≠ '/' := by
        rintro rfl
        exact noSlash rest rfl
      obtain ⟨first, later, cutRest, cut⟩ := splitOn_other slash rest
      by_cases dot : c :: rest = ['.']
      · exact .inr (.inr dot)
      · refine .inl ?_
        rw [cut, named, dropWhile_cons_of_neg]
        rw [decide_eq_true_eq]
        rintro (nil | single)
        · cases nil
        · obtain ⟨rfl, rfl⟩ := List.cons.inj single
          rcases eq_nil_or_slash cutRest with rfl | ⟨after, rfl⟩
          · exact dot rfl
          · exact noDot after rfl

theorem segments_of_validatePath (h : validatePath path = .ok normalized) :
    normalized.toList.splitOn '/' = named (pathSegments path) := by
  obtain ⟨-, -, same, filled, noDot, -⟩ := validatePath_eq_ok_iff.mp h
  rw [same] at filled noDot ⊢
  exact (splitOn_stripLeading _).resolve_right fun bare => bare.elim filled noDot

theorem stripLeading_stripLeading (path : List Char) :
    stripLeading (stripLeading path) = stripLeading path := by
  induction path using stripLeading.induct with
  | case1 rest ih => rwa [stripLeading]
  | case2 rest ih => rwa [stripLeading]
  | case3 path noSlash noDot =>
    rw [stripLeading.eq_3 path noSlash noDot, stripLeading.eq_3 path noSlash noDot]

theorem stripLeading_suffix (path : List Char) : stripLeading path <:+ path := by
  induction path using stripLeading.induct with
  | case1 rest ih =>
    rw [stripLeading]
    exact ih.trans (suffix_cons _ _)
  | case2 rest ih =>
    rw [stripLeading]
    exact ih.trans ((suffix_cons _ _).trans (suffix_cons _ _))
  | case3 path noSlash noDot =>
    rw [stripLeading.eq_3 path noSlash noDot]

theorem head?_stripLeading (path : List Char) : (stripLeading path).head? ≠ some '/' := by
  induction path using stripLeading.induct with
  | case1 rest ih => rwa [stripLeading]
  | case2 rest ih => rwa [stripLeading]
  | case3 path noSlash noDot =>
    rw [stripLeading.eq_3 path noSlash noDot]
    intro slash
    cases path with
    | nil => cases slash
    | cons c rest =>
      cases slash
      exact noSlash rest rfl

theorem backslash_notMem_slashed (path : List Char) : '\\' ∉ slashed path := by
  intro mem
  obtain ⟨c, -, image⟩ := mem_map.mp mem
  split at image
  · cases image
  · next other => exact other image

theorem null_notMem_slashed {path : List Char} (h : '\x00' ∉ path) : '\x00' ∉ slashed path := by
  intro mem
  obtain ⟨c, inPath, image⟩ := mem_map.mp mem
  split at image
  · cases image
  · exact h (image ▸ inPath)

/-- A normalized path is a name under its prefix. -/
structure Confined (normalized : String) : Prop where
  filled : normalized.toList ≠ []
  relative : normalized.toList.head? ≠ some '/'
  noUp : ['.', '.'] ∉ normalized.toList.splitOn '/'
  noNull : '\x00' ∉ normalized.toList

theorem confined_of_validatePath
    (h : validatePath path = .ok normalized) : Confined normalized := by
  have segments := segments_of_validatePath h
  obtain ⟨noNull, noUp, same, filled, -, -⟩ := validatePath_eq_ok_iff.mp h
  refine ⟨filled, ?_, ?_, ?_⟩
  · rw [same]
    exact head?_stripLeading _
  · rw [segments]
    exact fun mem => noUp ((dropWhile_sublist _).subset mem)
  · rw [same]
    exact fun mem => null_notMem_slashed noNull ((stripLeading_suffix _).subset mem)

theorem toList_toR2Key (keyPrefix normalized : String) :
    (toR2Key keyPrefix normalized).toList = keyPrefix.toList ++ '/' :: normalized.toList := by
  rw [toR2Key, String.toList_append, String.toList_append, append_assoc]
  rfl

variable {keyPrefix : String}

theorem toR2Key_injective {a b : String} (h : toR2Key keyPrefix a = toR2Key keyPrefix b) :
    a = b := by
  have chars := congrArg String.toList h
  rw [toList_toR2Key, toList_toR2Key] at chars
  exact String.toList_inj.mp (List.cons.inj (append_cancel_left chars)).2

/-- The key of a confined path has no segment `..` and no null but those of the prefix. -/
theorem Confined.key (h : Confined normalized) (keyPrefix : String) :
    (['.', '.'] ∈ (toR2Key keyPrefix normalized).toList.splitOn '/' →
        ['.', '.'] ∈ keyPrefix.toList.splitOn '/') ∧
      ('\x00' ∈ (toR2Key keyPrefix normalized).toList → '\x00' ∈ keyPrefix.toList) := by
  rw [toList_toR2Key, splitOn_append_cons_self, mem_append, mem_append, mem_cons]
  refine ⟨fun up => up.resolve_right h.noUp, fun null => null.resolve_right ?_⟩
  rintro (slash | null)
  · exact absurd slash (by decide)
  · exact h.noNull null

theorem validatePath_idempotent
    (h : validatePath path = .ok normalized) : validatePath normalized = .ok normalized := by
  have confined := confined_of_validatePath h
  obtain ⟨-, -, same, filled, noDot, short⟩ := validatePath_eq_ok_iff.mp h
  have folded : slashed normalized.toList = normalized.toList := by
    refine slashed_eq_self fun mem => ?_
    rw [same] at mem
    exact backslash_notMem_slashed _ ((stripLeading_suffix _).subset mem)
  refine validatePath_eq_ok_iff.mpr ⟨confined.noNull, ?_, ?_, filled, noDot, short⟩
  · rw [pathSegments, folded]
    exact confined.noUp
  · rw [folded, same, stripLeading_stripLeading]

theorem key_eq_iff {p q np nq : String} (hp : validatePath p = .ok np)
    (hq : validatePath q = .ok nq) : toR2Key keyPrefix np = toR2Key keyPrefix nq ↔
      named (pathSegments p) = named (pathSegments q) := by
  rw [← segments_of_validatePath hp, ← segments_of_validatePath hq]
  constructor
  · intro same
    rw [toR2Key_injective same]
  · intro same
    have joined := congrArg (['/'].intercalate ·) same
    simp only [intercalate_splitOn] at joined
    rw [String.toList_inj.mp joined]

/-- What is accepted lies under the prefix and is accepted again as it is; two spellings have one
key exactly when they agree from their first name on; a segment `..` is rejected. -/
theorem validatePath_laws :
    (∀ keyPrefix path normalized, validatePath path = .ok normalized →
      Confined normalized ∧
        (toR2Key keyPrefix normalized).toList = keyPrefix.toList ++ '/' :: normalized.toList ∧
        (['.', '.'] ∈ (toR2Key keyPrefix normalized).toList.splitOn '/' →
          ['.', '.'] ∈ keyPrefix.toList.splitOn '/') ∧
        ('\x00' ∈ (toR2Key keyPrefix normalized).toList → '\x00' ∈ keyPrefix.toList) ∧
        validatePath normalized = .ok normalized) ∧
    (∀ keyPrefix p q np nq, validatePath p = .ok np → validatePath q = .ok nq →
      (toR2Key keyPrefix np = toR2Key keyPrefix nq ↔
        named (pathSegments p) = named (pathSegments q))) ∧
    ∀ path, ['.', '.'] ∈ pathSegments path → ∃ error, validatePath path = .error error := by
  refine ⟨?_, fun _ _ _ _ _ => key_eq_iff, ?_⟩
  · intro keyPrefix path normalized h
    have confined := confined_of_validatePath h
    exact ⟨confined, toList_toR2Key _ _, (confined.key keyPrefix).1, (confined.key keyPrefix).2,
      validatePath_idempotent h⟩
  · intro path up
    cases valid : validatePath path with
    | error error => exact ⟨error, rfl⟩
    | ok normalized => exact absurd up (validatePath_eq_ok_iff.mp valid).2.1

/-- `a//b` and `a/b` differ in a repeated slash, and have two keys. -/
theorem repeated_slash_two_keys :
    validatePath "a//b" = .ok "a//b" ∧ validatePath "a/b" = .ok "a/b" ∧
      (pathSegments "a//b").filter (fun segment => ¬ Nameless segment) =
        (pathSegments "a/b").filter (fun segment => ¬ Nameless segment) ∧
      toR2Key "agent" "a//b" ≠ toR2Key "agent" "a/b" := by
  decide

end CrabbyKit.Files
