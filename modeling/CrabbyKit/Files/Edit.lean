import CrabbyKit.Files.Paths

/-!
# Edits of a file

`FileToolsService.edit` of `service.ts`, behind the check of its token, and `execute` of
`file-edit.ts`: both find the occurrences of a text by `indexOf` and replace them by `split` and
`join`, or by `slice`. Objects are bytes, and a search that goes on is out of fuel.
-/

namespace CrabbyKit.Files

open Option

open Occurrences (indexOf count split Leftmost)

/-- The stored objects by their keys, in bytes. -/
abbrev Objects := String → Option (List UInt8)

namespace Edit

structure EditArgs where
  path : String
  oldString : String
  newString : String
  replaceAll : Option Bool := none

structure EditDetails where
  error : Option String := none
  path : Option String := none
  count : Option Nat := none
  replaced : Option Nat := none
  deriving DecidableEq, Repr

structure FileToolResult where
  text : String
  details : EditDetails
  deriving DecidableEq, Repr

structure AgentToolResult where
  content : List String
  details : EditDetails
  deriving DecidableEq, Repr

/-- What becomes of a content in which a text occurs. -/
def newContent (args : EditArgs) (content : List Char) : List Char :=
  if args.replaceAll.getD false then
    args.newString.toList.intercalate (split args.oldString.toList content)
  else
    (indexOf args.oldString.toList content 0).elim content fun pos =>
      content.take pos ++ args.newString.toList ++
        content.drop (pos + args.oldString.toList.length)

def answer (normalizedPath : String) (args : EditArgs) (content : List Char) (count : Nat) :
    FileToolResult × Option (List Char) :=
  let replaceAll := args.replaceAll.getD false
  if count = 0 then
    (⟨"Error: String not found in " ++ normalizedPath ++
        ". Verify the exact text including whitespace and indentation.",
      { error := some "string_not_found", path := some normalizedPath }⟩, none)
  else if 1 < count ∧ ¬ replaceAll then
    (⟨"Error: Found " ++ toString count ++ " occurrences in " ++ normalizedPath ++
        ". Provide more surrounding context to make the match unique, or set replace_all=true.",
      { error := some "ambiguous_match", count := some count, path := some normalizedPath }⟩, none)
  else
    let replaced := if replaceAll then count else 1
    (⟨"Successfully replaced " ++ toString replaced ++ " occurrence" ++
        (if replaced ≠ 1 then "s" else "") ++ " in " ++ normalizedPath,
      { path := some normalizedPath, replaced := some replaced }⟩,
      some (newContent args content))

/-- The edit that the service and the tool make; absent while the search goes on. -/
def edit (fuel : Nat) (keyPrefix : String) (bucket : Objects) (args : EditArgs) :
    Option (FileToolResult × Objects) :=
  match validatePath args.path with
  | .error error => some (⟨"Error: " ++ error, { error := some "invalid_path" }⟩, bucket)
  | .ok normalizedPath =>
    if args.oldString = args.newString then
      some (⟨"No changes made: old_string and new_string are identical",
        { path := some normalizedPath, replaced := some 0 }⟩, bucket)
    else
      let r2Key := toR2Key keyPrefix normalizedPath
      match bucket r2Key with
      | none =>
        some (⟨"Error: File not found: " ++ normalizedPath,
          { error := some "not_found", path := some normalizedPath }⟩, bucket)
      | some object =>
        let content := (decodeText object).toList
        (count fuel args.oldString.toList content).map fun count =>
          let answered := answer normalizedPath args content count
          (answered.1, answered.2.elim bucket fun newContent =>
            Function.update bucket r2Key (some (encodeText (String.ofList newContent))))

/-- `FileToolsService.edit`. -/
def serviceEdit (fuel : Nat) (storageNamespace : String) (bucket : Objects) (args : EditArgs) :
    Option (FileToolResult × Objects) :=
  edit fuel storageNamespace bucket args

/-- `execute` of `createFileEditTool`. -/
def toolEdit (fuel : Nat) (keyPrefix : String) (bucket : Objects) (args : EditArgs) :
    Option (AgentToolResult × Objects) :=
  (edit fuel keyPrefix bucket args).map fun out => (⟨[out.1.text], out.1.details⟩, out.2)

/-- The occurrences are those at which the content is cut: none and several are told, and otherwise
they are replaced and counted. -/
def EditsContent (bucket : Objects) (r2Key normalizedPath : String) (args : EditArgs)
    (content : List Char) (details : EditDetails) (after : Objects) : Prop :=
  ∃ pieces, Leftmost args.oldString.toList content pieces ∧
    if pieces.length - 1 = 0 then
      details = { error := some "string_not_found", path := some normalizedPath } ∧ after = bucket
    else if 1 < pieces.length - 1 ∧ ¬ args.replaceAll.getD false then
      details = ⟨some "ambiguous_match", some normalizedPath, some (pieces.length - 1), none⟩ ∧
        after = bucket
    else
      details = { path := some normalizedPath, replaced := some (pieces.length - 1) } ∧
        after = Function.update bucket r2Key
          (some (encodeText (String.ofList (args.newString.toList.intercalate pieces))))

/-- An edit changes what it says, or nothing. -/
def EditsExactly (keyPrefix : String) (bucket : Objects) (args : EditArgs)
    (details : EditDetails) (after : Objects) : Prop :=
  match validatePath args.path with
  | .error _ => details = { error := some "invalid_path" } ∧ after = bucket
  | .ok normalizedPath =>
    if args.oldString = args.newString then
      details = { path := some normalizedPath, replaced := some 0 } ∧ after = bucket
    else
      match bucket (toR2Key keyPrefix normalizedPath) with
      | none =>
        details = { error := some "not_found", path := some normalizedPath } ∧ after = bucket
      | some object =>
        EditsContent bucket (toR2Key keyPrefix normalizedPath) normalizedPath args
          (decodeText object).toList details after

/-- The edit returns, edits exactly, and the tool does as the service does. -/
structure EditLaw (keyPrefix : String) (bucket : Objects) (args : EditArgs) : Prop where
  terminates : ∃ fuel, (toolEdit fuel keyPrefix bucket args).isSome = true
  exact : ∀ fuel result after, toolEdit fuel keyPrefix bucket args = some (result, after) →
    EditsExactly keyPrefix bucket args result.details after
  agrees : ∀ fuel, toolEdit fuel keyPrefix bucket args =
    (serviceEdit fuel keyPrefix bucket args).map fun out => (⟨[out.1.text], out.1.details⟩, out.2)

/-- The content of a file is searched. -/
def Searched (keyPrefix : String) (bucket : Objects) (args : EditArgs) : Prop :=
  ∃ normalizedPath, validatePath args.path = .ok normalizedPath ∧
    args.oldString ≠ args.newString ∧ (bucket (toR2Key keyPrefix normalizedPath)).isSome = true

variable {args : EditArgs}

variable {content : List Char} {pieces : List (List Char)}

/-- With one occurrence `slice` does what `split` does. -/
theorem newContent_eq
    (filled : args.oldString.toList ≠ []) (h : Leftmost args.oldString.toList content pieces)
    (some_occurrence : pieces.length - 1 ≠ 0)
    (allowed : ¬ (1 < pieces.length - 1 ∧ ¬ args.replaceAll.getD false)) :
    newContent args content = args.newString.toList.intercalate pieces := by
  unfold newContent
  split
  · rw [h.unique filled (Occurrences.leftmost_split filled content)]
  · next one =>
    cases h with
    | last none => exact absurd rfl some_occurrence
    | next first later =>
      cases later with
      | last none =>
        rw [Occurrences.indexOf_of_le (Nat.zero_le _), List.drop_zero,
          Occurrences.firstIndex_of_first first]
        simp
      | next second later =>
        have more := later.length_pos
        exact absurd ⟨by simp [more], one⟩ allowed

variable {bucket : Objects}

variable {normalizedPath : String}

theorem editsContent {r2Key : String} (filled : args.oldString.toList ≠ [])
    (h : Leftmost args.oldString.toList content pieces) :
    EditsContent bucket r2Key normalizedPath args content
      (answer normalizedPath args content (pieces.length - 1)).1.details
      ((answer normalizedPath args content (pieces.length - 1)).2.elim bucket fun newContent =>
        Function.update bucket r2Key (some (encodeText (String.ofList newContent)))) := by
  refine ⟨pieces, h, ?_⟩
  unfold answer
  by_cases absent : pieces.length - 1 = 0
  · simp [absent]
  · by_cases ambiguous : 1 < pieces.length - 1 ∧ ¬ args.replaceAll.getD false
    · simp only [if_neg absent, if_pos ambiguous]
      exact ⟨trivial, rfl⟩
    · have replaced : (if args.replaceAll.getD false then pieces.length - 1 else 1) =
          pieces.length - 1 := by
        split
        · rfl
        · next one =>
          by_contra other
          exact ambiguous ⟨by omega, one⟩
      simp only [if_neg absent, if_neg ambiguous, replaced, elim_some,
        newContent_eq filled h absent ambiguous]
      exact ⟨trivial, trivial⟩

variable {keyPrefix : String}

theorem edit_searched (valid : validatePath args.path = .ok normalizedPath)
    (other : args.oldString ≠ args.newString) {object : List UInt8}
    (found : bucket (toR2Key keyPrefix normalizedPath) = some object) (fuel : Nat) :
    edit fuel keyPrefix bucket args =
      (count fuel args.oldString.toList (decodeText object).toList).map fun count =>
        let answered := answer normalizedPath args (decodeText object).toList count
        (answered.1, answered.2.elim bucket fun newContent =>
          Function.update bucket (toR2Key keyPrefix normalizedPath)
            (some (encodeText (String.ofList newContent)))) := by
  simp only [edit, valid, if_neg other, found]

theorem filled_of_ne (h : args.oldString ≠ "") : args.oldString.toList ≠ [] :=
  fun nil => h (String.toList_eq_nil_iff.mp nil)

theorem editsExactly_of_edit
    (filled : Searched keyPrefix bucket args → args.oldString ≠ "") {fuel : Nat}
    {result : FileToolResult} {after : Objects}
    (h : edit fuel keyPrefix bucket args = some (result, after)) :
    EditsExactly keyPrefix bucket args result.details after := by
  unfold EditsExactly
  cases valid : validatePath args.path with
  | error error =>
    simp only [edit, valid, Option.some.injEq, Prod.mk.injEq] at h
    obtain ⟨rfl, rfl⟩ := h
    exact ⟨rfl, rfl⟩
  | ok normalizedPath =>
    simp only
    by_cases same : args.oldString = args.newString
    · simp only [edit, valid, if_pos same, Option.some.injEq, Prod.mk.injEq] at h
      obtain ⟨rfl, rfl⟩ := h
      rw [if_pos same]
      exact ⟨rfl, rfl⟩
    · rw [if_neg same]
      cases found : bucket (toR2Key keyPrefix normalizedPath) with
      | none =>
        simp only [edit, valid, if_neg same, found, Option.some.injEq, Prod.mk.injEq] at h
        obtain ⟨rfl, rfl⟩ := h
        exact ⟨rfl, rfl⟩
      | some object =>
        have nonempty := filled_of_ne (filled ⟨normalizedPath, valid, same, by rw [found]; rfl⟩)
        have pieces := Occurrences.leftmost_split nonempty (decodeText object).toList
        rw [edit_searched valid same found, map_eq_some_iff] at h
        obtain ⟨total, counted, answered⟩ := h
        obtain rfl := Occurrences.eq_of_count pieces counted
        cases answered
        exact editsContent nonempty pieces

theorem edit_returns
    (filled : Searched keyPrefix bucket args → args.oldString ≠ "") :
    ∃ fuel, (edit fuel keyPrefix bucket args).isSome = true := by
  by_cases searched : Searched keyPrefix bucket args
  · have nonempty := filled_of_ne (filled searched)
    obtain ⟨normalizedPath, valid, other, found⟩ := searched
    obtain ⟨object, found⟩ := isSome_iff_exists.mp found
    have pieces := Occurrences.leftmost_split nonempty (decodeText object).toList
    refine ⟨(split args.oldString.toList (decodeText object).toList).length, ?_⟩
    rw [edit_searched valid other found, Occurrences.count_eq pieces le_rfl]
    rfl
  · refine ⟨0, ?_⟩
    unfold edit
    split
    · rfl
    · next normalizedPath valid =>
      split
      · rfl
      · next other =>
        simp only
        split
        · rfl
        · next object found =>
          exact absurd ⟨normalizedPath, valid, other, by rw [found]; rfl⟩ searched

/-- The law holds exactly when no content is searched for the empty text. -/
theorem editLaw_iff (keyPrefix : String) (bucket : Objects) (args : EditArgs) :
    EditLaw keyPrefix bucket args ↔
      (Searched keyPrefix bucket args → args.oldString ≠ "") := by
  constructor
  · rintro law ⟨normalizedPath, valid, other, found⟩ empty
    obtain ⟨object, found⟩ := isSome_iff_exists.mp found
    obtain ⟨fuel, returned⟩ := law.terminates
    rw [toolEdit, edit_searched valid other found, empty, String.toList_empty,
      Occurrences.count_nil] at returned
    cases returned
  · intro filled
    refine ⟨?_, ?_, fun _ => rfl⟩
    · obtain ⟨fuel, returned⟩ := edit_returns filled
      exact ⟨fuel, by rw [toolEdit, isSome_map]; exact returned⟩
    · intro fuel result after h
      obtain ⟨⟨found, _⟩, edited, same⟩ := map_eq_some_iff.mp h
      cases same
      exact editsExactly_of_edit filled edited

/-- An edit of `a.txt` that looks for the empty text never returns. -/
theorem empty_search_hangs :
    let bucket : Objects := fun key => if key = "agent/a.txt" then some [] else none
    let args : EditArgs := { path := "a.txt", oldString := "", newString := "x" }
    ∀ fuel, toolEdit fuel "agent" bucket args = none ∧
      serviceEdit fuel "agent" bucket args = none := by
  intro bucket args fuel
  have valid : validatePath args.path = .ok "a.txt" := by decide
  have none : edit fuel "agent" bucket args = none := by
    rw [edit_searched valid (by decide) rfl]
    exact map_eq_none_iff.mpr (Occurrences.count_nil fuel _)
  exact ⟨by rw [toolEdit, none]; rfl, none⟩

end Edit

end CrabbyKit.Files
