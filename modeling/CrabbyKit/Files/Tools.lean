import CrabbyKit.Core.Utf8
import Mathlib.Data.List.Basic

/-!
# Paths of stored files

`paths.ts`: a path given by a client or a tool is checked and normalized before it is used as
a key of the bucket. Keys are written without the agent's prefix, which all of them share.
-/

namespace CrabbyKit.Files

def maxPathBytes : Nat := 512

def slashed (path : List Char) : List Char := path.map fun c => if c = '\\' then '/' else c

/-- Leading `/` and `./` are stripped. -/
def stripLeading : List Char → List Char
  | '/' :: rest => stripLeading rest
  | '.' :: '/' :: rest => stripLeading rest
  | path => path

/-- `validatePath`: the normalized path, or the error. -/
def validatePath (path : String) : Except String String :=
  if '\x00' ∈ path.toList then .error "Path must not contain null bytes"
  else
    let normalized := slashed path.toList
    if ['.', '.'] ∈ normalized.splitOn '/' then .error "Path must not contain '..' segments"
    else
      let stripped := stripLeading normalized
      let clean := if stripped = ['.'] then [] else stripped
      if clean = [] then .error "Path must not be empty after normalization"
      else if maxPathBytes < (encodeText (String.ofList clean)).length then
        .error "Path must not exceed 512 bytes"
      else .ok (String.ofList clean)

theorem slashed_eq_self {path : List Char} (h : '\\' ∉ path) : slashed path = path := by
  refine (List.map_congr_left fun c hc => ?_).trans (List.map_id path)
  rw [if_neg]
  · rfl
  · rintro rfl
    exact h hc

end CrabbyKit.Files

/-!
## File tools over a bucket

`file-write.ts`, `file-edit.ts`, `file-delete.ts`, `file-copy.ts` and `file-move.ts`: what the
agent's tools do to the bucket that its storage, its skills and its editors share, while the
bucket itself does not fail.
-/

namespace CrabbyKit.Files

/-- The stored objects by key. -/
abbrev Bucket := String → Option String

def maxContentBytes : Nat := 1048576

/-- The text of a tool's result, and the error its details name. -/
structure ToolResult where
  text : String
  error : Option String := none
  deriving DecidableEq, Repr

def parentDirs (path : String) : List String :=
  let segments := path.toList.splitOn '/'
  (List.range' 1 (segments.length - 1)).map fun i =>
    String.ofList (['/'].intercalate (segments.take i) ++ ['/'])

def putMarkers (dirs : List String) (bucket : Bucket) : Bucket :=
  dirs.foldl (fun b dir => if b dir = none then Function.update b dir (some "") else b) bucket

variable {bucket : Bucket} {key : String}

theorem putMarkers_isSome (dirs : List String)
    (h : (bucket key).isSome) : (putMarkers dirs bucket key).isSome := by
  induction dirs generalizing bucket with
  | nil => exact h
  | cons dir rest ih =>
    refine ih ?_
    simp only
    split
    · by_cases hkey : key = dir
      · subst hkey
        rw [Function.update_self]
        rfl
      · rw [Function.update_of_ne hkey]
        exact h
    · exact h

theorem isSome_update {written content : String}
    (h : (bucket key).isSome) : (Function.update bucket written (some content) key).isSome := by
  by_cases hkey : key = written
  · subst hkey
    rw [Function.update_self]
    rfl
  · rw [Function.update_of_ne hkey]
    exact h

/-- The text around the first occurrence of a pattern. -/
def splitOnce (pattern : List Char) : List Char → Option (List Char × List Char)
  | [] => if pattern = [] then some ([], []) else none
  | c :: rest =>
    if pattern.isPrefixOf (c :: rest) then some ([], (c :: rest).drop pattern.length)
    else (splitOnce pattern rest).map fun parts => (c :: parts.1, parts.2)

/-- `text.split(pattern)` for a pattern with characters, with fuel for its occurrences. -/
def splitText (pattern : List Char) : Nat → List Char → List (List Char)
  | 0, text => [text]
  | fuel + 1, text =>
    match splitOnce pattern text with
    | none => [text]
    | some (before, after) => before :: splitText pattern fuel after

def invalidPath (error : String) : ToolResult := ⟨s!"Error: {error}", some "invalid_path"⟩

def fileWrite (path content : String) (bucket : Bucket) : ToolResult × Bucket :=
  match validatePath path with
  | .error error => (invalidPath error, bucket)
  | .ok normalizedPath =>
    let contentBytes := (encodeText content).length
    if maxContentBytes < contentBytes then
      (⟨s!"Error: Content size ({contentBytes} bytes) exceeds the 1MB limit",
        some "content_too_large"⟩, bucket)
    else
      (⟨s!"Successfully wrote {contentBytes} bytes to {normalizedPath}", none⟩,
        Function.update (putMarkers (parentDirs normalizedPath) bucket) normalizedPath
          (some content))

variable {path : String}

theorem fileWrite_isSome {content : String} (h : (bucket key).isSome) :
    ((fileWrite path content bucket).2 key).isSome := by
  unfold fileWrite
  split
  · exact h
  · simp only
    split
    · exact h
    · exact isSome_update (putMarkers_isSome _ h)

/-- What `file_edit` makes of a content; with an empty text to find its search for occurrences does
not return. -/
def editContent (normalizedPath oldString newString : String) (replaceAll : Option Bool)
    (content : String) : Option (ToolResult × Option String) :=
  if oldString = "" then none
  else
    let pieces := splitText oldString.toList content.length content.toList
    let count := pieces.length - 1
    let replaceAll := replaceAll.getD false
    if count = 0 then
      some (⟨s!"Error: String not found in {normalizedPath}. " ++
        "Verify the exact text including whitespace and indentation.",
        some "string_not_found"⟩, none)
    else if 1 < count ∧ !replaceAll then
      some (⟨s!"Error: Found {count} occurrences in {normalizedPath}. " ++
        "Provide more surrounding context to make the match unique, or set replace_all=true.",
        some "ambiguous_match"⟩, none)
    else
      let plural := if count = 1 then "" else "s"
      some (⟨s!"Successfully replaced {count} occurrence{plural} in {normalizedPath}", none⟩,
        some (String.ofList (newString.toList.intercalate pieces)))

def fileEdit (path oldString newString : String) (replaceAll : Option Bool) (bucket : Bucket) :
    Option (ToolResult × Bucket) :=
  match validatePath path with
  | .error error => some (invalidPath error, bucket)
  | .ok normalizedPath =>
    if oldString = newString then
      some (⟨"No changes made: old_string and new_string are identical", none⟩, bucket)
    else
      match bucket normalizedPath with
      | none => some (⟨s!"Error: File not found: {normalizedPath}", some "not_found"⟩, bucket)
      | some content =>
        (editContent normalizedPath oldString newString replaceAll content).map
          fun edited => (edited.1,
            match edited.2 with
            | none => bucket
            | some newContent => Function.update bucket normalizedPath (some newContent))

variable {replaceAll : Option Bool}

variable {oldString newString : String} {files : Bucket} {result : ToolResult}

theorem fileEdit_cases
    (h : fileEdit path oldString newString replaceAll bucket = some (result, files)) :
    files = bucket ∨ ∃ normalized content, validatePath path = .ok normalized ∧
      files = Function.update bucket normalized (some content) := by
  have hsame : ∀ {answer : ToolResult}, some (answer, bucket) = some (result, files) →
      files = bucket := by
    intro answer heq
    exact (Prod.mk.inj (Option.some.inj heq)).2.symm
  unfold fileEdit at h
  cases hpath : validatePath path with
  | error error =>
    rw [hpath] at h
    exact Or.inl (hsame h)
  | ok normalized =>
    rw [hpath] at h
    simp only at h
    split at h
    · exact Or.inl (hsame h)
    · split at h
      · exact Or.inl (hsame h)
      · obtain ⟨⟨answer, edited⟩, -, hedited⟩ := Option.map_eq_some_iff.mp h
        have hfiles := (Prod.mk.inj hedited).2
        cases edited with
        | none => exact Or.inl hfiles.symm
        | some newContent => exact Or.inr ⟨normalized, newContent, rfl, hfiles.symm⟩

theorem fileEdit_isSome (h : (bucket key).isSome)
    (hedit : fileEdit path oldString newString replaceAll bucket = some (result, files)) :
    (files key).isSome := by
  rcases fileEdit_cases hedit with rfl | ⟨normalized, content, -, rfl⟩
  · exact h
  · exact isSome_update h

theorem fileEdit_of_ne (h : ∀ normalized, validatePath path = .ok normalized → key ≠ normalized)
    (hedit : fileEdit path oldString newString replaceAll bucket = some (result, files)) :
    files key = bucket key := by
  rcases fileEdit_cases hedit with rfl | ⟨normalized, content, hpath, rfl⟩
  · rfl
  · exact Function.update_of_ne (h normalized hpath) _ _

def fileDelete (path : String) (bucket : Bucket) : ToolResult × Bucket :=
  match validatePath path with
  | .error error => (invalidPath error, bucket)
  | .ok normalizedPath =>
    (⟨s!"Successfully deleted {normalizedPath}", none⟩, Function.update bucket normalizedPath none)

theorem fileDelete_of_ne (h : ∀ normalized, validatePath path = .ok normalized → key ≠ normalized) :
    (fileDelete path bucket).2 key = bucket key := by
  unfold fileDelete
  cases hpath : validatePath path with
  | error error => rfl
  | ok normalized => exact Function.update_of_ne (h normalized hpath) _ _

/-- The object that `file_copy` and `file_move` carry, with the keys it goes between. -/
def carried (source destination : String) (bucket : Bucket) :
    Except ToolResult (String × String × String) :=
  match validatePath source with
  | .error error => .error ⟨s!"Error: source path: {error}", some "invalid_path"⟩
  | .ok src =>
    match validatePath destination with
    | .error error => .error ⟨s!"Error: destination path: {error}", some "invalid_path"⟩
    | .ok dst =>
      match bucket src with
      | none => .error ⟨s!"Error: source file not found: {src}", some "not_found"⟩
      | some content => .ok (src, dst, content)

def fileCopy (source destination : String) (bucket : Bucket) : ToolResult × Bucket :=
  match carried source destination bucket with
  | .error result => (result, bucket)
  | .ok (src, dst, content) =>
    (⟨s!"Copied {src} → {dst}", none⟩, Function.update bucket dst (some content))

def fileMove (source destination : String) (bucket : Bucket) : ToolResult × Bucket :=
  match carried source destination bucket with
  | .error result => (result, bucket)
  | .ok (src, dst, content) =>
    (⟨s!"Moved {src} → {dst}", none⟩,
      Function.update (Function.update bucket dst (some content)) src none)

inductive FileCall
  | write (path content : String)
  | edit (path oldString newString : String) (replaceAll : Option Bool)
  | delete (path : String)
  | copy (source destination : String)
  | move (source destination : String)
  deriving DecidableEq, Repr

/-- What a call answers and leaves, if it returns. -/
def FileCall.execute : FileCall → Bucket → Option (ToolResult × Bucket)
  | .write path content, bucket => some (fileWrite path content bucket)
  | .edit path oldString newString replaceAll, bucket =>
    fileEdit path oldString newString replaceAll bucket
  | .delete path, bucket => some (fileDelete path bucket)
  | .copy source destination, bucket => some (fileCopy source destination bucket)
  | .move source destination, bucket => some (fileMove source destination bucket)

end CrabbyKit.Files
