import CrabbyKit.Core.Listing
import CrabbyKit.Files.Paths
import Mathlib.Data.Finmap
import Mathlib.Data.String.Basic

/-!
# Directories of a bucket

`listAllKeys`, `deleteDirectory` and `renameDirectory` of `ui-bridge.ts`. A directory is what lies
under its prefix in a flat bucket, with an empty marker whose key is the prefix itself.
-/

namespace CrabbyKit.Files.Directories

open List

open Paging (Pages inBatches)

/-- The stored objects by their keys. -/
abbrev Bucket := Finmap fun _ : String => List UInt8

/-- `startsWith` of a string. -/
def startsWith (text start : String) : Bool := start.toList.isPrefixOf text.toList

/-- `slice` of a string after a prefix. -/
def relativeTo (keyPrefix key : String) : String :=
  String.ofList (key.toList.drop keyPrefix.toList.length)

def directoryPrefix (storagePrefix normalizedPath : String) : String :=
  storagePrefix ++ "/" ++ normalizedPath ++ "/"

def Under (keyPrefix key : String) : Prop := ∃ relative, key = keyPrefix ++ relative

variable {keyPrefix : String}

variable {key : String}

theorem under_iff : Under keyPrefix key ↔ keyPrefix.toList <+: key.toList := by
  constructor
  · rintro ⟨relative, rfl⟩
    rw [String.toList_append]
    exact prefix_append _ _
  · rintro ⟨rest, eq⟩
    refine ⟨String.ofList rest, String.toList_inj.mp ?_⟩
    rw [String.toList_append, String.toList_ofList, eq]

theorem startsWith_iff {text start : String} : startsWith text start = true ↔ Under start text := by
  rw [startsWith, isPrefixOf_iff_prefix, under_iff]

theorem relativeTo_append (keyPrefix relative : String) :
    relativeTo keyPrefix (keyPrefix ++ relative) = relative := by
  rw [relativeTo, String.toList_append, drop_left, String.ofList_toList]

theorem append_relative_inj {a b : String} : keyPrefix ++ a = keyPrefix ++ b ↔ a = b := by
  constructor
  · intro same
    rw [← relativeTo_append keyPrefix a, same, relativeTo_append]
  · rintro rfl
    rfl

variable {relative : String}

theorem append_relative_eq_self :
    keyPrefix ++ relative = keyPrefix ↔ relative = "" := by
  constructor
  · intro same
    exact append_relative_inj.mp (same.trans String.append_empty.symm)
  · rintro rfl
    exact String.append_empty

def keysUnder (bucket : Bucket) (keyPrefix : String) : List String :=
  bucket.keys.sort.filter (startsWith · keyPrefix)

/-- `listAllKeys`, page after page. -/
def listAllKeys (pages : Pages String) (bucket : Bucket) (keyPrefix : String) : List String :=
  Paging.collect pages (keysUnder bucket keyPrefix) 1000 none []

def listWithMarker (pages : Pages String) (bucket : Bucket) (keyPrefix : String) : List String :=
  let keys := listAllKeys pages bucket keyPrefix
  if (bucket.lookup keyPrefix).isSome ∧ keyPrefix ∉ keys then keys ++ [keyPrefix] else keys

def deleteAll (bucket : Bucket) (keys : List String) : Bucket :=
  inBatches 1000 (fun bucket batch => batch.foldl (fun bucket key => bucket.erase key) bucket)
    keys 0 bucket

/-- The object of a key is copied to the other prefix, and a marker is made anew. -/
def copyKey (srcPrefix dstPrefix : String) (bucket : Bucket) (key : String) : Bucket :=
  let newKey := dstPrefix ++ relativeTo srcPrefix key
  if key = srcPrefix then bucket.insert newKey []
  else
    match bucket.lookup key with
    | none => bucket
    | some content => bucket.insert newKey content

def deleteDirectory (pages : Pages String) (storagePrefix : String) (bucket : Bucket)
    (path : String) : Except String String × Bucket :=
  match validatePath path with
  | .error error => (.error error, bucket)
  | .ok normalizedPath =>
    let keys := listWithMarker pages bucket (directoryPrefix storagePrefix normalizedPath)
    if keys = [] then (.error ("Directory not found: " ++ normalizedPath), bucket)
    else (.ok normalizedPath, deleteAll bucket keys)

def renameDirectory (pages : Pages String) (storagePrefix : String) (bucket : Bucket)
    (oldPath newPath : String) : Except String (String × String) × Bucket :=
  match validatePath oldPath with
  | .error error => (.error ("source: " ++ error), bucket)
  | .ok src =>
    match validatePath newPath with
    | .error error => (.error ("destination: " ++ error), bucket)
    | .ok dst =>
      if src = dst then (.ok (src, dst), bucket)
      else if startsWith dst (src ++ "/") then
        (.error "Cannot move a directory into itself.", bucket)
      else
        let srcPrefix := directoryPrefix storagePrefix src
        let dstPrefix := directoryPrefix storagePrefix dst
        if (bucket.lookup dstPrefix).isSome then
          (.error ("Destination already exists: " ++ dst), bucket)
        else if 0 < (Paging.list pages (keysUnder bucket dstPrefix) none 1).objects.length then
          (.error ("Destination already exists: " ++ dst), bucket)
        else
          let keys := listWithMarker pages bucket srcPrefix
          if keys = [] then (.error ("Directory not found: " ++ src), bucket)
          else
            (.ok (src, dst), deleteAll (keys.foldl (copyKey srcPrefix dstPrefix) bucket) keys)

variable {bucket : Bucket}

theorem mem_keysUnder : key ∈ keysUnder bucket keyPrefix ↔ key ∈ bucket ∧ Under keyPrefix key := by
  rw [keysUnder, mem_filter, Finset.mem_sort, Finmap.mem_keys, startsWith_iff]

variable (pages : Pages String)

theorem listAllKeys_eq (bucket : Bucket) (keyPrefix : String) :
    listAllKeys pages bucket keyPrefix = keysUnder bucket keyPrefix := by
  have sorted : (keysUnder bucket keyPrefix).Pairwise (· < ·) :=
    (Finset.sortedLT_sort bucket.keys).pairwise.filter _
  rw [listAllKeys, Paging.collect_eq pages sorted, Paging.after_none, nil_append]

theorem listWithMarker_eq (bucket : Bucket) (keyPrefix : String) :
    listWithMarker pages bucket keyPrefix = keysUnder bucket keyPrefix := by
  rw [listWithMarker, listAllKeys_eq]
  refine if_neg ?_
  rintro ⟨found, missed⟩
  exact missed (mem_keysUnder.mpr ⟨Finmap.lookup_isSome.mp found, "", by rw [String.append_empty]⟩)

theorem keysUnder_eq_nil :
    keysUnder bucket keyPrefix = [] ↔ ∀ key ∈ bucket, ¬ Under keyPrefix key := by
  rw [eq_nil_iff_forall_not_mem]
  simp only [mem_keysUnder, not_and]

theorem lookup_deleteAll (bucket : Bucket) (keys : List String) (key : String) :
    (deleteAll bucket keys).lookup key = if key ∈ keys then none else bucket.lookup key := by
  rw [deleteAll, Paging.inBatches_foldl, drop_zero]
  induction keys generalizing bucket with
  | nil => rfl
  | cons first keys ih =>
    rw [foldl_cons, ih]
    by_cases later : key ∈ keys
    · rw [if_pos later, if_pos (mem_cons_of_mem _ later)]
    · by_cases same : key = first
      · rw [if_neg later, if_pos (by simp [same]), same, Finmap.lookup_erase]
      · rw [if_neg later, if_neg (by simp [same, later]), Finmap.lookup_erase_ne same]

/-- What a deletion of a directory does. -/
structure Deleted (keyPrefix : String) (bucket after : Bucket) : Prop where
  gone : ∀ relative, after.lookup (keyPrefix ++ relative) = none
  frame : ∀ key, ¬ Under keyPrefix key → after.lookup key = bucket.lookup key

theorem deleted_deleteAll (bucket : Bucket) (keyPrefix : String) :
    Deleted keyPrefix bucket (deleteAll bucket (keysUnder bucket keyPrefix)) where
  gone relative := by
    rw [lookup_deleteAll]
    split
    · rfl
    · next missed =>
      rw [Finmap.lookup_eq_none]
      exact fun mem => missed (mem_keysUnder.mpr ⟨mem, relative, rfl⟩)
  frame key outside := by
    rw [lookup_deleteAll, if_neg fun mem => outside (mem_keysUnder.mp mem).2]

def carried (srcPrefix : String) (bucket : Bucket) (relative : String) : Option (List UInt8) :=
  if relative = "" then (bucket.lookup srcPrefix).map fun _ => []
  else bucket.lookup (srcPrefix ++ relative)

/-- No key is under both prefixes. -/
def Apart (srcPrefix dstPrefix : String) : Prop :=
  ∀ key, Under srcPrefix key → ¬ Under dstPrefix key

variable {srcPrefix dstPrefix : String}

theorem lookup_copyKey_outside
    (outside : ¬ Under dstPrefix key) (bucket : Bucket) (first : String) :
    (copyKey srcPrefix dstPrefix bucket first).lookup key = bucket.lookup key := by
  have other : key ≠ dstPrefix ++ relativeTo srcPrefix first := fun same => outside ⟨_, same⟩
  unfold copyKey
  split
  · exact Finmap.lookup_insert_of_ne _ other
  · split
    · rfl
    · exact Finmap.lookup_insert_of_ne _ other

theorem lookup_copyKey_other {first other : String} (h : other ≠ first) (bucket : Bucket) :
    (copyKey srcPrefix dstPrefix bucket (srcPrefix ++ first)).lookup (dstPrefix ++ other) =
      bucket.lookup (dstPrefix ++ other) := by
  have ne : dstPrefix ++ other ≠ dstPrefix ++ first := fun same => h (append_relative_inj.mp same)
  unfold copyKey
  rw [relativeTo_append]
  split
  · exact Finmap.lookup_insert_of_ne _ ne
  · split
    · rfl
    · exact Finmap.lookup_insert_of_ne _ ne

theorem lookup_copyKey_self (found : srcPrefix ++ relative ∈ bucket) :
    (copyKey srcPrefix dstPrefix bucket (srcPrefix ++ relative)).lookup (dstPrefix ++ relative) =
      carried srcPrefix bucket relative := by
  obtain ⟨content, found⟩ := Finmap.mem_iff.mp found
  unfold copyKey carried
  rw [relativeTo_append]
  by_cases marker : relative = ""
  · rw [if_pos (append_relative_eq_self.mpr marker), if_pos marker, Finmap.lookup_insert]
    rw [append_relative_eq_self.mpr marker] at found
    rw [found, Option.map_some]
  · rw [if_neg (append_relative_eq_self.not.mpr marker), if_neg marker, found]
    exact Finmap.lookup_insert _

theorem lookup_copyKeys_outside
    (outside : ¬ Under dstPrefix key) (keys : List String) (bucket : Bucket) :
    (keys.foldl (copyKey srcPrefix dstPrefix) bucket).lookup key = bucket.lookup key := by
  induction keys generalizing bucket with
  | nil => rfl
  | cons first keys ih =>
    rw [foldl_cons, ih, lookup_copyKey_outside outside]

theorem lookup_copyKeys (apart : Apart srcPrefix dstPrefix)
    (relative : String) (keys : List String) (bucket : Bucket)
    (found : ∀ key ∈ keys, key ∈ bucket ∧ Under srcPrefix key) :
    (keys.foldl (copyKey srcPrefix dstPrefix) bucket).lookup (dstPrefix ++ relative) =
      if srcPrefix ++ relative ∈ keys then carried srcPrefix bucket relative
      else bucket.lookup (dstPrefix ++ relative) := by
  induction keys generalizing bucket with
  | nil => rfl
  | cons key keys ih =>
    -- Copying changes nothing at the source, so that the later keys are carried as they were.
    have kept {key' : String} (under : Under srcPrefix key') :
        (copyKey srcPrefix dstPrefix bucket key).lookup key' = bucket.lookup key' :=
      lookup_copyKey_outside (apart key' under) bucket key
    have carried_eq : carried srcPrefix (copyKey srcPrefix dstPrefix bucket key) relative =
        carried srcPrefix bucket relative := by
      unfold carried
      rw [kept ⟨"", String.append_empty.symm⟩, kept ⟨relative, rfl⟩]
    rw [foldl_cons, ih, carried_eq]
    · by_cases later : srcPrefix ++ relative ∈ keys
      · rw [if_pos later, if_pos (mem_cons_of_mem _ later)]
      · obtain ⟨here, first, rfl⟩ := found _ mem_cons_self
        by_cases same : relative = first
        · rw [if_neg later, same, if_pos mem_cons_self, lookup_copyKey_self here]
        · have absent : srcPrefix ++ relative ∉ (srcPrefix ++ first) :: keys := by
            rw [mem_cons, append_relative_inj, not_or]
            exact ⟨same, later⟩
          rw [if_neg later, lookup_copyKey_other same, if_neg absent]
    · intro key' mem
      obtain ⟨here, under⟩ := found key' (mem_cons_of_mem _ mem)
      refine ⟨?_, under⟩
      rw [← Finmap.lookup_isSome, kept under, Finmap.lookup_isSome]
      exact here

theorem toList_directoryPrefix (storagePrefix normalizedPath : String) :
    (directoryPrefix storagePrefix normalizedPath).toList =
      (storagePrefix.toList ++ ['/']) ++ (normalizedPath.toList ++ ['/']) := by
  rw [directoryPrefix, String.toList_append, String.toList_append, String.toList_append]
  exact append_assoc _ _ _

variable {storagePrefix : String}

theorem apart_of_refused {src dst : String} (ne : src ≠ dst)
    (outside : ¬ Under (src ++ "/") dst)
    (free : ∀ key ∈ bucket, ¬ Under (directoryPrefix storagePrefix dst) key)
    (found : ∃ key ∈ bucket, Under (directoryPrefix storagePrefix src) key) :
    Apart (directoryPrefix storagePrefix src) (directoryPrefix storagePrefix dst) := by
  intro key inSrc inDst
  rw [under_iff] at inSrc inDst
  rcases prefix_or_prefix_of_prefix inSrc inDst with below | above
  · rw [toList_directoryPrefix, toList_directoryPrefix, prefix_append_right_inj,
      prefix_concat_iff] at below
    rcases below with same | below
    · exact ne (String.toList_inj.mp (append_cancel_right same))
    · refine outside (under_iff.mpr ?_)
      rw [String.toList_append]
      exact below
  · obtain ⟨other, mem, under⟩ := found
    exact free other mem (under_iff.mpr (above.trans (under_iff.mp under)))

structure Renamed (srcPrefix dstPrefix : String) (bucket after : Bucket) : Prop where
  /-- Each object has arrived, and the one whose key is the prefix itself is empty. -/
  arrived : ∀ relative, after.lookup (dstPrefix ++ relative) = carried srcPrefix bucket relative
  departed : ∀ relative, after.lookup (srcPrefix ++ relative) = none
  frame : ∀ key, ¬ Under srcPrefix key → ¬ Under dstPrefix key →
    after.lookup key = bucket.lookup key

theorem carried_eq_none
    (missing : srcPrefix ++ relative ∉ bucket) : carried srcPrefix bucket relative = none := by
  rw [← Finmap.lookup_eq_none] at missing
  unfold carried
  split
  · next marker =>
    rw [marker, String.append_empty] at missing
    rw [missing, Option.map_none]
  · exact missing

theorem renamed_of_apart
    (apart : Apart srcPrefix dstPrefix) (free : ∀ key ∈ bucket, ¬ Under dstPrefix key) :
    Renamed srcPrefix dstPrefix bucket
      (deleteAll ((keysUnder bucket srcPrefix).foldl (copyKey srcPrefix dstPrefix) bucket)
        (keysUnder bucket srcPrefix)) where
  arrived relative := by
    have stays : dstPrefix ++ relative ∉ keysUnder bucket srcPrefix := fun mem =>
      apart _ (mem_keysUnder.mp mem).2 ⟨relative, rfl⟩
    rw [lookup_deleteAll, if_neg stays,
      lookup_copyKeys apart relative _ _ fun _ => mem_keysUnder.mp]
    split
    · rfl
    · next missed =>
      have missing : srcPrefix ++ relative ∉ bucket := fun mem =>
        missed (mem_keysUnder.mpr ⟨mem, relative, rfl⟩)
      rw [carried_eq_none missing, Finmap.lookup_eq_none]
      exact fun mem => free _ mem ⟨relative, rfl⟩
  departed relative := by
    rw [lookup_deleteAll]
    split
    · rfl
    · next missed =>
      rw [lookup_copyKeys_outside (apart _ ⟨relative, rfl⟩), Finmap.lookup_eq_none]
      exact fun mem => missed (mem_keysUnder.mpr ⟨mem, relative, rfl⟩)
  frame key outSrc outDst := by
    rw [lookup_deleteAll, if_neg fun mem => outSrc (mem_keysUnder.mp mem).2,
      lookup_copyKeys_outside outDst]

theorem listed_iff (bucket : Bucket) (keyPrefix : String) :
    0 < (Paging.list pages (keysUnder bucket keyPrefix) none 1).objects.length ↔
      ∃ key ∈ bucket, Under keyPrefix key := by
  rw [Paging.list, Paging.after_none, length_pos_iff, ne_eq, take_eq_nil_iff, keysUnder_eq_nil]
  simp only [PNat.ne_zero, false_or, not_forall, not_not, exists_prop]

/-- The law of a deletion: it is done exactly when something is under the prefix. -/
structure DeleteLaw (pages : Pages String) (storagePrefix : String) (bucket : Bucket)
    (path normalizedPath : String) : Prop where
  removed : ∀ deleted, (deleteDirectory pages storagePrefix bucket path).1 = .ok deleted →
    deleted = normalizedPath ∧ Deleted (directoryPrefix storagePrefix normalizedPath) bucket
      (deleteDirectory pages storagePrefix bucket path).2
  refused : ∀ error, (deleteDirectory pages storagePrefix bucket path).1 = .error error →
    (deleteDirectory pages storagePrefix bucket path).2 = bucket
  refused_iff : (∃ error, (deleteDirectory pages storagePrefix bucket path).1 = .error error) ↔
    ∀ key ∈ bucket, ¬ Under (directoryPrefix storagePrefix normalizedPath) key

theorem deleteLaw {path normalizedPath : String}
    (valid : validatePath path = .ok normalizedPath) (pages : Pages String) (bucket : Bucket) :
    DeleteLaw pages storagePrefix bucket path normalizedPath := by
  have out_eq : deleteDirectory pages storagePrefix bucket path =
      if keysUnder bucket (directoryPrefix storagePrefix normalizedPath) = [] then
        (.error ("Directory not found: " ++ normalizedPath), bucket)
      else (.ok normalizedPath, deleteAll bucket
        (keysUnder bucket (directoryPrefix storagePrefix normalizedPath))) := by
    simp only [deleteDirectory, valid, listWithMarker_eq]
  by_cases missing : keysUnder bucket (directoryPrefix storagePrefix normalizedPath) = []
  · rw [if_pos missing] at out_eq
    refine ⟨?_, ?_, ?_⟩
    · rw [out_eq]
      rintro deleted ⟨⟩
    · rw [out_eq]
      exact fun _ _ => rfl
    · rw [out_eq]
      exact iff_of_true ⟨_, rfl⟩ (keysUnder_eq_nil.mp missing)
  · rw [if_neg missing] at out_eq
    refine ⟨?_, ?_, ?_⟩
    · rw [out_eq]
      rintro deleted ⟨⟩
      exact ⟨rfl, deleted_deleteAll _ _⟩
    · rw [out_eq]
      rintro error ⟨⟩
    · rw [out_eq]
      refine iff_of_false ?_ fun none => missing (keysUnder_eq_nil.mpr none)
      rintro ⟨error, ⟨⟩⟩

/-- A rename is refused into itself, onto something, or of nothing. -/
def Refuses (storagePrefix : String) (bucket : Bucket) (src dst : String) : Prop :=
  Under (src ++ "/") dst ∨ (∃ key ∈ bucket, Under (directoryPrefix storagePrefix dst) key) ∨
    ∀ key ∈ bucket, ¬ Under (directoryPrefix storagePrefix src) key

structure RenameLaw (pages : Pages String) (storagePrefix : String) (bucket : Bucket)
    (oldPath newPath src dst : String) : Prop where
  same : src = dst →
    renameDirectory pages storagePrefix bucket oldPath newPath = (.ok (src, dst), bucket)
  moved : src ≠ dst → ∀ renamed,
    (renameDirectory pages storagePrefix bucket oldPath newPath).1 = .ok renamed →
    renamed = (src, dst) ∧
      Renamed (directoryPrefix storagePrefix src) (directoryPrefix storagePrefix dst) bucket
        (renameDirectory pages storagePrefix bucket oldPath newPath).2
  refused : ∀ error,
    (renameDirectory pages storagePrefix bucket oldPath newPath).1 = .error error →
    (renameDirectory pages storagePrefix bucket oldPath newPath).2 = bucket
  refused_iff :
    (∃ error, (renameDirectory pages storagePrefix bucket oldPath newPath).1 = .error error) ↔
      src ≠ dst ∧ Refuses storagePrefix bucket src dst

section Rename

variable {storagePrefix oldPath newPath src dst : String} (hsrc : validatePath oldPath = .ok src)
  (hdst : validatePath newPath = .ok dst) (pages : Pages String) (bucket : Bucket)

include hsrc hdst

theorem renameDirectory_same (same : src = dst) :
    renameDirectory pages storagePrefix bucket oldPath newPath = (.ok (src, dst), bucket) := by
  simp only [renameDirectory, hsrc, hdst, if_pos same]

theorem renameDirectory_refused (ne : src ≠ dst) (refuses : Refuses storagePrefix bucket src dst) :
    ∃ error,
      renameDirectory pages storagePrefix bucket oldPath newPath = (.error error, bucket) := by
  simp only [renameDirectory, hsrc, hdst, if_neg ne]
  split
  · exact ⟨_, rfl⟩
  · next outside =>
    split
    · exact ⟨_, rfl⟩
    · split
      · exact ⟨_, rfl⟩
      · next free =>
        rcases refuses with inside | taken | missing
        · exact absurd (startsWith_iff.mpr inside) outside
        · exact absurd ((listed_iff pages bucket _).mpr taken) free
        · refine ⟨_, if_pos ?_⟩
          rw [listWithMarker_eq]
          exact keysUnder_eq_nil.mpr missing

theorem renameDirectory_moved (ne : src ≠ dst) (h : ¬ Refuses storagePrefix bucket src dst) :
    renameDirectory pages storagePrefix bucket oldPath newPath =
      (.ok (src, dst), deleteAll ((keysUnder bucket (directoryPrefix storagePrefix src)).foldl
        (copyKey (directoryPrefix storagePrefix src) (directoryPrefix storagePrefix dst)) bucket)
          (keysUnder bucket (directoryPrefix storagePrefix src))) := by
  obtain ⟨outside, taken, found⟩ : _ ∧ _ ∧ _ := by
    rwa [Refuses, not_or, not_or] at h
  have noMarker : ¬ (bucket.lookup (directoryPrefix storagePrefix dst)).isSome = true := by
    rw [Finmap.lookup_isSome]
    exact fun mem => taken ⟨_, mem, "", String.append_empty.symm⟩
  simp only [renameDirectory, hsrc, hdst, if_neg ne]
  rw [if_neg (startsWith_iff.not.mpr outside), if_neg noMarker,
    if_neg ((listed_iff pages bucket _).not.mpr taken), listWithMarker_eq,
    if_neg (keysUnder_eq_nil.not.mpr found)]

theorem renameLaw : RenameLaw pages storagePrefix bucket oldPath newPath src dst := by
  by_cases same : src = dst
  · have out : renameDirectory pages storagePrefix bucket oldPath newPath = _ :=
      renameDirectory_same hsrc hdst pages bucket same
    refine ⟨fun _ => out, fun ne => absurd same ne, ?_, ?_⟩
    · rw [out]
      rintro error ⟨⟩
    · rw [out]
      refine iff_of_false ?_ fun refuses => refuses.1 same
      rintro ⟨error, ⟨⟩⟩
  by_cases refuses : Refuses storagePrefix bucket src dst
  · obtain ⟨error, out⟩ := renameDirectory_refused hsrc hdst pages bucket same refuses
    refine ⟨fun eq => absurd eq same, ?_, ?_, ?_⟩
    · rw [out]
      rintro - renamed ⟨⟩
    · rw [out]
      exact fun _ _ => rfl
    · rw [out]
      exact iff_of_true ⟨error, rfl⟩ ⟨same, refuses⟩
  · have out := renameDirectory_moved hsrc hdst pages bucket same refuses
    refine ⟨fun eq => absurd eq same, ?_, ?_, ?_⟩
    · rw [out]
      rintro - renamed ⟨⟩
      obtain ⟨outside, taken, found⟩ : _ ∧ _ ∧ _ := by
        rwa [Refuses, not_or, not_or] at refuses
      have free : ∀ key ∈ bucket, ¬ Under (directoryPrefix storagePrefix dst) key :=
        fun key mem under => taken ⟨key, mem, under⟩
      have there : ∃ key ∈ bucket, Under (directoryPrefix storagePrefix src) key := by
        simpa only [not_forall, not_not, exists_prop] using found
      exact ⟨rfl, renamed_of_apart (apart_of_refused same outside free there) free⟩
    · rw [out]
      rintro error ⟨⟩
    · rw [out]
      refine iff_of_false ?_ fun h => refuses h.2
      rintro ⟨error, ⟨⟩⟩

end Rename

/-- A deletion removes what is under the directory's prefix and a rename moves it, and nothing else
changes. -/
theorem directories_law (pages : Pages String) (storagePrefix : String) (bucket : Bucket) :
    (∀ path normalizedPath, validatePath path = .ok normalizedPath →
      DeleteLaw pages storagePrefix bucket path normalizedPath) ∧
    ∀ oldPath newPath src dst, validatePath oldPath = .ok src → validatePath newPath = .ok dst →
      RenameLaw pages storagePrefix bucket oldPath newPath src dst :=
  ⟨fun _ _ valid => deleteLaw valid pages bucket,
    fun _ _ _ _ hsrc hdst => renameLaw hsrc hdst pages bucket⟩

/-- An object whose key is the prefix of the directory is empty after a rename. -/
theorem renamed_marker_empty :
    let bucket : Bucket := Finmap.singleton "agent/a/" [104, 105]
    let out := renameDirectory .full "agent" bucket "a" "b"
    validatePath "a/" = .ok "a/" ∧ toR2Key "agent" "a/" = directoryPrefix "agent" "a" ∧
      out.1 = .ok ("a", "b") ∧ bucket.lookup "agent/a/" = some [104, 105] ∧
      out.2.lookup "agent/b/" = some [] := by
  intro bucket out
  have hsrc : validatePath "a" = .ok "a" := by decide
  have hdst : validatePath "b" = .ok "b" := by decide
  have srcPrefix : directoryPrefix "agent" "a" = "agent/a/" := by decide
  have dstPrefix : directoryPrefix "agent" "b" = "agent/b/" := by decide
  have content : bucket.lookup "agent/a/" = some [104, 105] := Finmap.lookup_singleton_eq
  have ne : "a" ≠ "b" := by decide
  have accepts : ¬ Refuses "agent" bucket "a" "b" := by
    rintro (inside | ⟨key, mem, under⟩ | missing)
    · exact absurd (startsWith_iff.mpr inside) (by decide)
    · rw [Finmap.mem_singleton] at mem
      rw [mem] at under
      exact absurd (startsWith_iff.mpr under) (by decide)
    · exact missing "agent/a/" (Finmap.mem_of_lookup_eq_some content)
        ⟨"", by rw [srcPrefix, String.append_empty]⟩
  have done : out.1 = .ok ("a", "b") :=
    congrArg Prod.fst (renameDirectory_moved hsrc hdst .full bucket ne accepts)
  have arrived := ((renameLaw hsrc hdst .full bucket).moved ne _ done).2.arrived ""
  rw [String.append_empty, dstPrefix, carried, if_pos rfl, srcPrefix, content] at arrived
  exact ⟨by decide, by decide, done, content, arrived⟩

end CrabbyKit.Files.Directories
