import CrabbyKit.Core.JsonText
import CrabbyKit.Core.Table
import CrabbyKit.Core.Utf8

/-!
# Building a bundle from its source files

`bundle-builder.ts`. The bucket hands out a listing page by page, and the loader reads the first
page. The bundler is a parameter.
-/

namespace CrabbyKit.DispatchHost

open List Option

/-- The objects of a bucket in the order of their keys, and how many keys the first page of a
listing holds. -/
structure SourceBucket where
  objects : List (String × String)
  unique : (objects.map Prod.fst).Nodup
  pageSize : String → Nat

structure Listing where
  keys : List String
  truncated : Bool

namespace SourceBucket

def get (bucket : SourceBucket) (key : String) : Option String :=
  (Table.lookup Prod.fst bucket.objects key).map Prod.snd

def keysUnder (bucket : SourceBucket) (keyPrefix : String) : List String :=
  (bucket.objects.map Prod.fst).filter fun key => keyPrefix.toList.isPrefixOf key.toList

def list (bucket : SourceBucket) (keyPrefix : String) : Listing where
  keys := (bucket.keysUnder keyPrefix).take (bucket.pageSize keyPrefix)
  truncated := bucket.pageSize keyPrefix < (bucket.keysUnder keyPrefix).length

end SourceBucket

/-- `key.slice(prefix.length)` of a listed key. -/
def relativePath (keyPrefix key : String) : String :=
  String.ofList (key.toList.drop keyPrefix.toList.length)

def relativeRuntimePaths : List String :=
  ["_claw/bundle-runtime.js", "src/_claw/bundle-runtime.js"]

def virtualPackageDir : String := "node_modules/@crabbykit/bundle-sdk"

def virtualPackageJsonPath : String := virtualPackageDir ++ "/package.json"

def virtualPackageBundlePath : String := virtualPackageDir ++ "/bundle.js"

def virtualPackageJson : String :=
  Json.stringify (.obj [("name", .str "@crabbykit/bundle-sdk"), ("version", .str "0.0.0-virtual"),
    ("type", .str "module"), ("exports", .obj [(".", .str "./bundle.js")])])

/-- The files that are put in last, over what the source may have had there. -/
def runtimeFiles (runtimeSource : String) : List (String × String) :=
  relativeRuntimePaths.map (·, runtimeSource) ++
    [(virtualPackageJsonPath, virtualPackageJson), (virtualPackageBundlePath, runtimeSource)]

def workshopBundlePrefix : String := "workshop/bundles"

def bundlePrefix (space name : String) : String :=
  space ++ "/" ++ workshopBundlePrefix ++ "/" ++ name

/-- The member that an assignment leaves in the place of an old one or of none. -/
def fileEntry (file : String × String) (old : Option (String × String)) : String × String :=
  (old.elim file.1 Prod.fst, file.2)

/-- `files[path] = text` on an object literal, on which `__proto__` is no member of its own. -/
def setFile (files : List (String × String)) (file : String × String) : List (String × String) :=
  if file.1 = "__proto__" then files
  else Table.upsert Prod.fst file.1 (fileEntry file) files

structure LoadedBundleFiles where
  files : List (String × String) := []
  userFileCount : Nat := 0
  totalBytes : Nat := 0

def loadFile (bucket : SourceBucket) (keyPrefix : String) (loaded : LoadedBundleFiles)
    (key : String) : LoadedBundleFiles :=
  let rel := relativePath keyPrefix key
  if rel = "" then loaded
  else
    match bucket.get key with
    | none => loaded
    | some contents =>
      { files := setFile loaded.files (rel, contents)
        userFileCount := loaded.userFileCount + 1
        totalBytes := loaded.totalBytes + textLength contents }

def loadBundleFiles (bucket : SourceBucket) (space name runtimeSource : String) :
    LoadedBundleFiles :=
  let keyPrefix := bundlePrefix space name ++ "/"
  let loaded := (bucket.list keyPrefix).keys.foldl (loadFile bucket keyPrefix) {}
  { loaded with files := (runtimeFiles runtimeSource).foldl setFile loaded.files }

structure BuildBundleResult where
  mainModule : String
  modules : JsonObject
  userFileCount : Nat

/-- The bundler: it compiles files or fails. -/
abbrev CreateWorker := List (String × String) → Option (String × JsonObject)

def buildBundle (createWorker : CreateWorker) (bucket : SourceBucket)
    (space name runtimeSource : String) : Option BuildBundleResult :=
  let loaded := loadBundleFiles bucket space name runtimeSource
  if loaded.userFileCount = 0 then none
  else do
    let result ← createWorker loaded.files
    some ⟨result.1, result.2, loaded.userFileCount⟩

def bundleEnvelopeVersion : Int := 1

def encodeEnvelope (mainModule : String) (modules : JsonObject) : List UInt8 :=
  encodeText (Json.stringify (.obj [("v", .num bundleEnvelopeVersion),
    ("mainModule", .str mainModule), ("modules", modules.toJson)]))

theorem relativePath_append (keyPrefix rel : String) :
    relativePath keyPrefix (keyPrefix ++ rel) = rel := by
  rw [relativePath, String.toList_append, drop_left, String.ofList_toList]

theorem append_injective (keyPrefix : String) {a b : String} (h : keyPrefix ++ a = keyPrefix ++ b) :
    a = b := by
  rw [← relativePath_append keyPrefix a, h, relativePath_append]

namespace SourceBucket

variable (bucket : SourceBucket)

theorem mem_keysUnder {keyPrefix key : String} :
    key ∈ bucket.keysUnder keyPrefix ↔
      key ∈ bucket.objects.map Prod.fst ∧ ∃ rel, key = keyPrefix ++ rel := by
  rw [keysUnder, mem_filter, isPrefixOf_iff_prefix]
  refine and_congr_right fun _ => ⟨?_, ?_⟩
  · rintro ⟨rest, hrest⟩
    refine ⟨String.ofList rest, ?_⟩
    apply String.toList_injective
    rw [String.toList_append, String.toList_ofList, hrest]
  · rintro ⟨rel, rfl⟩
    exact ⟨rel.toList, String.toList_append.symm⟩

theorem mem_list {keyPrefix key : String}
    (h : key ∈ (bucket.list keyPrefix).keys) : key ∈ bucket.keysUnder keyPrefix :=
  mem_of_mem_take h

theorem get_eq_some_iff {key text : String} :
    bucket.get key = some text ↔ (key, text) ∈ bucket.objects := by
  rw [get, map_eq_some_iff]
  constructor
  · rintro ⟨⟨key', text'⟩, hlookup, rfl⟩
    obtain ⟨hmem, rfl⟩ := (Table.lookup_eq_some bucket.unique).mp hlookup
    exact hmem
  · intro hmem
    exact ⟨(key, text), (Table.lookup_eq_some bucket.unique).mpr ⟨hmem, rfl⟩, rfl⟩

end SourceBucket

def fileAt (files : List (String × String)) (path : String) : Option String :=
  (Table.lookup Prod.fst files path).map Prod.snd

theorem fileAt_setFile (files : List (String × String)) (file : String × String) (path : String) :
    fileAt (setFile files file) path =
      if path = file.1 ∧ path ≠ "__proto__" then some file.2 else fileAt files path := by
  unfold fileAt setFile
  by_cases hproto : file.1 = "__proto__"
  · rw [if_pos hproto, if_neg]
    rintro ⟨hpath, hne⟩
    exact hne (hpath.trans hproto)
  · have hwritten : Table.lookup Prod.fst
        (Table.upsert Prod.fst file.1 (fileEntry file) files) path =
          if path = file.1 then some (fileEntry file (Table.lookup Prod.fst files file.1))
          else Table.lookup Prod.fst files path :=
      Table.lookup_upsert (f := fileEntry file) (fun _ => rfl) rfl path
    rw [if_neg hproto, hwritten]
    by_cases hpath : path = file.1
    · rw [if_pos hpath, if_pos ⟨hpath, hpath ▸ hproto⟩]
      rfl
    · rw [if_neg hpath, if_neg fun h => hpath h.1]

variable (bucket : SourceBucket)

theorem fileAt_loadFile (keyPrefix : String) (loaded : LoadedBundleFiles)
    {key : String} (hkey : key ∈ bucket.keysUnder keyPrefix) (path : String) :
    fileAt (loadFile bucket keyPrefix loaded key).files path =
      if key = keyPrefix ++ path ∧ path ≠ "" ∧ path ≠ "__proto__" then bucket.get key
      else fileAt loaded.files path := by
  obtain ⟨hmem, rel, rfl⟩ := bucket.mem_keysUnder.mp hkey
  obtain ⟨⟨key, text⟩, hobject, hname⟩ := List.mem_map.mp hmem
  obtain rfl : key = keyPrefix ++ rel := hname
  have hget := bucket.get_eq_some_iff.mpr hobject
  have hsame : keyPrefix ++ rel = keyPrefix ++ path ↔ path = rel :=
    ⟨fun h => (append_injective keyPrefix h).symm, fun h => by rw [h]⟩
  simp only [loadFile, relativePath_append, hget, hsame]
  by_cases hrel : rel = ""
  · rw [if_pos hrel, if_neg]
    rintro ⟨rfl, hne, -⟩
    exact hne hrel
  · rw [if_neg hrel, fileAt_setFile]
    by_cases hpath : path = rel
    · simp [hpath, hrel]
    · simp [hpath]

theorem fileAt_foldl_loadFile (keyPrefix path : String)
    (keys : List String) (hkeys : ∀ key ∈ keys, key ∈ bucket.keysUnder keyPrefix)
    (loaded : LoadedBundleFiles) :
    fileAt (keys.foldl (loadFile bucket keyPrefix) loaded).files path =
      if keyPrefix ++ path ∈ keys ∧ path ≠ "" ∧ path ≠ "__proto__" then
        bucket.get (keyPrefix ++ path)
      else fileAt loaded.files path := by
  induction keys generalizing loaded with
  | nil => simp
  | cons key keys ih =>
    obtain ⟨hkey, hrest⟩ := forall_mem_cons.mp hkeys
    rw [foldl_cons, ih hrest, fileAt_loadFile bucket keyPrefix loaded hkey]
    by_cases hproper : path ≠ "" ∧ path ≠ "__proto__"
    · by_cases hfound : keyPrefix ++ path ∈ keys
      · rw [if_pos ⟨hfound, hproper⟩, if_pos ⟨mem_cons_of_mem key hfound, hproper⟩]
      · rw [if_neg fun h => hfound h.1]
        by_cases hhead : key = keyPrefix ++ path
        · rw [if_pos ⟨hhead, hproper⟩, if_pos ⟨hhead ▸ mem_cons_self, hproper⟩, hhead]
        · rw [if_neg fun h => hhead h.1, if_neg]
          rintro ⟨hmem, -⟩
          exact (mem_cons.mp hmem).elim (fun h => hhead h.symm) hfound
    · rw [if_neg fun h => hproper h.2, if_neg fun h => hproper h.2, if_neg fun h => hproper h.2]

theorem fileAt_foldl_setFile (files injected : List (String × String))
    (hnodup : (injected.map Prod.fst).Nodup) (hproto : "__proto__" ∉ injected.map Prod.fst)
    (path : String) :
    fileAt (injected.foldl setFile files) path =
      (fileAt injected path).or (fileAt files path) := by
  induction injected generalizing files with
  | nil => rfl
  | cons file injected ih =>
    rw [map_cons, nodup_cons] at hnodup
    rw [map_cons, mem_cons, not_or] at hproto
    rw [foldl_cons, ih (setFile files file) hnodup.2 hproto.2, fileAt_setFile]
    by_cases hpath : path = file.1
    · have hnone : fileAt injected path = none := by
        rw [fileAt, map_eq_none_iff, Table.lookup_eq_none]
        intro other hother hname
        exact hnodup.1 (List.mem_map.mpr ⟨other, hother, hname.trans hpath⟩)
      have hhead : fileAt (file :: injected) path = some file.2 := by
        rw [fileAt, Table.lookup, find?_cons_of_pos (by simp [hpath])]
        rfl
      rw [hnone, hhead, if_pos ⟨hpath, fun h => hproto.1 (h ▸ hpath)⟩, none_or,
        some_or]
    · have hhead : fileAt (file :: injected) path = fileAt injected path := by
        rw [fileAt, Table.lookup, find?_cons_of_neg (by simp [Ne.symm hpath])]
        rfl
      rw [hhead, if_neg fun h => hpath h.1]

theorem fileAt_loadBundleFiles (space name runtimeSource path : String) :
    fileAt (loadBundleFiles bucket space name runtimeSource).files path =
      (fileAt (runtimeFiles runtimeSource) path).or
        (if bundlePrefix space name ++ "/" ++ path ∈
              (bucket.list (bundlePrefix space name ++ "/")).keys ∧
            path ≠ "" ∧ path ≠ "__proto__" then
          bucket.get (bundlePrefix space name ++ "/" ++ path)
        else none) := by
  have hinjected : ((runtimeFiles runtimeSource).map Prod.fst).Nodup ∧
      "__proto__" ∉ (runtimeFiles runtimeSource).map Prod.fst := by
    change (relativeRuntimePaths ++ [virtualPackageJsonPath, virtualPackageBundlePath]).Nodup ∧
      "__proto__" ∉ relativeRuntimePaths ++ [virtualPackageJsonPath, virtualPackageBundlePath]
    decide
  rw [loadBundleFiles, fileAt_foldl_setFile _ _ hinjected.1 hinjected.2,
    fileAt_foldl_loadFile bucket _ _ _ fun key hkey => bucket.mem_list hkey]
  rfl

/-- The files hold every object under the prefix, and nothing else but the runtime. -/
def AllObjects (bucket : SourceBucket) (keyPrefix runtimeSource : String)
    (files : List (String × String)) : Prop :=
  (∀ path text, (keyPrefix ++ path, text) ∈ bucket.objects → fileAt files path = some text) ∧
  ∀ path text, fileAt files path = some text →
    fileAt (runtimeFiles runtimeSource) path = some text ∨
      (keyPrefix ++ path, text) ∈ bucket.objects

/-- An object that the loader hands on: it is on the first page and has a path of its own, or the
runtime has the same text in its place. -/
def Loadable (bucket : SourceBucket) (keyPrefix runtimeSource path text : String) : Prop :=
  match fileAt (runtimeFiles runtimeSource) path with
  | some injected => injected = text
  | none => keyPrefix ++ path ∈ (bucket.list keyPrefix).keys ∧ path ≠ "" ∧ path ≠ "__proto__"

theorem allObjects_loadBundleFiles_iff
    (space name runtimeSource : String) :
    AllObjects bucket (bundlePrefix space name ++ "/") runtimeSource
        (loadBundleFiles bucket space name runtimeSource).files ↔
      ∀ path text, (bundlePrefix space name ++ "/" ++ path, text) ∈ bucket.objects →
        Loadable bucket (bundlePrefix space name ++ "/") runtimeSource path text := by
  have hread := fileAt_loadBundleFiles bucket space name runtimeSource
  constructor
  · rintro ⟨hall, -⟩ path text hobject
    have hfound := hall path text hobject
    rw [hread] at hfound
    unfold Loadable
    cases hinjected : fileAt (runtimeFiles runtimeSource) path with
    | some injected =>
      rw [hinjected] at hfound
      exact Option.some.inj hfound
    | none =>
      rw [hinjected, none_or] at hfound
      by_contra hskipped
      rw [if_neg hskipped] at hfound
      cases hfound
  · intro hall
    constructor
    · intro path text hobject
      have hloadable := hall path text hobject
      unfold Loadable at hloadable
      rw [hread]
      cases hinjected : fileAt (runtimeFiles runtimeSource) path with
      | some injected =>
        rw [hinjected] at hloadable
        rw [some_or, hloadable]
      | none =>
        rw [hinjected] at hloadable
        rw [none_or, if_pos hloadable]
        exact bucket.get_eq_some_iff.mpr hobject
    · intro path text hfound
      rw [hread, or_eq_some_iff] at hfound
      rcases hfound with hinjected | ⟨-, hfound⟩
      · exact Or.inl hinjected
      · split at hfound
        · exact Or.inr (bucket.get_eq_some_iff.mp hfound)
        · cases hfound

end CrabbyKit.DispatchHost
