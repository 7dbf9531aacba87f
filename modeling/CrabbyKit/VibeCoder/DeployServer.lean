import CrabbyKit.Apps.Store
import CrabbyKit.Core.Base64
import CrabbyKit.Core.JsonText
import CrabbyKit.Core.Listing
import CrabbyKit.Core.SortedMap
import CrabbyKit.Core.Table
import CrabbyKit.Core.Utf8
import Mathlib.Data.List.Lex
import Mathlib.Data.Char

/-!
# Deployed apps

`deploy-server.ts`: the objects of a deploy are read page by page and written into the script of a
worker, which answers a request by the path of its URL. The cache of the loader keeps a worker for
the objects that it was made from. The headers of an answer are left out.
-/

namespace CrabbyKit.VibeCoder

open List Json Paging
open Apps (toLowerCase)

/-- A path or a key, as its characters. -/
abbrev Path := List Char

abbrev Bytes := List UInt8

abbrev Bucket := SortedMap Path Bytes

def textExtensions : List String :=
  [".html", ".htm", ".js", ".mjs", ".cjs", ".css", ".json", ".svg", ".txt", ".xml", ".webmanifest",
    ".map", ".md"]

/-- `path.slice(path.lastIndexOf("."))`: the last character, when there is no dot. -/
def fromLastDot (path : Path) : Path :=
  if '.' ∈ path then '.' :: (path.reverse.takeWhile (· ≠ '.')).reverse
  else path.drop (path.length - 1)

def isTextFile (path : Path) : Bool :=
  String.ofList ((fromLastDot path).flatMap toLowerCase) ∈ textExtensions

/-- `replace` of every occurrence of a word; the counter passes over the one that was replaced. -/
def replaceAll (word new : List Char) : Nat → List Char → List Char
  | _, [] => []
  | skip + 1, _ :: cs => replaceAll word new skip cs
  | 0, c :: cs =>
    if word.isPrefixOf (c :: cs) then new ++ replaceAll word new (word.length - 1) cs
    else c :: replaceAll word new 0 cs

/-- Absolute asset paths made relative. -/
def rewriteHtml (content : String) : String :=
  String.ofList (replaceAll "href=\"/".toList "href=\"./".toList 0
    (replaceAll "src=\"/".toList "src=\"./".toList 0 content.toList))

def isHtml (path : Path) : Bool := ".html".toList.isSuffixOf path

structure Asset where
  content : String
  binary : Bool

/-- What `loadAssetsFromR2` keeps of an object. -/
def readAsset (relativePath : Path) (bytes : Bytes) : Asset :=
  if isTextFile relativePath then
    let content := decodeText bytes
    ⟨if isHtml relativePath then rewriteHtml content else content, false⟩
  else ⟨String.ofList (btoa bytes), true⟩

def isManifest (key : Path) : Bool := ".manifest.json".toList.isSuffixOf key

/-- The keys that `bucket.list` goes through. -/
def keysUnder (bucket : Bucket) (deployPrefix : Path) : List Path :=
  (bucket.rows.map Prod.fst).filter fun key => deployPrefix.isPrefixOf key

def loadAssetsFromR2 (pages : Pages Path) (bucket : Bucket) (deployPrefix : Path) :
    List (Path × Asset) :=
  (collect pages (keysUnder bucket deployPrefix) (Nat.toPNat 1000) none []).filterMap fun key =>
    if isManifest key then none
    else
      let relativePath := '/' :: key.drop deployPrefix.length
      (bucket.get key).map fun bytes => (relativePath, readAsset relativePath bytes)

/-- What the replacements of `escapeStringForJS` make of a character. -/
def escapeForJS (c : Char) : List Char :=
  if c = '\\' then ['\\', '\\']
  else if c = '"' then ['\\', '"']
  else if c = '\n' then ['\\', 'n']
  else if c = '\r' then []
  else [c]

def escapeStringForJS (text : List Char) : List Char := text.flatMap escapeForJS

def textEntry (path : Path) (content : String) : List Char :=
  ' ' :: ' ' :: quote path ++ ':' :: ' ' :: quote content.toList

def binaryEntry (path : Path) (content : String) : List Char :=
  ' ' :: ' ' :: quote path ++ ':' :: ' ' :: '"' :: escapeStringForJS content.toList ++ ['"']

def literal (entries : List (List Char)) : List Char :=
  '{' :: '\n' :: intercalate [',', '\n'] entries ++ ['\n', '}']

/-- The two object literals of the script that depend on the assets. -/
structure Script where
  textAssets : List Char
  binaryAssets : List Char

def entriesOf (binary : Bool) (assets : List (Path × Asset)) : List (Path × String) :=
  (assets.filter fun asset => asset.2.binary == binary).map fun asset => (asset.1, asset.2.content)

def generateWorkerScript (assets : List (Path × Asset)) : Script where
  textAssets := literal ((entriesOf false assets).map fun e => textEntry e.1 e.2)
  binaryAssets := literal ((entriesOf true assets).map fun e => binaryEntry e.1 e.2)

/-- The members of an object literal of strings, as the engine reads them. -/
def readEntries : Nat → List Char → Option (List (Path × String))
  | 0, _ => none
  | fuel + 1, cs => do
    let key ← readKey cs
    let value ← parseString (← readChar '"' key.2)
    match skipSpace value.2 with
    | ',' :: rest => (readEntries fuel rest).map ((key.1.toList, value.1) :: ·)
    | ['}'] => some [(key.1.toList, value.1)]
    | _ => none

def readLiteral (cs : List Char) : Option (List (Path × String)) := do
  let rest ← readChar '{' cs
  if skipSpace rest = ['}'] then some [] else readEntries rest.length rest

structure Worker where
  textAssets : List (Path × String)
  binaryAssets : List (Path × String)

def Script.start (script : Script) : Option Worker := do
  some ⟨← readLiteral script.textAssets, ← readLiteral script.binaryAssets⟩

inductive Response where
  | ok (body : Bytes)
  /-- "Not Found". -/
  | notFound
  | thrown
  deriving DecidableEq

def member (entries : List (Path × String)) (path : Path) : Option String :=
  (Table.lookup Prod.fst entries path).map Prod.snd

def indexHtml : Path := "/index.html".toList

def assetPath (pathname : Path) : Path := if pathname = ['/'] then indexHtml else pathname

def Worker.fetch (worker : Worker) (pathname : Path) : Response :=
  let path := assetPath pathname
  match member worker.textAssets path with
  | some content => .ok (encodeText content)
  | none =>
    match member worker.binaryAssets path with
    | some content => (atob content.toList).elim .thrown .ok
    | none =>
      match member worker.textAssets indexHtml with
      | some content => .ok (encodeText content)
      | none => .notFound

/-- "No assets found for deploy" is thrown where there are none. -/
def serveDeployFrontend (pages : Pages Path) (bucket : Bucket) (deployPrefix subPath : Path) :
    Response :=
  let assets := loadAssetsFromR2 pages bucket deployPrefix
  if assets.isEmpty then .thrown
  else (generateWorkerScript assets).start.elim .thrown fun worker => worker.fetch subPath

def backendBundleKey : Path := ".backend/bundle.json".toList

/-- The groups of `^\/deploy\/([^/]+)\/([^/]+)(\/.*)?$`. -/
def matchDeploy (pathname : Path) : Option (Path × Path × Path) :=
  if "/deploy/".toList.isPrefixOf pathname then
    let rest := pathname.drop 8
    let rawId := rest.takeWhile (· ≠ '/')
    let rest := (rest.dropWhile (· ≠ '/')).drop 1
    let deployId := rest.takeWhile (· ≠ '/')
    if rawId = [] ∨ deployId = [] then none
    else some (rawId, deployId, rest.dropWhile (· ≠ '/'))
  else none

inductive Answer where
  /-- Not a request for a deploy. -/
  | unmatched
  /-- "Backend not configured". -/
  | unconfigured
  /-- What the worker of the backend answers, or an error where there is no bundle. -/
  | backend (bundle : Option Bytes)
  | frontend (response : Response)
  deriving DecidableEq

def isApi (subPath : Path) : Bool := "/api/".toList.isPrefixOf subPath || subPath = "/api".toList

def deployPrefix (idFromName : Path → Path) (rawId deployId : Path) : Path :=
  (if '-' ∈ rawId then idFromName rawId else rawId) ++ "/deploys/".toList ++ deployId ++ ['/']

/-- `match[3] || "/"`. -/
def subPath (rest : Path) : Path := if rest = [] then ['/'] else rest

def handleDeployRequest (idFromName : Path → Path) (dbService : Bool) (pages : Pages Path)
    (bucket : Bucket) (pathname : Path) : Answer :=
  match matchDeploy pathname with
  | none => .unmatched
  | some (rawId, deployId, rest) =>
    let under := deployPrefix idFromName rawId deployId
    if isApi (subPath rest) then
      if dbService then .backend (bucket.get (under ++ backendBundleKey)) else .unconfigured
    else .frontend (serveDeployFrontend pages bucket under (subPath rest))

/-! The script gives back what was written into it. -/

theorem readKey_entry (path : Path) (rest : List Char) :
    readKey ('\n' :: ' ' :: ' ' :: (quote path ++ ':' :: rest)) =
      some (String.ofList path, rest) := by
  have hspace : skipSpace ('\n' :: ' ' :: ' ' :: (quote path ++ ':' :: rest)) =
      skipSpace (quote path ++ ':' :: rest) := rfl
  have hread := readKey_quote (String.ofList path) rest
  rw [String.toList_ofList] at hread
  rw [← hread]
  simp only [readKey, readChar, hspace]

theorem readChar_value (content rest : List Char) :
    readChar '"' (' ' :: (quote content ++ rest)) =
      some (content.flatMap escapeChar ++ '"' :: rest) := by
  have hquote : quote content ++ rest = '"' :: (content.flatMap escapeChar ++ '"' :: rest) := by
    simp [quote]
  rw [hquote]
  rfl

theorem readEntries_written (entry : Path × String) (entries : List (Path × String)) {fuel : Nat}
    (hfuel : entries.length < fuel) :
    readEntries fuel ('\n' :: intercalate [',', '\n']
      ((entry :: entries).map fun e => textEntry e.1 e.2) ++ ['\n', '}']) =
        some (entry :: entries) := by
  induction entries generalizing entry fuel with
  | nil =>
    obtain ⟨fuel, rfl⟩ := Nat.exists_eq_add_one_of_ne_zero (Nat.ne_zero_of_lt hfuel)
    have htext : '\n' :: intercalate [',', '\n'] ([entry].map fun e => textEntry e.1 e.2) ++
        ['\n', '}'] = '\n' :: ' ' :: ' ' :: (quote entry.1 ++ ':' ::
          (' ' :: (quote entry.2.toList ++ ['\n', '}']))) := by
      simp [textEntry]
    rw [htext, readEntries, readKey_entry]
    simp only [Option.bind_eq_bind, Option.bind_some]
    rw [readChar_value]
    simp only [Option.bind_some, parseString_quote, String.toList_ofList]
    rfl
  | cons next entries ih =>
    obtain ⟨fuel, rfl⟩ := Nat.exists_eq_add_one_of_ne_zero (Nat.ne_zero_of_lt hfuel)
    have htext : '\n' :: intercalate [',', '\n']
        ((entry :: next :: entries).map fun e => textEntry e.1 e.2) ++ ['\n', '}'] =
        '\n' :: ' ' :: ' ' :: (quote entry.1 ++ ':' :: (' ' :: (quote entry.2.toList ++ ',' ::
          ('\n' :: intercalate [',', '\n'] ((next :: entries).map fun e => textEntry e.1 e.2) ++
            ['\n', '}'])))) := by
      simp [textEntry, intercalate_cons_cons]
    rw [htext, readEntries, readKey_entry]
    simp only [Option.bind_eq_bind, Option.bind_some]
    rw [readChar_value]
    simp only [Option.bind_some, parseString_quote, String.toList_ofList]
    rw [skipSpace_cons (by decide)]
    simp only [ih next (Nat.lt_of_succ_lt_succ hfuel), Option.map_some]

theorem intercalate_textEntry (entry : Path × String) (entries : List (Path × String)) :
    ∃ tail, entries.length ≤ tail.length ∧
      intercalate [',', '\n'] ((entry :: entries).map fun e => textEntry e.1 e.2) =
        textEntry entry.1 entry.2 ++ tail := by
  induction entries generalizing entry with
  | nil => exact ⟨[], le_rfl, by simp⟩
  | cons next entries ih =>
    obtain ⟨tail, hlength, htail⟩ := ih next
    refine ⟨[',', '\n'] ++ (textEntry next.1 next.2 ++ tail), ?_, ?_⟩
    · simp only [length_cons, length_append]
      omega
    · rw [← htail]
      simp [intercalate_cons_cons]

theorem readLiteral_literal (entries : List (Path × String)) :
    readLiteral (literal (entries.map fun e => textEntry e.1 e.2)) = some entries := by
  cases entries with
  | nil => rfl
  | cons entry entries =>
    have hread : readChar '{' (literal ((entry :: entries).map fun e => textEntry e.1 e.2)) =
        some ('\n' :: intercalate [',', '\n']
          ((entry :: entries).map fun e => textEntry e.1 e.2) ++ ['\n', '}']) := rfl
    obtain ⟨tail, hlength, htail⟩ := intercalate_textEntry entry entries
    rw [readLiteral, hread]
    simp only [Option.bind_eq_bind, Option.bind_some]
    rw [if_neg, readEntries_written]
    · rw [htail]
      simp only [length_cons, length_append]
      omega
    · rw [htail]
      intro h
      cases h

theorem escape_base64 : ∀ n < 64, escapeChar (encodeSextet n) = [encodeSextet n] ∧
    escapeForJS (encodeSextet n) = [encodeSextet n] := by
  decide

theorem binaryEntry_btoa (path : Path) (bytes : Bytes) :
    binaryEntry path (String.ofList (btoa bytes)) =
      textEntry path (String.ofList (btoa bytes)) := by
  have hplain : ∀ c ∈ btoa bytes, escapeChar c = [c] ∧ escapeForJS c = [c] := by
    intro c hc
    rcases mem_append.mp hc with h | h
    · obtain ⟨n, hn, rfl⟩ := mem_map.mp h
      exact escape_base64 n (sextets_lt bytes n hn)
    · rw [eq_of_mem_replicate h]
      decide
  have hescape : (btoa bytes).flatMap escapeChar = escapeStringForJS (btoa bytes) := by
    refine flatMap_congr fun c hc => ?_
    rw [(hplain c hc).1, (hplain c hc).2]
  simp [binaryEntry, textEntry, quote, hescape]

def files (bucket : Bucket) (deployPrefix : Path) : Path → Option Bytes
  | '/' :: name =>
    if isManifest (deployPrefix ++ name) then none else bucket.get (deployPrefix ++ name)
  | _ => none

theorem mem_loadAssets {pages : Pages Path} {bucket : Bucket} {deployPrefix path : Path}
    {asset : Asset} : (path, asset) ∈ loadAssetsFromR2 pages bucket deployPrefix ↔
      ∃ bytes, files bucket deployPrefix path = some bytes ∧ readAsset path bytes = asset := by
  have hsorted : (keysUnder bucket deployPrefix).Pairwise (· < ·) :=
    (pairwise_map.mpr bucket.sorted).filter _
  have hdrop : ∀ name, (deployPrefix ++ name).drop deployPrefix.length = name := fun name =>
    drop_left
  rw [loadAssetsFromR2, collect_eq pages hsorted, after_none, nil_append, mem_filterMap]
  constructor
  · rintro ⟨key, hkey, hasset⟩
    obtain ⟨name, rfl⟩ := isPrefixOf_iff_prefix.mp (of_mem_filter hkey)
    split_ifs at hasset with hmanifest
    rw [hdrop] at hasset
    obtain ⟨bytes, hbytes, heq⟩ := Option.map_eq_some_iff.mp hasset
    obtain ⟨rfl, rfl⟩ := Prod.mk.inj heq
    exact ⟨bytes, (if_neg hmanifest).trans hbytes, rfl⟩
  · rintro ⟨bytes, hbytes, rfl⟩
    unfold files at hbytes
    split at hbytes
    · rename_i name
      split_ifs at hbytes with hmanifest
      refine ⟨deployPrefix ++ name, mem_filter.mpr ⟨?_, ?_⟩, ?_⟩
      · exact mem_map.mpr ⟨_, (SortedMap.get_eq_some_iff bucket).mp hbytes, rfl⟩
      · exact isPrefixOf_iff_prefix.mpr (prefix_append _ _)
      · rw [if_neg hmanifest, hdrop, hbytes]
        rfl
    · cases hbytes

theorem member_eq {entries : List (Path × String)} {content : Path → Option String}
    (h : ∀ path text, (path, text) ∈ entries ↔ content path = some text) (path : Path) :
    member entries path = content path := by
  unfold member
  cases hfound : Table.lookup Prod.fst entries path with
  | none =>
    cases hcontent : content path with
    | none => rfl
    | some text =>
      exact absurd rfl (Table.lookup_eq_none.mp hfound (path, text) ((h path text).mpr hcontent))
  | some entry =>
    obtain ⟨hmem, rfl⟩ := Table.mem_of_lookup hfound
    exact ((h entry.1 entry.2).mp hmem).symm

def body (path : Path) (bytes : Bytes) : Bytes :=
  if isTextFile path then encodeText (readAsset path bytes).content else bytes

noncomputable def answer (site : Path → Option Bytes) (subPath : Path) : Response :=
  open Classical in
  match site (assetPath subPath) with
  | some bytes => .ok (body (assetPath subPath) bytes)
  | none =>
    match site indexHtml with
    | some bytes => .ok (body indexHtml bytes)
    | none => if ∃ path, site path ≠ none then .notFound else .thrown

/-- The assets are what is kept of the files. -/
def Loaded (site : Path → Option Bytes) (assets : List (Path × Asset)) : Prop :=
  ∀ path asset, (path, asset) ∈ assets ↔
    ∃ bytes, site path = some bytes ∧ readAsset path bytes = asset

/-- The member of `TEXT_ASSETS` for a file, or of `BINARY_ASSETS`. -/
def contentOf (binary : Bool) (site : Path → Option Bytes) (path : Path) : Option String :=
  if isTextFile path = binary then none
  else (site path).map fun bytes => (readAsset path bytes).content

variable {site : Path → Option Bytes} {assets : List (Path × Asset)}

theorem readAsset_binary (path : Path) (bytes : Bytes) :
    (readAsset path bytes).binary = !isTextFile path := by
  unfold readAsset
  split_ifs with htext <;> simp [htext]

theorem content_of_binary {path : Path} {bytes : Bytes} (h : isTextFile path = false) :
    (readAsset path bytes).content = String.ofList (btoa bytes) := by
  rw [readAsset, if_neg (ne_true_of_eq_false h)]

theorem mem_entriesOf (hassets : Loaded site assets) (binary : Bool) (path : Path) (text : String) :
    (path, text) ∈ entriesOf binary assets ↔ contentOf binary site path = some text := by
  rw [entriesOf, mem_map, contentOf]
  constructor
  · rintro ⟨asset, hasset, heq⟩
    obtain ⟨rfl, rfl⟩ := Prod.mk.inj heq
    obtain ⟨hmem, hkind⟩ := mem_filter.mp hasset
    obtain ⟨bytes, hbytes, hread⟩ := (hassets asset.1 asset.2).mp hmem
    rw [beq_iff_eq, ← hread, readAsset_binary] at hkind
    rw [if_neg (by rw [← hkind]; exact Bool.self_ne_not _), hbytes, ← hread]
    rfl
  · intro h
    split_ifs at h with hkind
    obtain ⟨bytes, hbytes, rfl⟩ := Option.map_eq_some_iff.mp h
    refine ⟨(path, readAsset path bytes), mem_filter.mpr ⟨?_, ?_⟩, rfl⟩
    · exact (hassets _ _).mpr ⟨bytes, hbytes, rfl⟩
    · rw [beq_iff_eq, readAsset_binary]
      exact Bool.not_eq.mpr hkind

theorem start_generate (hassets : Loaded site assets) :
    (generateWorkerScript assets).start = some ⟨entriesOf false assets, entriesOf true assets⟩ := by
  have hbinary : ((entriesOf true assets).map fun e => binaryEntry e.1 e.2) =
      (entriesOf true assets).map fun e => textEntry e.1 e.2 := by
    refine map_congr_left fun e he => ?_
    have hcontent := (mem_entriesOf hassets true e.1 e.2).mp he
    unfold contentOf at hcontent
    split_ifs at hcontent with hkind
    obtain ⟨bytes, -, htext⟩ := Option.map_eq_some_iff.mp hcontent
    rw [← htext, content_of_binary (eq_false_of_ne_true hkind), binaryEntry_btoa]
  simp only [Script.start, generateWorkerScript, hbinary, readLiteral_literal]
  rfl

theorem serveDeployFrontend_eq (pages : Pages Path) (bucket : Bucket)
    (deployPrefix subPath : Path) :
    serveDeployFrontend pages bucket deployPrefix subPath =
      answer (files bucket deployPrefix) subPath := by
  have hassets : Loaded (files bucket deployPrefix) (loadAssetsFromR2 pages bucket deployPrefix) :=
    fun path asset => mem_loadAssets
  unfold serveDeployFrontend
  generalize loadAssetsFromR2 pages bucket deployPrefix = assets at hassets
  generalize files bucket deployPrefix = site at hassets ⊢
  have hmember : ∀ binary, member (entriesOf binary assets) = contentOf binary site :=
    fun binary => funext (member_eq (mem_entriesOf hassets binary))
  have hnone : ∀ binary path, site path = none → contentOf binary site path = none := by
    intro binary path h
    simp [contentOf, h]
  simp only [start_generate hassets]
  cases assets with
  | nil =>
    have hempty : ∀ path, site path = none := by
      intro path
      cases hpath : site path with
      | none => rfl
      | some bytes => cases (hassets path _).mpr ⟨bytes, hpath, rfl⟩
    simp [answer, hempty]
  | cons asset assets =>
    obtain ⟨bytes, hbytes, -⟩ := (hassets asset.1 asset.2).mp mem_cons_self
    have hsome : ∃ path, site path ≠ none := ⟨asset.1, by rw [hbytes]; exact Option.some_ne_none _⟩
    simp only [isEmpty_cons, Bool.false_eq_true, if_false, Option.elim, Worker.fetch, hmember,
      answer]
    cases hpath : site (assetPath subPath) with
    | none =>
      rw [hnone _ _ hpath, hnone _ _ hpath]
      cases hindex : site indexHtml with
      | none => simp only [hnone _ _ hindex, if_pos hsome]
      | some index =>
        have htext : isTextFile indexHtml = true := by decide +kernel
        simp [contentOf, htext, hindex, body]
    | some bytes =>
      cases htext : isTextFile (assetPath subPath) with
      | true => simp [contentOf, htext, hpath, body]
      | false => simp [contentOf, htext, hpath, body, content_of_binary htext, atob_btoa]

/-- What a deploy answers: a stored file, else the index, else that nothing was found; and no
manifest has a part in it. -/
structure Serves (pages : Pages Path) (bucket : Bucket) (under pathname : Path) (r : Response) :
    Prop where
  file : ∀ name bytes, assetPath pathname = '/' :: name → name ≠ backendBundleKey →
    isManifest (under ++ name) = false → bucket.get (under ++ name) = some bytes →
      (isTextFile ('/' :: name) = false → r = .ok bytes) ∧
      ∀ text : String, isTextFile ('/' :: name) = true → bytes = encodeText text →
        text.toList.head? ≠ some '\uFEFF' →
          r = .ok (encodeText (if isHtml ('/' :: name) then rewriteHtml text else text))
  other : (∀ name, assetPath pathname = '/' :: name →
      isManifest (under ++ name) = false → bucket.get (under ++ name) = none) →
    (∀ text, bucket.get (under ++ "index.html".toList) = some (encodeText text) →
      text.toList.head? ≠ some '\uFEFF' → r = .ok (encodeText (rewriteHtml text))) ∧
    (bucket.get (under ++ "index.html".toList) = none →
      (∃ name, isManifest (under ++ name) = false ∧ bucket.get (under ++ name) ≠ none) →
        r = .notFound)
  manifest : ∀ bucket' : Bucket,
    (∀ key, isManifest key = false → bucket'.get key = bucket.get key) →
      serveDeployFrontend pages bucket' under pathname = r

variable {pages : Pages Path} {bucket : Bucket} {under name pathname : Path} {bytes : Bytes}

theorem files_eq (h : isManifest (under ++ name) = false) :
    files bucket under ('/' :: name) = bucket.get (under ++ name) :=
  if_neg (ne_true_of_eq_false h)

theorem files_index : files bucket under indexHtml = bucket.get (under ++ "index.html".toList) := by
  refine files_eq ?_
  rw [isManifest, isSuffixOf, reverse_append]
  rfl

theorem body_text {text : String} (htext : isTextFile ('/' :: name) = true)
    (hmark : text.toList.head? ≠ some '\uFEFF') : body ('/' :: name) (encodeText text) =
      encodeText (if isHtml ('/' :: name) then rewriteHtml text else text) := by
  rw [body, if_pos htext, readAsset, if_pos htext, decodeText_encodeText hmark]

theorem serves (pages : Pages Path) (bucket : Bucket) (under pathname : Path) :
    Serves pages bucket under pathname (serveDeployFrontend pages bucket under pathname) where
  file := by
    intro name bytes hpath _ hmanifest hbytes
    have hanswer : serveDeployFrontend pages bucket under pathname =
        .ok (body ('/' :: name) bytes) := by
      rw [serveDeployFrontend_eq, answer, hpath, files_eq hmanifest, hbytes]
    rw [hanswer]
    refine ⟨fun htext => ?_, fun text htext heq hmark => ?_⟩
    · rw [body, if_neg (ne_true_of_eq_false htext)]
    · rw [heq, body_text htext hmark]
  other := by
    intro hother
    have hnone : files bucket under (assetPath pathname) = none := by
      cases hpath : assetPath pathname with
      | nil => rfl
      | cons c name =>
        by_cases hc : c = '/'
        · subst hc
          cases hmanifest : isManifest (under ++ name) with
          | true => exact if_pos hmanifest
          | false => exact (files_eq hmanifest).trans (hother name hpath hmanifest)
        · unfold files
          split
          · rename_i heq
            exact absurd (cons.inj heq).1 hc
          · rfl
    rw [serveDeployFrontend_eq, answer, hnone]
    refine ⟨fun text hindex hmark => ?_, fun hindex hsome => ?_⟩
    · simp only [files_index, hindex]
      exact congrArg Response.ok (body_text (by decide +kernel) hmark)
    · obtain ⟨name, hmanifest, hname⟩ := hsome
      simp only [files_index, hindex]
      exact if_pos ⟨'/' :: name, by rwa [files_eq hmanifest]⟩
  manifest := by
    intro bucket' hsame
    have hfiles : files bucket' under = files bucket under := by
      funext path
      unfold files
      split
      · split_ifs with hmanifest
        · rfl
        · exact hsame _ (eq_false_of_ne_true hmanifest)
      · rfl
    rw [serveDeployFrontend_eq, serveDeployFrontend_eq, hfiles]

theorem deploy_serves {idFromName : Path → Path} {dbService : Bool} {rawId deployId rest : Path}
    (hmatch : matchDeploy pathname = some (rawId, deployId, rest))
    (hapi : isApi (subPath rest) = false) :
    ∃ r, handleDeployRequest idFromName dbService pages bucket pathname = .frontend r ∧
      Serves pages bucket (deployPrefix idFromName rawId deployId) (subPath rest) r := by
  refine ⟨_, ?_, serves pages bucket (deployPrefix idFromName rawId deployId) (subPath rest)⟩
  simp only [handleDeployRequest, hmatch, hapi, Bool.false_eq_true, if_false]

theorem deploy_serves_index :
    ∃ r, handleDeployRequest id false Pages.full
        (SortedMap.empty.put "a/deploys/d/index.html".toList (encodeText "<p>"))
        "/deploy/a/d".toList = .frontend r ∧
      Serves Pages.full (SortedMap.empty.put "a/deploys/d/index.html".toList (encodeText "<p>"))
        (deployPrefix id ['a'] ['d']) ['/'] r :=
  deploy_serves (show matchDeploy "/deploy/a/d".toList = some (['a'], ['d'], []) by decide +kernel)
    (by decide +kernel)

theorem apiFile_unconfigured (bucket : Bucket) :
    handleDeployRequest id false Pages.full bucket "/deploy/a/d/api/logo.png".toList =
      .unconfigured := by
  have hmatch : matchDeploy "/deploy/a/d/api/logo.png".toList =
      some (['a'], ['d'], "/api/logo.png".toList) := by decide +kernel
  have hapi : isApi (subPath "/api/logo.png".toList) = true := by decide +kernel
  simp only [handleDeployRequest, hmatch, hapi, if_true, Bool.false_eq_true, if_false]

/-- A file under `api/` is asked of the backend; and the bundle of the backend is a file. -/
theorem deploy_not_as_stored :
    (¬ ∀ (bucket : Bucket) (name : Path) (bytes : Bytes),
      bucket.get ("a/deploys/d/".toList ++ name) = some bytes →
        handleDeployRequest id false Pages.full bucket ("/deploy/a/d/".toList ++ name) =
          .frontend (.ok bytes)) ∧
    ¬ ∀ (bucket : Bucket) (pathname : Path) (bundle : Bytes),
      bucket.get ("a/deploys/d/".toList ++ backendBundleKey) = some bundle →
        handleDeployRequest id false Pages.full bucket pathname ≠ .frontend (.ok bundle) := by
  constructor
  · intro h
    have hserved := h (SortedMap.empty.put ("a/deploys/d/".toList ++ "api/logo.png".toList) [0])
      "api/logo.png".toList [0] (SortedMap.get_put _ _ _)
    cases (apiFile_unconfigured _).symm.trans hserved
  · intro h
    have hmatch : matchDeploy "/deploy/a/d/.backend/bundle.json".toList =
        some (['a'], ['d'], '/' :: backendBundleKey) := by decide +kernel
    have hapi : isApi (subPath ('/' :: backendBundleKey)) = false := by decide +kernel
    have hpath : assetPath (subPath ('/' :: backendBundleKey)) = '/' :: backendBundleKey := by
      decide +kernel
    refine h (SortedMap.empty.put (deployPrefix id ['a'] ['d'] ++ backendBundleKey)
      (encodeText "{}")) "/deploy/a/d/.backend/bundle.json".toList (encodeText "{}")
      (SortedMap.get_put _ _ _) ?_
    simp only [handleDeployRequest, hmatch, hapi, Bool.false_eq_true, if_false]
    rw [serveDeployFrontend_eq, answer, hpath, files_eq (by decide +kernel), SortedMap.get_put]
    exact congrArg (Answer.frontend ∘ Response.ok)
      (body_text (by decide +kernel) (by decide +kernel))

end CrabbyKit.VibeCoder
