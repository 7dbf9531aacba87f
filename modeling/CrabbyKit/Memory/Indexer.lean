import CrabbyKit.Core.Run
import CrabbyKit.Memory.Chunker
import Mathlib.Order.Lattice

/-!
# The index of memory files

`indexDocument` and `removeDocument` of `indexer.ts` and the hook of `capability.ts`, behind the
file tools. Only the embedding may fail; the vector index and the storage do what they are told. All
vectors carry the namespace of the one agent, which is left out.
-/

namespace CrabbyKit.Memory

open Files (Bucket fileWrite fileEdit fileDelete)

def vectorId (path : String) (startLine : Nat) : String := path ++ ":" ++ Nat.repr startLine

structure IndexedVector (Values : Type) where
  values : Values
  path : String
  startLine : Nat
  endLine : Nat
  hash : String
  deriving DecidableEq, Repr

/-- A `Record<string, string>` from start lines to hashes. -/
abbrev Hashes := Nat → Option String

/-- `newHashes`. -/
def hashesOf (chunks : List Chunk) : Hashes :=
  chunks.foldl (fun hashes c => Function.update hashes c.startLine (some c.hash)) fun _ => none

structure IndexResult where
  chunksTotal : Nat := 0
  chunksEmbedded : Nat := 0
  vectorsDeleted : Nat := 0
  deriving DecidableEq, Repr

/-- `EmbedFn`: the texts of one call, and a vector for each of them. -/
abbrev EmbedFn (Values : Type) := List String → Except String (List Values)

variable {Values : Type}

abbrev VectorizeIndex (Values : Type) := String → Option (IndexedVector Values)

def upsert (vectors : VectorizeIndex Values) (payload : List (String × IndexedVector Values)) :
    VectorizeIndex Values :=
  payload.foldl (fun vectors entry => Function.update vectors entry.1 (some entry.2)) vectors

def deleteByIds (vectors : VectorizeIndex Values) (ids : List String) : VectorizeIndex Values :=
  fun id => if id ∈ ids then none else vectors id

/-- The files, what is stored of each document, and the vector index. -/
structure Stores (Values : Type) where
  bucket : Bucket := fun _ => none
  /-- `hashes:path`. -/
  hashes : String → Option Hashes := fun _ => none
  /-- `vectors:path`. -/
  vectorIds : String → Option (List String) := fun _ => none
  vectors : VectorizeIndex Values := fun _ => none
  /-- Whether the last attempt at a path was given up and logged. -/
  failed : String → Bool := fun _ => false

namespace Stores

variable (sha256Hex : String → String) (s : Stores Values)

def oldHashes (path : String) : Hashes := (s.hashes path).getD fun _ => none

def oldIds (path : String) : List String := (s.vectorIds path).getD []

def changedChunks (path : String) (chunks : List Chunk) : List Chunk :=
  chunks.filter fun c => s.oldHashes path c.startLine ≠ some c.hash

def upsertPayload (path : String) (chunks : List Chunk) (vectors : List Values) :
    List (String × IndexedVector Values) :=
  (chunks.zip vectors).map fun (chunk, values) =>
    (vectorId path chunk.startLine, ⟨values, path, chunk.startLine, chunk.endLine, chunk.hash⟩)

/-- The vectors after the changed chunks, and how many of them were embedded. A short answer is
logged, and nothing is upserted. -/
def embedChanged (path : String) (changed : List Chunk) (embed : EmbedFn Values) :
    Except String (VectorizeIndex Values × Nat) :=
  if changed = [] then .ok (s.vectors, 0)
  else
    match embed (changed.map Chunk.content) with
    | .error err => .error err
    | .ok vectors =>
      if vectors.length = changed.length then
        .ok (upsert s.vectors (upsertPayload path changed vectors), changed.length)
      else .ok (s.vectors, 0)

def indexDocument (path content : String) (embed : EmbedFn Values) : Stores Values × IndexResult :=
  let chunks := chunkMarkdown sha256Hex content
  let newIds := chunks.map fun c => vectorId path c.startLine
  match s.embedChanged path (s.changedChunks path chunks) embed with
  | .error _ => ({ s with failed := Function.update s.failed path true }, {})
  | .ok (vectors, chunksEmbedded) =>
    let staleIds := (s.oldIds path).filter fun id => id ∉ newIds
    ({ s with
        vectors := deleteByIds vectors staleIds
        hashes := Function.update s.hashes path (some (hashesOf chunks))
        vectorIds := Function.update s.vectorIds path (some newIds)
        failed := Function.update s.failed path false },
      ⟨chunks.length, chunksEmbedded, staleIds.length⟩)

def removeDocument (path : String) : Stores Values × Nat :=
  ({ s with
      vectors := deleteByIds s.vectors (s.oldIds path)
      hashes := Function.update s.hashes path none
      vectorIds := Function.update s.vectorIds path none
      failed := Function.update s.failed path false },
    (s.oldIds path).length)

end Stores

inductive ToolCall (Values : Type)
  | write (path content : String) (embed : EmbedFn Values)
  | edit (path oldString newString : String) (replaceAll : Option Bool) (embed : EmbedFn Values)
  | delete (path : String)

def ToolCall.path : ToolCall Values → String
  | .write path _ _ => path
  | .edit path _ _ _ _ => path
  | .delete path => path

/-- A file tool and then `afterToolExecution`, which is given the path as it was passed to the tool.
The tools answer their errors as results, so the hook runs after them too. An edit with an empty
text to find does not return. -/
def step (sha256Hex : String → String) (shouldIndex : String → Bool) (s : Stores Values) :
    ToolCall Values → Stores Values
  | .write path content embed =>
    let s := { s with bucket := (fileWrite path content s.bucket).2 }
    if !shouldIndex path then s
    else if content = "" then s
    else (s.indexDocument sha256Hex path content embed).1
  | .edit path oldString newString replaceAll embed =>
    match fileEdit path oldString newString replaceAll s.bucket with
    | none => s
    | some (_, bucket) =>
      let s := { s with bucket }
      if !shouldIndex path then s
      else
        match s.bucket path with
        | none => s
        | some content => (s.indexDocument sha256Hex path content embed).1
  | .delete path =>
    let s := { s with bucket := (fileDelete path s.bucket).2 }
    if !shouldIndex path then s else s.removeDocument path |>.1

def isMemoryPath (path : String) : Bool :=
  path.toList.map Char.toLower = "memory.md".toList ||
    ("memory/".toList.isPrefixOf path.toList && ".md".toList.isSuffixOf path.toList)

end CrabbyKit.Memory
