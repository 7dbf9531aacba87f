import CrabbyKit.Core.ParentWalk
import CrabbyKit.Core.Run
import CrabbyKit.Core.Table
import CrabbyKit.Session.Types

/-!
# The session store

`SessionStore` of `session/session-store.ts` over its two SQL tables. Statements
run exactly as written; ids drawn from `nanoid` and clock readings are arguments.
The leaf-to-root loops run with one unit of fuel per entry of the session, and an
exhausted walk is the separate outcome `StoreError.endlessWalk`.
-/

namespace CrabbyKit

/-- Rows of `sessions` and `session_entries`, each table in insertion order. -/
structure SessionStore where
  sessions : List Session := []
  entries : List SessionEntry := []
  deriving DecidableEq, Repr

/-- Ways a store operation fails to return. -/
inductive StoreError
  | sessionNotFound (sessionId : String)
  | entryNotFound (entryId sessionId : String)
  | notRetrieved (id : String)
  | uniqueConstraint (column : String)
  | endlessWalk
  deriving DecidableEq, Repr

/-- The text of the thrown error; an endless walk throws nothing. -/
def StoreError.message : StoreError → Option String
  | .sessionNotFound sessionId => some s!"Session not found: {sessionId}"
  | .entryNotFound entryId sessionId => some s!"Entry not found: {entryId} in session {sessionId}"
  | .notRetrieved id => some s!"Failed to retrieve session immediately after creation: {id}"
  | .uniqueConstraint column => some s!"UNIQUE constraint failed: {column}"
  | .endlessWalk => none

/-- Options of `SessionStore.create`. -/
structure CreateOpts where
  name : Option String := none
  source : Option String := none
  sender : Option String := none
  deriving DecidableEq, Repr

namespace SessionStore

def defaultSessionSource : String := "websocket"

/-- `SELECT * FROM sessions WHERE id = ?`. -/
def get (st : SessionStore) (sessionId : String) : Option Session :=
  Table.lookup Session.id st.sessions sessionId

def findBySourceAndSender (st : SessionStore) (source sender : String) : Option Session :=
  st.sessions.find? fun s => s.source = source ∧ s.sender = some sender

/-- `SELECT * FROM sessions ORDER BY updated_at DESC`. -/
def list (st : SessionStore) : List Session :=
  st.sessions.insertionSort fun a b => b.updatedAt.le a.updatedAt

/-- Insert a session row under a fresh id and read it back. -/
def create (st : SessionStore) (opts : CreateOpts) (nanoid : String) (now : Instant) :
    Except StoreError (SessionStore × Session) :=
  if (st.get nanoid).isSome then .error (.uniqueConstraint "sessions.id")
  else
    let row : Session :=
      { id := nanoid
        name := opts.name.getD ""
        source := opts.source.getD defaultSessionSource
        sender := opts.sender
        leafId := none
        activeModeId := none
        createdAt := datetimeNow now
        updatedAt := datetimeNow now }
    let st' : SessionStore := { st with sessions := st.sessions ++ [row] }
    match st'.get nanoid with
    | none => .error (.notRetrieved nanoid)
    | some session => .ok (st', session)

/-- Delete a session row; its entries go by the foreign-key cascade. -/
def delete (st : SessionStore) (sessionId : String) : SessionStore :=
  { sessions := st.sessions.filter fun s => s.id ≠ sessionId
    entries := st.entries.filter fun e => e.sessionId ≠ sessionId }

/-- `UPDATE sessions SET ... WHERE id = ?`. -/
def updateSession (st : SessionStore) (sessionId : String) (f : Session → Session) : SessionStore :=
  { st with sessions := Table.modify Session.id sessionId f st.sessions }

def rename (st : SessionStore) (sessionId name : String) (now : Instant) : SessionStore :=
  st.updateSession sessionId fun s => { s with name := name, updatedAt := datetimeNow now }

/-- `SELECT * FROM session_entries WHERE session_id = ? ORDER BY seq`. -/
def getEntries (st : SessionStore) (sessionId : String) : List SessionEntry :=
  (st.entries.filter fun e => e.sessionId = sessionId).insertionSort fun a b => a.seq ≤ b.seq

/-- `SELECT COALESCE(MAX(seq), 0) + 1 FROM session_entries WHERE session_id = ?`. -/
def nextSeq (st : SessionStore) (sessionId : String) : Nat :=
  ((st.entries.filter fun e => e.sessionId = sessionId).map SessionEntry.seq).foldl max 0 + 1

def ModeChangeEntryData.nextActiveModeId : ModeChangeEntryData → Option String
  | .enter modeId => some modeId
  | .exit _ => none

/-- The session row after an entry was appended: the new leaf, the clock, and for a
mode change the cached mode, all in one statement. -/
def advanceLeaf (id : String) (data : EntryData) (now : Instant) (s : Session) : Session :=
  match data with
  | .modeChange d =>
    { s with
      leafId := some id, updatedAt := toISOString now,
      activeModeId := ModeChangeEntryData.nextActiveModeId d }
  | _ => { s with leafId := some id, updatedAt := toISOString now }

def appendEntry (st : SessionStore) (sessionId : String) (data : EntryData) (nanoid : String)
    (now : Instant) : Except StoreError (SessionStore × SessionEntry) :=
  match st.get sessionId with
  | none => .error (.sessionNotFound sessionId)
  | some session =>
    if (Table.lookup SessionEntry.id st.entries nanoid).isSome then
      .error (.uniqueConstraint "session_entries.id")
    else
      let entry : SessionEntry :=
        { id := nanoid
          parentId := session.leafId
          sessionId := sessionId
          seq := st.nextSeq sessionId
          data := data
          createdAt := toISOString now }
      let inserted : SessionStore := { st with entries := st.entries ++ [entry] }
      .ok (inserted.updateSession sessionId (advanceLeaf nanoid data now), entry)

/-- A nullable text column that is neither null nor empty. -/
def truthy : Option String → Option String
  | some s => if s = "" then none else some s
  | none => none

def entryMap (st : SessionStore) (sessionId : String) : String → Option SessionEntry :=
  Table.index SessionEntry.id (st.getEntries sessionId)

/-- One step of a leaf-to-root loop. -/
def parentIn (entryMap : String → Option SessionEntry) (e : SessionEntry) : Option SessionEntry :=
  (truthy e.parentId).bind entryMap

/-- The entries met from a leaf up to the root, leaf first. -/
def walkFrom (st : SessionStore) (sessionId leafId : String) : Option (List SessionEntry) :=
  let entries := st.getEntries sessionId
  let map := st.entryMap sessionId
  ParentWalk.walk (parentIn map) entries.length (map leafId)

/-- The path the context is built from, root first. -/
def activePath (st : SessionStore) (sessionId : String) : Option (List SessionEntry) :=
  match (st.get sessionId).bind fun s => truthy s.leafId with
  | none => some []
  | some leafId => (st.walkFrom sessionId leafId).map List.reverse

/-- Scan the first `i` entries of a path from the end for a compaction entry. -/
def findCompaction (path : List SessionEntry) : Nat → Option (Nat × CompactionEntryData)
  | 0 => none
  | i + 1 =>
    match path[i]?.map SessionEntry.data with
    | some (.compaction d) => some (i, d)
    | _ => findCompaction path i

/-- The index the kept messages start at and the summary that replaces the others. -/
def compactionBoundary (path : List SessionEntry) : Nat × Option String :=
  match findCompaction path path.length with
  | none => (0, none)
  | some (i, d) =>
    ((path.findIdx? fun e => some e.id = d.firstKeptEntryId).getD (i + 1), some d.summary)

/-- The message that stands for the compacted part of a context. -/
def summaryMessage (summary : String) (now : Instant) : AgentMessage :=
  { role := .user
    content := .plain ("[Previous conversation summary]\n\n" ++ summary)
    timestamp := now }

def entryMessage (now : Instant) (d : MessageEntryData) : AgentMessage :=
  match d.role with
  | .toolResult =>
    { role := .toolResult
      content := match d.content with
        | .plain text => .blocks [.text text]
        | .blocks bs => .blocks bs
      toolCallId := some (d.toolCallId.getD "")
      toolName := d.toolName
      isError := d.isError
      timestamp := d.timestamp.getD now
      metadata := d.metadata }
  | role =>
    { role := role
      content := d.content
      timestamp := d.timestamp.getD now
      metadata := d.metadata }

def toContextMessage (now : Instant) (e : SessionEntry) : Option AgentMessage :=
  match e.data with
  | .message d => some (entryMessage now d)
  | _ => none

def contextOfPath (path : List SessionEntry) (now : Instant) : List AgentMessage :=
  let (startIndex, compactionSummary) := compactionBoundary path
  let summary := match truthy compactionSummary with
    | some s => [summaryMessage s now]
    | none => []
  summary ++ (path.drop startIndex).filterMap (toContextMessage now)

def buildContext (st : SessionStore) (sessionId : String) (now : Instant) :
    Except StoreError (List AgentMessage) :=
  match (st.get sessionId).bind fun s => truthy s.leafId with
  | none => .ok []
  | some leafId =>
    if (st.getEntries sessionId).isEmpty then .ok []
    else
      match st.walkFrom sessionId leafId with
      | none => .error .endlessWalk
      | some visited => .ok (contextOfPath visited.reverse now)

def modeAnswer (e : SessionEntry) : Option (Option String) :=
  match e.data with
  | .modeChange (.exit _) => some none
  | .modeChange (.enter modeId) => some (some modeId)
  | _ => none

def walkActiveModeIdAt (st : SessionStore) (sessionId leafEntryId : String) :
    Except StoreError (Option String) :=
  let entries := st.getEntries sessionId
  let map := st.entryMap sessionId
  match ParentWalk.search (parentIn map) modeAnswer entries.length (map leafEntryId) with
  | none => .error .endlessWalk
  | some found => .ok found.join

/-- Move the leaf to an entry of the session and reseed the mode cache. -/
def branch (st : SessionStore) (sessionId fromEntryId : String) (now : Instant) :
    Except StoreError SessionStore :=
  match st.entries.find? fun e => e.id = fromEntryId ∧ e.sessionId = sessionId with
  | none => .error (.entryNotFound fromEntryId sessionId)
  | some _ => do
    let activeModeIdAtBranch ← st.walkActiveModeIdAt sessionId fromEntryId
    return st.updateSession sessionId fun s =>
      { s with
        leafId := some fromEntryId
        updatedAt := datetimeNow now
        activeModeId := activeModeIdAtBranch }

def setActiveMode (st : SessionStore) (sessionId : String) (modeId : Option String)
    (now : Instant) : SessionStore :=
  st.updateSession sessionId fun s =>
    { s with activeModeId := modeId, updatedAt := datetimeNow now }

def readActiveModeId (st : SessionStore) (sessionId : String) : Option String :=
  (st.get sessionId).bind Session.activeModeId

/-- Delete the session's entries off the leaf-to-root path; returns their number. -/
def gc (st : SessionStore) (sessionId : String) : Except StoreError (SessionStore × Nat) :=
  match (st.get sessionId).bind fun s => truthy s.leafId with
  | none => .ok (st, 0)
  | some leafId =>
    match st.walkFrom sessionId leafId with
    | none => .error .endlessWalk
    | some visited =>
      let reachable := visited.map SessionEntry.id
      let unreachable := (st.getEntries sessionId).filter fun e => e.id ∉ reachable
      let ids := unreachable.map SessionEntry.id
      if unreachable.isEmpty then .ok (st, 0)
      else .ok ({ st with entries := st.entries.filter fun e => e.id ∉ ids }, unreachable.length)

end SessionStore

end CrabbyKit

/-!
## Runs of store operations

Every mutating call of the store with the id it would draw and its clock reading.
A call that throws leaves both tables as they were.
-/

namespace CrabbyKit

inductive StoreOp
  | create (opts : CreateOpts)
  | appendEntry (sessionId : String) (data : EntryData)
  | branch (sessionId fromEntryId : String)
  | gc (sessionId : String)
  | delete (sessionId : String)
  | rename (sessionId name : String)
  | setActiveMode (sessionId : String) (modeId : Option String)
  deriving DecidableEq, Repr

/-- One call: the operation, the id `nanoid()` yields to it, and the clock. -/
structure StoreCall where
  op : StoreOp
  nanoid : String
  now : Instant
  deriving DecidableEq, Repr

namespace SessionStore

/-- The store a fallible operation leaves behind. -/
def after (st : SessionStore) (result : Except StoreError SessionStore) : SessionStore :=
  match result with
  | .ok st' => st'
  | .error _ => st

def exec (st : SessionStore) (c : StoreCall) : SessionStore :=
  match c.op with
  | .create opts => st.after ((st.create opts c.nanoid c.now).map Prod.fst)
  | .appendEntry sessionId data =>
    st.after ((st.appendEntry sessionId data c.nanoid c.now).map Prod.fst)
  | .branch sessionId fromEntryId => st.after (st.branch sessionId fromEntryId c.now)
  | .gc sessionId => st.after ((st.gc sessionId).map Prod.fst)
  | .delete sessionId => st.delete sessionId
  | .rename sessionId name => st.rename sessionId name c.now
  | .setActiveMode sessionId modeId => st.setActiveMode sessionId modeId c.now

def run (calls : List StoreCall) : SessionStore := Run.run exec {} calls

/-- Drawn ids are fresh: never empty, and never drawn before. -/
def Fresh (calls : List StoreCall) : Prop :=
  (calls.map StoreCall.nanoid).Nodup ∧ "" ∉ calls.map StoreCall.nanoid

instance (calls : List StoreCall) : Decidable (Fresh calls) :=
  inferInstanceAs (Decidable (_ ∧ _))

theorem fresh_snoc {calls : List StoreCall} {c : StoreCall} :
    Fresh (calls ++ [c]) ↔
      Fresh calls ∧ c.nanoid ∉ calls.map StoreCall.nanoid ∧ c.nanoid ≠ "" := by
  simp only [Fresh, List.map_append, List.map_cons, List.map_nil, List.nodup_append,
    List.mem_append, List.mem_singleton, List.nodup_singleton, not_or]
  constructor
  · rintro ⟨⟨hn, -, hd⟩, he, hc⟩
    exact ⟨⟨hn, he⟩, fun hm => hd _ hm _ rfl rfl, Ne.symm hc⟩
  · rintro ⟨⟨hn, he⟩, hc, hne⟩
    refine ⟨⟨hn, trivial, ?_⟩, he, Ne.symm hne⟩
    rintro a ha b rfl rfl
    exact hc ha

theorem Fresh.front {calls more : List StoreCall} (h : Fresh (calls ++ more)) : Fresh calls := by
  obtain ⟨hnodup, hempty⟩ := h
  rw [List.map_append] at hnodup hempty
  exact ⟨(List.nodup_append.mp hnodup).1, fun hm => hempty (List.mem_append_left _ hm)⟩

end SessionStore

end CrabbyKit

/-!
# Leaf-to-root chains of a well-formed store

In a well-formed store `seq` falls strictly from an entry to its parent, both in
one session. Every leaf-to-root loop therefore ends within one step per entry of
the session and meets no entry twice.
-/

namespace CrabbyKit.SessionStore

/-- The shape of the two tables: unique keys, leaves and parents that stay in their
session, and `seq` strictly increasing in insertion order and along parent links. -/
structure WellFormed (st : SessionStore) : Prop where
  /-- Session ids are unique. -/
  sessionIds : (st.sessions.map Session.id).Nodup
  /-- Entry ids are unique. -/
  entryIds : (st.entries.map SessionEntry.id).Nodup
  /-- No entry has the empty id, so no stored reference is falsy. -/
  named : ∀ e ∈ st.entries, e.id ≠ ""
  /-- A leaf is an entry of its own session. -/
  leaf : ∀ s ∈ st.sessions, ∀ l, s.leafId = some l → ∃ e ∈ st.entries, e.id = l ∧ e.sessionId = s.id
  /-- A parent is an older entry of the same session. -/
  parent : ∀ e ∈ st.entries, ∀ p, e.parentId = some p →
    ∃ q ∈ st.entries, q.id = p ∧ q.sessionId = e.sessionId ∧ q.seq < e.seq
  /-- Entries of a session were inserted in `seq` order. -/
  ordered : ∀ sessionId, (st.entries.filter fun e => e.sessionId = sessionId).Pairwise
    fun a b => a.seq < b.seq

variable {st : SessionStore}

variable {sessionId : String}

/-- `getEntries` selects exactly the rows of the session. -/
@[simp] theorem mem_getEntries {e : SessionEntry} :
    e ∈ st.getEntries sessionId ↔ e ∈ st.entries ∧ e.sessionId = sessionId := by
  simp [getEntries]

/-- In a well-formed store the `ORDER BY seq` is the insertion order. -/
theorem WellFormed.getEntries_eq (h : st.WellFormed) (sessionId : String) :
    st.getEntries sessionId = st.entries.filter fun e => e.sessionId = sessionId :=
  ((h.ordered sessionId).imp fun hlt => hlt.le).insertionSort_eq

/-- The entries of a session come back in strictly increasing `seq`. -/
theorem WellFormed.getEntries_ordered (h : st.WellFormed) (sessionId : String) :
    (st.getEntries sessionId).Pairwise fun a b => a.seq < b.seq :=
  h.getEntries_eq sessionId ▸ h.ordered sessionId

theorem WellFormed.getEntries_ids (h : st.WellFormed) (sessionId : String) :
    ((st.getEntries sessionId).map SessionEntry.id).Nodup := by
  rw [h.getEntries_eq]
  exact h.entryIds.sublist (List.filter_sublist.map _)

theorem WellFormed.entryMap_eq_some (h : st.WellFormed) {id : String} {e : SessionEntry} :
    st.entryMap sessionId id = some e ↔ e ∈ st.entries ∧ e.sessionId = sessionId ∧ e.id = id := by
  rw [entryMap, Table.index_eq_some (h.getEntries_ids sessionId), mem_getEntries, and_assoc]

theorem WellFormed.eq_of_id (h : st.WellFormed) {a b : SessionEntry} (ha : a ∈ st.entries)
    (hb : b ∈ st.entries) (he : a.id = b.id) : a = b :=
  Table.eq_of_key h.entryIds ha hb he

theorem WellFormed.get_eq_some (h : st.WellFormed) {s : Session} :
    st.get sessionId = some s ↔ s ∈ st.sessions ∧ s.id = sessionId :=
  Table.lookup_eq_some h.sessionIds

theorem truthy_eq_some {o : Option String} {s : String} :
    truthy o = some s ↔ o = some s ∧ s ≠ "" := by
  cases o with
  | none => simp [truthy]
  | some t =>
    by_cases ht : t = "" <;> simp only [truthy, ht, if_true, if_false, Option.some.injEq]
    · constructor
      · intro hn; cases hn
      · rintro ⟨rfl, hne⟩; exact absurd rfl hne
    · exact ⟨fun he => ⟨he, he ▸ ht⟩, fun he => he.1⟩

abbrev EntryChain (st : SessionStore) (sessionId : String) :
    Option SessionEntry → List SessionEntry → Prop :=
  ParentWalk.Chain (parentIn (st.entryMap sessionId))

/-- One step of a leaf-to-root loop stays in the session and lowers `seq`. -/
theorem WellFormed.parent_step (h : st.WellFormed) (e : SessionEntry)
    (he : e ∈ st.entries ∧ e.sessionId = sessionId) (q : SessionEntry)
    (hq : parentIn (st.entryMap sessionId) e = some q) :
    (q ∈ st.entries ∧ q.sessionId = sessionId) ∧ q.seq < e.seq := by
  obtain ⟨p, hp, hmap⟩ := Option.bind_eq_some_iff.mp hq
  obtain ⟨hmem, hsid, hid⟩ := h.entryMap_eq_some.mp hmap
  obtain ⟨r, hr, hrid, -, hlt⟩ := h.parent e he.1 p (truthy_eq_some.mp hp).1
  have hrq : r = q := h.eq_of_id hr hmem (hrid.trans hid.symm)
  exact ⟨⟨hmem, hsid⟩, hrq ▸ hlt⟩

theorem WellFormed.entryMap_mem (h : st.WellFormed) {id : String} (e : SessionEntry)
    (he : st.entryMap sessionId id = some e) : e ∈ st.entries ∧ e.sessionId = sessionId :=
  let ⟨hm, hs, _⟩ := h.entryMap_eq_some.mp he
  ⟨hm, hs⟩

section Chains

variable {sessionId : String} {start : Option SessionEntry} {xs : List SessionEntry}

theorem WellFormed.exists_chain (h : st.WellFormed)
    (hs : ∀ e, start = some e → e ∈ st.entries ∧ e.sessionId = sessionId) :
    ∃ xs, st.EntryChain sessionId start xs := by
  exact ParentWalk.exists_chain h.parent_step start hs

theorem WellFormed.chain_mem (h : st.WellFormed) (hc : st.EntryChain sessionId start xs)
    (hs : ∀ e, start = some e → e ∈ st.entries ∧ e.sessionId = sessionId) :
    ∀ e ∈ xs, e ∈ st.entries ∧ e.sessionId = sessionId :=
  hc.forall_mem (fun e he q hq => (h.parent_step e he q hq).1) hs

/-- A leaf-to-root loop lowers `seq` at every step. -/
theorem WellFormed.chain_seq (h : st.WellFormed) (hc : st.EntryChain sessionId start xs)
    (hs : ∀ e, start = some e → e ∈ st.entries ∧ e.sessionId = sessionId) :
    xs.Pairwise fun a b => b.seq < a.seq :=
  hc.pairwise_rank h.parent_step hs

theorem WellFormed.chain_nodup (h : st.WellFormed) (hc : st.EntryChain sessionId start xs)
    (hs : ∀ e, start = some e → e ∈ st.entries ∧ e.sessionId = sessionId) : xs.Nodup :=
  hc.nodup h.parent_step hs

theorem WellFormed.chain_length (h : st.WellFormed) (hc : st.EntryChain sessionId start xs)
    (hs : ∀ e, start = some e → e ∈ st.entries ∧ e.sessionId = sessionId) :
    xs.length ≤ (st.getEntries sessionId).length := by
  have hsub : xs ⊆ st.getEntries sessionId := fun e he =>
    mem_getEntries.mpr (h.chain_mem hc hs e he)
  exact ((h.chain_nodup hc hs).subperm hsub).length_le

end Chains

theorem WellFormed.walkFrom_eq (h : st.WellFormed) {leafId : String} {xs : List SessionEntry}
    (hc : st.EntryChain sessionId (st.entryMap sessionId leafId) xs) :
    st.walkFrom sessionId leafId = some xs :=
  hc.walk_eq (h.chain_length hc h.entryMap_mem)

theorem WellFormed.exists_walkFrom (h : st.WellFormed) (sessionId leafId : String) :
    ∃ xs, st.walkFrom sessionId leafId = some xs ∧
      st.EntryChain sessionId (st.entryMap sessionId leafId) xs := by
  obtain ⟨xs, hxs⟩ : ∃ xs, st.EntryChain sessionId (st.entryMap sessionId leafId) xs :=
    h.exists_chain h.entryMap_mem
  exact ⟨xs, h.walkFrom_eq hxs, hxs⟩

theorem chain_of_walkFrom {leafId : String} {xs : List SessionEntry}
    (h : st.walkFrom sessionId leafId = some xs) :
    st.EntryChain sessionId (st.entryMap sessionId leafId) xs :=
  ParentWalk.chain_of_walk h

end CrabbyKit.SessionStore
