import CrabbyKit.Core.Run
import CrabbyKit.Registry.Publication

/-!
# Where the two registries agree

Both registries take the same calls from their empty states. As long as the calls stay within what
both do alike, each state of the one stands for the state of the other.
-/

namespace CrabbyKit.BundleRegistry

open Option

inductive Operation
  | createVersion (opts : CreateVersionOpts) (visible : Nat → Bool)
  | setActive (agentId : String) (versionId : Option String) (options : SetActiveOptions)
  | getActiveForAgent (agentId : String)
  | getVersion (versionId : String)
  | getBytes (versionId : String)

/-- An operation and the clock of either registry. -/
structure Call where
  operation : Operation
  d1Now : Instant
  memoryNow : Instant

/-- A version as `getVersion` returns it, without its timestamp; what the in-memory registry leaves
out of it is optional. -/
structure VersionView where
  versionId : String
  metadata : Option Json
  details : Option (String × Nat × Option String)

/-- What a call returns, without timestamps. -/
inductive Value
  | done
  | created (versionId kvKey : String) (sizeBytes : Nat) (createdBy : Option String)
      (metadata : Option Json)
  | active (versionId : Option String)
  | version (view : Option VersionView)
  | bytes (bytes : Option (List UInt8))

/-- The answer of `createVersion`. -/
def BundleVersion.created (version : BundleVersion) : Value :=
  .created version.versionId version.kvKey version.sizeBytes version.createdBy version.metadata

/-- The answer of the D1 registry's `getVersion`. -/
def BundleVersion.view (version : BundleVersion) : VersionView :=
  ⟨version.versionId, version.metadata,
    some (version.kvKey, version.sizeBytes, version.createdBy)⟩

/-- The answer of the in-memory registry's `getVersion`. -/
def VersionEntry.view (entry : VersionEntry) : VersionView :=
  ⟨entry.versionId, entry.metadata.map JsonObject.toJson, none⟩

variable (computeVersionId : List UInt8 → String)

def D1State.call (s : D1State) (c : Call) : Except RegistryError Value × D1State :=
  match c.operation with
  | .createVersion opts visible =>
    let (result, s') := s.createVersion computeVersionId opts c.d1Now visible
    (result.map BundleVersion.created, s')
  | .setActive agentId versionId options =>
    let (result, s') := s.setActive agentId versionId c.d1Now options
    (result.map fun _ => .done, s')
  | .getActiveForAgent agentId => (.ok (.active (s.getActiveForAgent agentId)), s)
  | .getVersion versionId =>
    ((s.getVersion versionId).map fun version => .version (version.map BundleVersion.view), s)
  | .getBytes versionId => (.ok (.bytes (s.getBytes versionId)), s)

/-- A call of the in-memory registry, whose `getVersion` has the id and the metadata only. -/
def MemoryState.call (s : MemoryState) (c : Call) : Except RegistryError Value × MemoryState :=
  match c.operation with
  | .createVersion opts _ =>
    let (version, s') := s.createVersion computeVersionId opts c.memoryNow
    (.ok version.created, s')
  | .setActive agentId versionId options =>
    let (result, s') := s.setActive agentId versionId c.memoryNow options
    (result.map fun _ => .done, s')
  | .getActiveForAgent agentId => (.ok (.active (s.getActiveForAgent agentId)), s)
  | .getVersion versionId =>
    (.ok (.version ((s.version versionId).map VersionEntry.view)), s)
  | .getBytes versionId => (.ok (.bytes (s.getBytes versionId)), s)

/-- Both registries. -/
structure Pair where
  d1 : D1State := {}
  memory : MemoryState := {}

def Pair.step (p : Pair) (c : Call) : Pair :=
  ⟨(p.d1.call computeVersionId c).2, (p.memory.call computeVersionId c).2⟩

/-- Two outcomes are the same: both throw, or both return one value. -/
def SameOutcome : Except RegistryError Value → Except RegistryError Value → Prop
  | .ok a, .ok b => a = b
  | .error _, .error _ => True
  | _, _ => False

/-- Which members of the answer of `getVersion` are compared: all of them, or those that both
registries return. -/
inductive Reading
  | allFields
  | sharedFields
  deriving DecidableEq

def Reading.view : Reading → Value → Value
  | .sharedFields, .version found => .version (found.map fun v => { v with details := none })
  | _, value => value

/-- The outcomes of a call are the same, and where it throws it changes neither pointers, versions
nor the log. -/
structure Agree (reading : Reading) (p : Pair) (c : Call) : Prop where
  same : SameOutcome ((p.d1.call computeVersionId c).1.map reading.view)
    ((p.memory.call computeVersionId c).1.map reading.view)
  d1_unchanged : ∀ e, (p.d1.call computeVersionId c).1 = .error e →
    (p.d1.call computeVersionId c).2.versions = p.d1.versions ∧
    (p.d1.call computeVersionId c).2.bundles = p.d1.bundles ∧
    (p.d1.call computeVersionId c).2.deployments = p.d1.deployments
  memory_unchanged : ∀ e, (p.memory.call computeVersionId c).1 = .error e →
    (p.memory.call computeVersionId c).2 = p.memory

/-- What the two registries do alike: new bytes are not too many, become visible in time and come
with metadata that is stored as it is, known bytes come from their creator, and, when all members
of its answer are compared, `getVersion` asks for no stored version. -/
def Meets (reading : Reading) (s : D1State) (c : Call) : Prop :=
  match c.operation with
  | .createVersion opts visible =>
    opts.bytes.length ≤ maxBundleSizeBytes ∧
    match s.version (computeVersionId opts.bytes) with
    | some row => opts.createdBy = row.createdBy
    | none => D1State.verifyKvReadback visible = true ∧
        ∀ metadata ∈ opts.metadata, ∀ m ∈ metadata.members, Kept m.1 m.2
  | .getVersion versionId => reading = .sharedFields ∨ s.version versionId = none
  | _ => True

def SamePointer (row : Option BundleRow) (pointer : Option AgentPointer) : Prop :=
  row.map (fun r => (r.activeVersionId, r.previousVersionId)) =
    pointer.map fun r => (r.activeVersionId, r.previousVersionId)

/-- A stored version of the one as an entry of the other; its metadata is stored as it was. -/
inductive SameVersion : Option VersionRow → Option VersionEntry → Prop
  | absent : SameVersion none none
  | stored {row : VersionRow} {entry : VersionEntry}
      (versionId : row.versionId = entry.versionId)
      (kvKey : row.kvKey = kvKeyOf entry.versionId)
      (sizeBytes : row.sizeBytes = entry.bytes.length)
      (metadata : row.metadata = entry.metadata.map fun m => m.toJson.stringify)
      (kept : ∀ m ∈ entry.metadata, ∀ member ∈ m.members, Kept member.1 member.2) :
      SameVersion (some row) (some entry)

/-- Each registry's state stands for the other's. -/
structure Matches (p : Pair) : Prop where
  pointers : ∀ agentId, SamePointer (p.d1.bundle agentId) (p.memory.pointer agentId)
  versions : ∀ versionId, SameVersion (p.d1.version versionId) (p.memory.version versionId)
  bytes : ∀ versionId, p.d1.getBytes versionId = p.memory.getBytes versionId

theorem matches_start : Matches {} where
  pointers _ := rfl
  versions _ := .absent
  bytes _ := rfl

variable {p : Pair}

variable {versionId : String}

theorem Matches.absent (h : Matches p)
    (hrow : p.d1.version versionId = none) : p.memory.version versionId = none := by
  have hsame := h.versions versionId
  rw [hrow] at hsame
  generalize p.memory.version versionId = found at hsame
  cases hsame
  rfl

variable {row : VersionRow}

theorem Matches.stored (h : Matches p) (hrow : p.d1.version versionId = some row) :
    ∃ entry, p.memory.version versionId = some entry ∧ SameVersion (some row) (some entry) := by
  have hsame := h.versions versionId
  rw [hrow] at hsame
  cases hentry : p.memory.version versionId with
  | none =>
    rw [hentry] at hsame
    cases hsame
  | some entry =>
    rw [hentry] at hsame
    exact ⟨entry, rfl, hsame⟩

theorem ofRow_of_same {entry : VersionEntry} (h : SameVersion (some row) (some entry)) :
    D1State.ofRow row = .ok ⟨row.versionId, row.kvKey, row.sizeBytes, row.createdAt,
      row.createdBy, entry.metadata.map JsonObject.toJson⟩ := by
  cases h with
  | stored _ _ _ hmetadata _ =>
    cases hentry : entry.metadata with
    | none =>
      rw [hentry] at hmetadata
      rw [D1State.ofRow, hmetadata]
      rfl
    | some metadata =>
      rw [hentry] at hmetadata
      exact D1State.ofRow_stringify hmetadata

theorem metadata_of_matches (h : Matches p) (versionId : String) :
    ∃ version, p.d1.getVersion versionId = .ok version ∧
      version.bind BundleVersion.metadata = p.memory.metadata versionId := by
  rw [D1State.getVersion, MemoryState.metadata]
  cases hrow : p.d1.version versionId with
  | none =>
    rw [h.absent hrow]
    exact ⟨none, rfl, rfl⟩
  | some row =>
    obtain ⟨entry, hentry, hsame⟩ := h.stored hrow
    rw [hentry]
    simp only [ofRow_of_same hsame]
    exact ⟨_, rfl, rfl⟩

theorem metadataField_of_matches (h : Matches p) (versionId : String) {name : String}
    (hname : name ∉ metadataKeys) : metadataField name (p.memory.metadata versionId) = none := by
  have hsame := h.versions versionId
  rw [MemoryState.metadata]
  cases hentry : p.memory.version versionId with
  | none => rfl
  | some entry =>
    rw [hentry] at hsame
    cases hmetadata : entry.metadata with
    | none => simp [metadataField, hmetadata]
    | some metadata =>
      have hkept : ∀ member ∈ metadata.members, Kept member.1 member.2 := by
        generalize hrow : p.d1.version versionId = found at hsame
        cases hsame with
        | stored _ _ _ _ hkept => exact hkept metadata hmetadata
      simp only [metadataField, bind_some, hmetadata, map_some]
      rw [JsonObject.field_toJson, JsonObject.get_eq_none_iff]
      intro hmem
      obtain ⟨member, hmember, rfl⟩ := List.mem_map.mp hmem
      exact hname (hkept member hmember).1

theorem checkPromotion_of_matches (h : Matches p) (versionId : String)
    (options : SetActiveOptions) :
    p.memory.checkPromotion versionId options = p.d1.checkPromotion versionId options := by
  obtain ⟨version, hread, hmetadata⟩ := metadata_of_matches h versionId
  have habsent : ∀ name, name ∉ metadataKeys →
      metadataField name (p.memory.metadata versionId) = none :=
    fun name hname => metadataField_of_matches h versionId hname
  have hsurfaces : MemoryState.checkSurfaces (p.memory.metadata versionId) versionId options =
      .ok () := by
    unfold MemoryState.checkSurfaces
    rw [habsent "surfaces" (by decide)]
    rfl
  have hconfigs : MemoryState.checkConfigs (p.memory.metadata versionId) versionId options =
      .ok () := by
    unfold MemoryState.checkConfigs
    have hfield : ∀ name, name ∉ metadataKeys →
        truthyField name (p.memory.metadata versionId) = none := by
      intro name hname
      have hnone := habsent name hname
      rw [metadataField] at hnone
      rw [truthyField, hnone]
      rfl
    rw [hfield "agentConfigSchemas" (by decide), hfield "configNamespaces" (by decide),
      hfield "capabilityConfigs" (by decide)]
    rfl
  rw [MemoryState.checkPromotion, D1State.checkPromotion, hread]
  simp only [hsurfaces, hconfigs]
  change _ = (do
    checkReserved (metadataField "requiredCapabilities" (version.bind BundleVersion.metadata))
    if options.skipCatalogCheck then .ok ()
    else checkCatalog (metadataField "requiredCapabilities"
      (version.bind BundleVersion.metadata)) versionId options)
  rw [hmetadata]
  cases checkReserved (metadataField "requiredCapabilities" (p.memory.metadata versionId)) with
  | error e => rfl
  | ok _ =>
    change (if options.skipCatalogCheck = true then Except.ok () else _) =
      if options.skipCatalogCheck = true then Except.ok () else _
    split
    · rfl
    · cases checkCatalog (metadataField "requiredCapabilities" (p.memory.metadata versionId))
        versionId options <;> rfl

theorem kvKeyOf_injective {a b : String} (h : kvKeyOf a = kvKeyOf b) : a = b := by
  have hchars := congrArg String.toList h
  rw [kvKeyOf, kvKeyOf, String.toList_append, String.toList_append] at hchars
  exact String.toList_inj.mp (List.append_cancel_left hchars)

theorem kvGet_putBytes (s : D1State) (key other : String) (bytes : List UInt8) :
    (s.putBytes key bytes).kvGet other = if other = key then some bytes else s.kvGet other := by
  have hread : Table.lookup Prod.fst
      (Table.upsert Prod.fst key (D1State.kvEntry key bytes) s.kv) other = _ :=
    Table.lookup_upsert (k := key) (f := D1State.kvEntry key bytes) (fun _ => rfl) rfl other
  change (Table.lookup Prod.fst (Table.upsert Prod.fst key _ s.kv) other).map Prod.snd = _
  rw [hread]
  split
  · rfl
  · rfl

theorem D1State.bundle_upsertActive (s : D1State) (agentId other : String)
    (versionId : Option String) (now : Instant) :
    (s.upsertActive agentId versionId now).bundle other =
      if other = agentId then some (.shifted agentId versionId now (s.bundle agentId))
      else s.bundle other :=
  Table.lookup_upsert (f := BundleRow.shifted agentId versionId now) (fun _ => rfl) rfl other

theorem MemoryState.pointer_promote (s : MemoryState) (agentId other : String)
    (versionId : Option String) (now : Instant) (options : SetActiveOptions) :
    (s.promote agentId versionId now options).pointer other =
      if other = agentId then some (.shifted agentId versionId now (s.pointer agentId))
      else s.pointer other :=
  Table.lookup_upsert (f := AgentPointer.shifted agentId versionId now) (fun _ => rfl) rfl other

theorem getActiveForAgent_of_matches (h : Matches p) (agentId : String) :
    p.d1.getActiveForAgent agentId = p.memory.getActiveForAgent agentId := by
  have hsame := congrArg (fun o => o.bind Prod.fst) (h.pointers agentId)
  rw [bind_map, bind_map] at hsame
  exact hsame

theorem matches_promote (h : Matches p) (agentId : String)
    (versionId : Option String) (now now' : Instant) (options : SetActiveOptions) :
    Matches ⟨p.d1.setActiveBatch agentId versionId now options,
      p.memory.promote agentId versionId now' options⟩ where
  versions := h.versions
  bytes := h.bytes
  pointers other := by
    change SamePointer ((p.d1.upsertActive agentId versionId now).bundle other) _
    have hactive : (p.d1.bundle agentId).bind BundleRow.activeVersionId =
        (p.memory.pointer agentId).bind AgentPointer.activeVersionId :=
      getActiveForAgent_of_matches h agentId
    rw [D1State.bundle_upsertActive, MemoryState.pointer_promote]
    split
    · simp only [SamePointer, map_some, BundleRow.shifted, AgentPointer.shifted, hactive]
    · exact h.pointers other

theorem matches_create (h : Matches p)
    (hnew : p.d1.version versionId = none) {bytes : List UInt8} {metadata : Option JsonObject}
    (hkept : ∀ m ∈ metadata, ∀ member ∈ m.members, Kept member.1 member.2)
    (now now' : Instant) (createdBy : Option String) :
    Matches ⟨{ p.d1.putBytes (kvKeyOf versionId) bytes with
        versions := p.d1.versions ++ [⟨versionId, kvKeyOf versionId, bytes.length, now, createdBy,
          metadata.map fun m => m.toJson.stringify⟩] },
      { p.memory with versions := p.memory.versions ++ [⟨versionId, bytes, metadata, now'⟩] }⟩ := by
  have hmemory : p.memory.version versionId = none := h.absent hnew
  have hd1 : ∀ other row, Table.lookup VersionRow.versionId (p.d1.versions ++ [row]) other =
      (p.d1.version other).or (if row.versionId = other then some row else none) :=
    fun other row => Table.lookup_concat p.d1.versions row other
  have hmem : ∀ other entry,
      Table.lookup VersionEntry.versionId (p.memory.versions ++ [entry]) other =
      (p.memory.version other).or (if entry.versionId = other then some entry else none) :=
    fun other entry => Table.lookup_concat p.memory.versions entry other
  constructor
  · exact h.pointers
  · intro other
    change SameVersion (Table.lookup _ (p.d1.versions ++ [_]) other)
      (Table.lookup _ (p.memory.versions ++ [_]) other)
    rw [hd1, hmem]
    by_cases hname : versionId = other
    · subst hname
      rw [hnew, hmemory, if_pos rfl, if_pos rfl, none_or, none_or]
      exact .stored rfl rfl rfl rfl hkept
    · rw [if_neg hname, if_neg hname, or_none, or_none]
      exact h.versions other
  · intro other
    change (p.d1.putBytes (kvKeyOf versionId) bytes).kvGet (kvKeyOf other) =
      (Table.lookup _ (p.memory.versions ++ [_]) other).map VersionEntry.bytes
    rw [kvGet_putBytes, hmem]
    by_cases hname : other = versionId
    · subst hname
      rw [if_pos rfl, hmemory, if_pos rfl]
      rfl
    · rw [if_neg fun heq => hname (kvKeyOf_injective heq), if_neg (Ne.symm hname),
        or_none]
      exact h.bytes other

theorem sameOutcome_map {reading : Reading} {a b : Except RegistryError Value} (h : a = b) :
    SameOutcome (a.map reading.view) (b.map reading.view) := by
  subst h
  cases a with
  | ok v => rfl
  | error e => trivial

variable {e : RegistryError}

theorem d1_call_error {s : D1State} {c : Call} (h : (s.call computeVersionId c).1 = .error e) :
    (s.call computeVersionId c).2.versions = s.versions ∧
    (s.call computeVersionId c).2.bundles = s.bundles ∧
    (s.call computeVersionId c).2.deployments = s.deployments := by
  unfold D1State.call at h ⊢
  cases hop : c.operation with
  | createVersion opts visible =>
    simp only [hop] at h ⊢
    by_cases hsize : opts.bytes.length ≤ maxBundleSizeBytes
    · cases hrow : s.version (computeVersionId opts.bytes) with
      | some row =>
        rw [D1State.createVersion_known hsize hrow]
        exact ⟨rfl, rfl, rfl⟩
      | none =>
        cases hvisible : D1State.verifyKvReadback visible with
        | true =>
          rw [D1State.createVersion_new hsize hrow hvisible] at h
          cases h
        | false =>
          have hhidden : ∃ e, s.createVersion computeVersionId opts c.d1Now visible =
              (.error e, _) := D1State.createVersion_hidden hsize hrow hvisible
          obtain ⟨e, herror⟩ := hhidden
          rw [herror]
          exact ⟨rfl, rfl, rfl⟩
    · have hlarge : ∃ e, s.createVersion computeVersionId opts c.d1Now visible = (.error e, s) :=
        D1State.createVersion_large (Nat.not_le.mp hsize)
      obtain ⟨e, herror⟩ := hlarge
      rw [herror]
      exact ⟨rfl, rfl, rfl⟩
  | setActive agentId versionId options =>
    simp only [hop, D1State.setActive] at h ⊢
    split
    · exact ⟨rfl, rfl, rfl⟩
    · rename_i hchecks
      rw [hchecks] at h
      cases h
  | getActiveForAgent agentId => exact ⟨rfl, rfl, rfl⟩
  | getVersion versionId => exact ⟨rfl, rfl, rfl⟩
  | getBytes versionId => exact ⟨rfl, rfl, rfl⟩

theorem memory_call_error {s : MemoryState} {c : Call}
    (h : (s.call computeVersionId c).1 = .error e) : (s.call computeVersionId c).2 = s := by
  unfold MemoryState.call at h ⊢
  cases hop : c.operation with
  | createVersion opts visible =>
    rw [hop] at h
    cases h
  | setActive agentId versionId options =>
    simp only [hop, MemoryState.setActive] at h ⊢
    split
    · rfl
    · rename_i hchecks
      rw [hchecks] at h
      cases h
  | getActiveForAgent agentId => rfl
  | getVersion versionId => rfl
  | getBytes versionId => rfl

theorem setActive_of_matches (h : Matches p) (agentId : String)
    (versionId : Option String) (now now' : Instant) (options : SetActiveOptions) :
    (p.d1.setActive agentId versionId now options).1 =
      (p.memory.setActive agentId versionId now' options).1 ∧
    Matches ⟨(p.d1.setActive agentId versionId now options).2,
      (p.memory.setActive agentId versionId now' options).2⟩ := by
  have hchecks : (versionId.elim (.ok ()) fun id => p.memory.checkPromotion id options) =
      versionId.elim (.ok ()) fun id => p.d1.checkPromotion id options := by
    cases versionId with
    | none => rfl
    | some id => exact checkPromotion_of_matches h id options
  rw [D1State.setActive, MemoryState.setActive, hchecks]
  cases versionId.elim (Except.ok ()) fun id => p.d1.checkPromotion id options with
  | error e => exact ⟨rfl, h⟩
  | ok _ => exact ⟨rfl, matches_promote h agentId versionId now now' options⟩

theorem map_sanitize_eq_iff (metadata : Option JsonObject) :
    (metadata.map sanitizeMetadata).map JsonObject.toJson = metadata.map JsonObject.toJson ↔
      ∀ m ∈ metadata, ∀ member ∈ m.members, Kept member.1 member.2 := by
  cases metadata with
  | none => simp
  | some m =>
    simp only [map_some, Option.some.injEq, mem_def, forall_eq']
    rw [← sanitizeMetadata_eq_self_iff]
    constructor
    · intro heq
      exact JsonObject.ext (Json.obj.inj heq)
    · intro heq
      rw [heq]

variable {opts : CreateVersionOpts}

theorem create_known (h : Matches p) (reading : Reading)
    (hsize : opts.bytes.length ≤ maxBundleSizeBytes)
    (hrow : p.d1.version (computeVersionId opts.bytes) = some row) (visible : Nat → Bool)
    (now now' : Instant) :
    (SameOutcome
      ((p.d1.call computeVersionId ⟨.createVersion opts visible, now, now'⟩).1.map reading.view)
      ((p.memory.call computeVersionId ⟨.createVersion opts visible, now, now'⟩).1.map
        reading.view) ↔ opts.createdBy = row.createdBy) ∧
    p.step computeVersionId ⟨.createVersion opts visible, now, now'⟩ = p := by
  obtain ⟨entry, hentry, hsame⟩ := h.stored hrow
  have hmemory : p.memory.createVersion computeVersionId opts now' =
      (MemoryState.toVersion entry opts.createdBy, p.memory) := by
    simp only [MemoryState.createVersion, hentry]
  have hd1 : p.d1.createVersion computeVersionId opts now visible = _ :=
    D1State.createVersion_known hsize hrow
  constructor
  · simp only [D1State.call, MemoryState.call, hd1, hmemory, ofRow_of_same hsame]
    cases hsame with
    | stored hid hkey hbytes _ _ =>
      cases reading <;>
        simp [SameOutcome, Except.map, Reading.view, BundleVersion.created,
          MemoryState.toVersion, hid, hkey, hbytes, eq_comm]
  · simp only [Pair.step, D1State.call, MemoryState.call, hd1, hmemory]

theorem create_new (h : Matches p) (reading : Reading)
    (hsize : opts.bytes.length ≤ maxBundleSizeBytes)
    (hnew : p.d1.version (computeVersionId opts.bytes) = none) {visible : Nat → Bool}
    (hvisible : D1State.verifyKvReadback visible = true) (now now' : Instant) :
    (SameOutcome
      ((p.d1.call computeVersionId ⟨.createVersion opts visible, now, now'⟩).1.map reading.view)
      ((p.memory.call computeVersionId ⟨.createVersion opts visible, now, now'⟩).1.map
        reading.view) ↔ ∀ m ∈ opts.metadata, ∀ member ∈ m.members, Kept member.1 member.2) ∧
    ((∀ m ∈ opts.metadata, ∀ member ∈ m.members, Kept member.1 member.2) →
      Matches (p.step computeVersionId ⟨.createVersion opts visible, now, now'⟩)) := by
  have hmemory : p.memory.version (computeVersionId opts.bytes) = none := h.absent hnew
  have hd1 : p.d1.createVersion computeVersionId opts now visible = _ :=
    D1State.createVersion_new hsize hnew hvisible
  have hmem : p.memory.createVersion computeVersionId opts now' =
      (MemoryState.toVersion ⟨computeVersionId opts.bytes, opts.bytes, opts.metadata, now'⟩
        opts.createdBy, { p.memory with
          versions := p.memory.versions ++
            [⟨computeVersionId opts.bytes, opts.bytes, opts.metadata, now'⟩] }) := by
    simp only [MemoryState.createVersion, hmemory]
  constructor
  · rw [← map_sanitize_eq_iff]
    simp only [D1State.call, MemoryState.call, hd1, hmem]
    cases reading <;>
      simp [SameOutcome, Except.map, Reading.view, BundleVersion.created, MemoryState.toVersion,
        D1State.newVersion]
  · intro hkept
    have hsanitized : opts.metadata.map sanitizeMetadata = opts.metadata := by
      cases hmetadata : opts.metadata with
      | none => rfl
      | some m =>
        rw [map_some, sanitizeMetadata_eq_self_iff.mpr (hkept m hmetadata)]
    have hrow : D1State.newRow computeVersionId opts now =
        ⟨computeVersionId opts.bytes, kvKeyOf (computeVersionId opts.bytes), opts.bytes.length,
          now, opts.createdBy, opts.metadata.map fun m => m.toJson.stringify⟩ := by
      rw [D1State.newRow, hsanitized]
    simp only [Pair.step, D1State.call, MemoryState.call, hd1, hmem, hrow]
    exact matches_create h hnew hkept now now' opts.createdBy

/-- The answers of `getVersion`: the D1 registry's has the members that the other leaves out. -/
theorem getVersion_of_matches (h : Matches p) (reading : Reading)
    (versionId : String) (now now' : Instant) :
    SameOutcome ((p.d1.call computeVersionId ⟨.getVersion versionId, now, now'⟩).1.map reading.view)
      ((p.memory.call computeVersionId ⟨.getVersion versionId, now, now'⟩).1.map
        reading.view) ↔ reading = .sharedFields ∨ p.d1.version versionId = none := by
  simp only [D1State.call, MemoryState.call, D1State.getVersion]
  cases hrow : p.d1.version versionId with
  | none =>
    rw [h.absent hrow]
    cases reading <;> simp [SameOutcome, Except.map, Reading.view]
  | some row =>
    obtain ⟨entry, hentry, hsame⟩ := h.stored hrow
    rw [hentry]
    simp only [ofRow_of_same hsame]
    cases hsame with
    | stored hid _ _ _ _ =>
      cases reading <;>
        simp [SameOutcome, Except.map, Reading.view, BundleVersion.view, VersionEntry.view, hid]

theorem call_of_matches (h : Matches p) (reading : Reading) (c : Call) :
    (SameOutcome ((p.d1.call computeVersionId c).1.map reading.view)
      ((p.memory.call computeVersionId c).1.map reading.view) ↔
        Meets computeVersionId reading p.d1 c) ∧
    (Meets computeVersionId reading p.d1 c → Matches (p.step computeVersionId c)) := by
  obtain ⟨operation, now, now'⟩ := c
  cases operation with
  | createVersion opts visible =>
    by_cases hsize : opts.bytes.length ≤ maxBundleSizeBytes
    · cases hrow : p.d1.version (computeVersionId opts.bytes) with
      | some row =>
        obtain ⟨hsame, hstep⟩ := create_known computeVersionId h reading hsize hrow visible now now'
        refine ⟨hsame.trans ?_, fun _ => hstep.symm ▸ h⟩
        simp [Meets, hsize, hrow]
      | none =>
        cases hvisible : D1State.verifyKvReadback visible with
        | true =>
          obtain ⟨hsame, hstep⟩ :=
            create_new computeVersionId h reading hsize hrow hvisible now now'
          refine ⟨hsame.trans ?_, fun hmeets => hstep ?_⟩
          · simp [Meets, hsize, hrow, hvisible]
          · simpa [Meets, hsize, hrow, hvisible] using hmeets
        | false =>
          have hno : ¬Meets computeVersionId reading p.d1
              ⟨.createVersion opts visible, now, now'⟩ := by
            simp [Meets, hrow, hvisible]
          have hhidden : ∃ e, p.d1.createVersion computeVersionId opts now visible =
              (.error e, _) := D1State.createVersion_hidden hsize hrow hvisible
          obtain ⟨e, herror⟩ := hhidden
          refine ⟨iff_of_false ?_ hno, fun hmeets => absurd hmeets hno⟩
          simp [D1State.call, MemoryState.call, herror, SameOutcome, Except.map]
    · have hno : ¬Meets computeVersionId reading p.d1
          ⟨.createVersion opts visible, now, now'⟩ := fun hmeets => hsize hmeets.1
      have hlarge : ∃ e, p.d1.createVersion computeVersionId opts now visible =
          (.error e, p.d1) := D1State.createVersion_large (Nat.not_le.mp hsize)
      obtain ⟨e, herror⟩ := hlarge
      refine ⟨iff_of_false ?_ hno, fun hmeets => absurd hmeets hno⟩
      simp [D1State.call, MemoryState.call, herror, SameOutcome, Except.map]
  | setActive agentId versionId options =>
    obtain ⟨hresult, hstep⟩ := setActive_of_matches h agentId versionId now now' options
    refine ⟨iff_of_true ?_ trivial, fun _ => hstep⟩
    apply sameOutcome_map
    simp only [D1State.call, MemoryState.call, hresult]
  | getActiveForAgent agentId =>
    refine ⟨iff_of_true ?_ trivial, fun _ => h⟩
    apply sameOutcome_map
    simp only [D1State.call, MemoryState.call, getActiveForAgent_of_matches h]
  | getVersion versionId =>
    exact ⟨getVersion_of_matches computeVersionId h reading versionId now now', fun _ => h⟩
  | getBytes versionId =>
    refine ⟨iff_of_true ?_ trivial, fun _ => h⟩
    apply sameOutcome_map
    simp only [D1State.call, MemoryState.call, h.bytes]

theorem agree_iff_meets (h : Matches p) (reading : Reading) (c : Call) :
    Agree computeVersionId reading p c ↔ Meets computeVersionId reading p.d1 c := by
  rw [← (call_of_matches computeVersionId h reading c).1]
  refine ⟨Agree.same, fun hsame => ⟨hsame, ?_, ?_⟩⟩
  · intro e he
    exact d1_call_error computeVersionId he
  · intro e he
    exact memory_call_error computeVersionId he

/-- From their empty states, the registries have the same outcomes all along a sequence of calls
exactly when each call is one that they do alike. -/
theorem registries_agree_iff (computeVersionId : List UInt8 → String) (reading : Reading)
    (calls : List Call) :
    Run.Allowed (Agree computeVersionId reading) (Pair.step computeVersionId) {} calls ↔
      Run.Allowed (fun p c => Meets computeVersionId reading p.d1 c)
        (Pair.step computeVersionId) {} calls :=
  Run.allowed_congr matches_start (fun _ c h => agree_iff_meets computeVersionId h reading c)
    (fun _ c h hmeets => (call_of_matches computeVersionId h reading c).2 hmeets) calls

def hookedCall : Call := ⟨.createVersion (publishOpts withAlarmHook) (fun _ => true), 0, 0⟩

/-- The first call already has two answers: one names the hook and the other does not. -/
theorem hookedCall_disagrees :
    ¬Run.Allowed (Agree digestOfOne .sharedFields) (Pair.step digestOfOne) {} [hookedCall] ∧
    ¬Run.Allowed (Agree digestOfOne .allFields) (Pair.step digestOfOne) {} [hookedCall] := by
  have hno : ∀ reading, ¬Agree digestOfOne reading {} hookedCall := by
    intro reading hagree
    have hmeets := (agree_iff_meets digestOfOne matches_start reading hookedCall).mp hagree
    have hkept := hmeets.2.2 _ rfl ("lifecycleHooks", .obj [("onAlarm", .bool true)]) (by
      rw [← JsonObject.get_eq_some_iff]
      rfl)
    exact absurd hkept.1 (by decide)
  exact ⟨fun h => hno _ (h [] _ [] rfl), fun h => hno _ (h [] _ [] rfl)⟩

end CrabbyKit.BundleRegistry
