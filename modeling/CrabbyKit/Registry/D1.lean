import CrabbyKit.Registry.Metadata

/-!
# The D1 registry

`D1BundleRegistry` over its three tables and the KV store. Every SQL statement or batch is one
function of the state; metadata is stored as JSON text. The hash of a bundle's bytes and how fast
KV shows a write are parameters.
-/

namespace CrabbyKit.BundleRegistry

structure VersionRow where
  versionId : String
  kvKey : String
  sizeBytes : Nat
  createdAt : Instant
  createdBy : Option String
  metadata : Option String
  deriving DecidableEq, Repr

structure BundleRow where
  agentId : String
  activeVersionId : Option String
  previousVersionId : Option String
  updatedAt : Instant
  deriving DecidableEq, Repr

/-- The row that the upsert of `setActive` leaves in the place of an old one or of none. -/
def BundleRow.shifted (agentId : String) (versionId : Option String) (now : Instant)
    (old : Option BundleRow) : BundleRow :=
  ⟨old.elim agentId BundleRow.agentId, versionId, old.bind BundleRow.activeVersionId, now⟩

/-- The row that the update of `rollback` leaves. -/
def BundleRow.written (active previous : Option String) (now : Instant) (row : BundleRow) :
    BundleRow :=
  ⟨row.agentId, active, previous, now⟩

structure DeploymentRow where
  agentId : String
  versionId : Option String
  deployedAt : Instant
  deployedBySessionId : Option String
  rationale : Option String
  deriving DecidableEq, Repr

/-- The tables and the KV entries; deployments stand in the order of their ids. -/
structure D1State where
  versions : List VersionRow := []
  bundles : List BundleRow := []
  deployments : List DeploymentRow := []
  kv : List (String × List UInt8) := []

def maxBundleSizeBytes : Nat := 25 * 1024 * 1024

def readbackDelays : List Nat := [50, 100, 200, 400, 800, 1600, 2000]

namespace D1State

/-- `SELECT … FROM agent_bundles WHERE agent_id = ?` -/
def bundle (s : D1State) (agentId : String) : Option BundleRow :=
  Table.lookup BundleRow.agentId s.bundles agentId

/-- `SELECT * FROM bundle_versions WHERE version_id = ?` -/
def version (s : D1State) (versionId : String) : Option VersionRow :=
  Table.lookup VersionRow.versionId s.versions versionId

/-- The upsert of `setActive`, which moves the active version to the previous one. -/
def upsertActive (s : D1State) (agentId : String) (versionId : Option String) (now : Instant) :
    D1State :=
  let row := BundleRow.shifted agentId versionId now
  { s with bundles := Table.upsert BundleRow.agentId agentId row s.bundles }

/-- The update of `rollback`. -/
def updatePointers (s : D1State) (agentId : String) (active previous : Option String)
    (now : Instant) : D1State :=
  let row := BundleRow.written active previous now
  { s with bundles := Table.modify BundleRow.agentId agentId row s.bundles }

/-- `INSERT INTO bundle_deployments` -/
def insertDeployment (s : D1State) (row : DeploymentRow) : D1State :=
  { s with deployments := s.deployments ++ [row] }

/-- The entry that `kv.put` leaves in the place of an old one or of none. -/
def kvEntry (key : String) (bytes : List UInt8) (old : Option (String × List UInt8)) :
    String × List UInt8 :=
  (old.elim key Prod.fst, bytes)

/-- `kv.put` -/
def putBytes (s : D1State) (key : String) (bytes : List UInt8) : D1State :=
  { s with kv := Table.upsert Prod.fst key (kvEntry key bytes) s.kv }

/-- `kv.get` -/
def kvGet (s : D1State) (key : String) : Option (List UInt8) :=
  (Table.lookup Prod.fst s.kv key).map Prod.snd

def getActiveForAgent (s : D1State) (agentId : String) : Option String :=
  (s.bundle agentId).bind BundleRow.activeVersionId

def getBytes (s : D1State) (versionId : String) : Option (List UInt8) :=
  s.kvGet (kvKeyOf versionId)

def ofRow (row : VersionRow) : Except RegistryError BundleVersion := do
  let metadata ← match row.metadata with
    | none => Except.ok none
    | some text =>
      if text = "" then .ok none
      else match Json.parse text with
        | some value => .ok (some value)
        | none => .error .syntaxError
  .ok { versionId := row.versionId, kvKey := row.kvKey, sizeBytes := row.sizeBytes,
        createdAt := row.createdAt, createdBy := row.createdBy, metadata := metadata }

def getVersion (s : D1State) (versionId : String) :
    Except RegistryError (Option BundleVersion) :=
  match s.version versionId with
  | none => .ok none
  | some row => (ofRow row).map some

/-- The checks of `setActive` before its batch. -/
def checkPromotion (s : D1State) (versionId : String) (options : SetActiveOptions) :
    Except RegistryError Unit := do
  let version ← s.getVersion versionId
  let required := metadataField "requiredCapabilities" (version.bind BundleVersion.metadata)
  checkReserved required
  if options.skipCatalogCheck then .ok () else checkCatalog required versionId options

/-- The batch of `setActive`. -/
def setActiveBatch (s : D1State) (agentId : String) (versionId : Option String) (now : Instant)
    (options : SetActiveOptions) : D1State :=
  (s.upsertActive agentId versionId now).insertDeployment
    ⟨agentId, versionId, now, options.sessionId, options.rationale⟩

def setActive (s : D1State) (agentId : String) (versionId : Option String) (now : Instant)
    (options : SetActiveOptions) : Except RegistryError Unit × D1State :=
  match versionId.elim (.ok ()) fun id => s.checkPromotion id options with
  | .error e => (.error e, s)
  | .ok () => (.ok (), s.setActiveBatch agentId versionId now options)

/-- The read of `rollback`, which throws when there is no previous version. -/
def rollbackRead (s : D1State) (agentId : String) : Except RegistryError BundleRow :=
  match s.bundle agentId with
  | some row =>
    if (row.previousVersionId.getD "") = "" then
      .error (.error "No previous version to roll back to")
    else .ok row
  | none => .error (.error "No previous version to roll back to")

/-- The batch of `rollback`, which writes the columns read before back the other way round. -/
def rollbackBatch (s : D1State) (agentId : String) (read : BundleRow) (now : Instant)
    (opts : RollbackOpts) : D1State :=
  (s.updatePointers agentId read.previousVersionId read.activeVersionId now).insertDeployment
    ⟨agentId, read.previousVersionId, now, opts.sessionId,
      some (opts.rationale.getD "rollback")⟩

def rollback (s : D1State) (agentId : String) (now : Instant) (opts : RollbackOpts) :
    Except RegistryError Unit × D1State :=
  match s.rollbackRead agentId with
  | .error e => (.error e, s)
  | .ok read => (.ok (), s.rollbackBatch agentId read now opts)

/-- `verifyKvReadback`: whether one of the polls sees the bytes. -/
def verifyKvReadback (visible : Nat → Bool) : Bool := readbackDelays.any visible

variable (computeVersionId : List UInt8 → String)

def newRow (opts : CreateVersionOpts) (now : Instant) : VersionRow :=
  { versionId := computeVersionId opts.bytes
    kvKey := kvKeyOf (computeVersionId opts.bytes)
    sizeBytes := opts.bytes.length
    createdAt := now
    createdBy := opts.createdBy
    metadata := (opts.metadata.map sanitizeMetadata).map fun m => m.toJson.stringify }

def newVersion (opts : CreateVersionOpts) (now : Instant) : BundleVersion :=
  { versionId := computeVersionId opts.bytes
    kvKey := kvKeyOf (computeVersionId opts.bytes)
    sizeBytes := opts.bytes.length
    createdAt := now
    createdBy := opts.createdBy
    metadata := (opts.metadata.map sanitizeMetadata).map JsonObject.toJson }

def createVersion (s : D1State) (opts : CreateVersionOpts) (now : Instant)
    (visible : Nat → Bool) : Except RegistryError BundleVersion × D1State :=
  if maxBundleSizeBytes < opts.bytes.length then
    (.error (.error (s!"Bundle exceeds {maxBundleSizeBytes} byte limit " ++
      s!"(got {opts.bytes.length})")), s)
  else
    let versionId := computeVersionId opts.bytes
    let kvKey := kvKeyOf versionId
    match s.version versionId with
    | some row => (ofRow row, s)
    | none =>
      let put := s.putBytes kvKey opts.bytes
      if verifyKvReadback visible then
        (.ok (newVersion computeVersionId opts now),
          { put with versions := put.versions ++ [newRow computeVersionId opts now] })
      else (.error (.error s!"KV readback verification timed out for key: {kvKey}"), put)

variable {computeVersionId} {s : D1State} {opts : CreateVersionOpts} {now : Instant}
  {visible : Nat → Bool}

theorem createVersion_large (h : maxBundleSizeBytes < opts.bytes.length) :
    ∃ e, s.createVersion computeVersionId opts now visible = (.error e, s) := by
  rw [createVersion, if_pos h]
  exact ⟨_, rfl⟩

theorem createVersion_known {row : VersionRow} (hsize : opts.bytes.length ≤ maxBundleSizeBytes)
    (hrow : s.version (computeVersionId opts.bytes) = some row) :
    s.createVersion computeVersionId opts now visible = (ofRow row, s) := by
  rw [createVersion, if_neg (Nat.not_lt.mpr hsize)]
  simp only [hrow]

theorem createVersion_hidden (hsize : opts.bytes.length ≤ maxBundleSizeBytes)
    (hnew : s.version (computeVersionId opts.bytes) = none)
    (hvisible : verifyKvReadback visible = false) :
    ∃ e, s.createVersion computeVersionId opts now visible =
      (.error e, s.putBytes (kvKeyOf (computeVersionId opts.bytes)) opts.bytes) := by
  rw [createVersion, if_neg (Nat.not_lt.mpr hsize)]
  simp only [hnew, hvisible]
  exact ⟨_, rfl⟩

theorem createVersion_new (hsize : opts.bytes.length ≤ maxBundleSizeBytes)
    (hnew : s.version (computeVersionId opts.bytes) = none)
    (hvisible : verifyKvReadback visible = true) :
    s.createVersion computeVersionId opts now visible =
      (.ok (newVersion computeVersionId opts now),
        { s.putBytes (kvKeyOf (computeVersionId opts.bytes)) opts.bytes with
          versions := s.versions ++ [newRow computeVersionId opts now] }) := by
  rw [createVersion, if_neg (Nat.not_lt.mpr hsize)]
  simp only [hnew, hvisible]
  rfl

end D1State

end CrabbyKit.BundleRegistry
