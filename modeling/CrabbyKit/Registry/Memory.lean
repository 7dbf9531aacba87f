import CrabbyKit.Core.Json
import CrabbyKit.Core.Table
import CrabbyKit.Core.JsonString
import CrabbyKit.Session.Types

/-!
# Registry types and the catalog check

What both registries share: the options of `setActive` and `createVersion`, the errors, and the
check of a version's requirements, which reads untyped metadata.
-/

namespace CrabbyKit.BundleRegistry

structure RouteSpec where
  method : String
  path : String
  deriving DecidableEq, Repr

/-- The options of `setActive`. -/
structure SetActiveOptions where
  rationale : Option String := none
  sessionId : Option String := none
  knownCapabilityIds : Option (List String) := none
  knownHttpRoutes : Option (List RouteSpec) := none
  knownAgentConfigNamespaces : Option (List String) := none
  knownConfigNamespaceIds : Option (List String) := none
  knownCapabilityConfigIds : Option (List String) := none
  skipCatalogCheck : Bool := false

/-- The options of `rollback`. -/
structure RollbackOpts where
  rationale : Option String := none
  sessionId : Option String := none

structure CreateVersionOpts where
  bytes : List UInt8
  createdBy : Option String := none
  metadata : Option JsonObject := none

/-- A version as `createVersion` hands it out. -/
structure BundleVersion where
  versionId : String
  kvKey : String
  sizeBytes : Nat
  createdAt : Instant
  createdBy : Option String
  metadata : Option Json

def kvKeyOf (versionId : String) : String := "bundle:" ++ versionId

inductive RegistryError
  | error (message : String)
  | typeError (message : String)
  | rangeError (message : String)
  | syntaxError
  | capabilityMismatch (missingIds : List String) (versionId : String)
  | routeCollision (collisions : List RouteSpec) (versionId : String)
  | actionIdCollision (collidingIds : List String) (versionId : String)
  | agentConfigCollision (collidingNamespaces : List String) (versionId : String)
  | configNamespaceCollision (collidingIds : List String) (versionId : String)
  | capabilityConfigCollision (collidingIds : List String) (versionId : String)
  deriving DecidableEq, Repr

/-- `value.length`, where it is a number. -/
def lengthOf : Json → Option Int
  | .arr items => some items.length
  | .str text => some (textLength text)
  | .obj members => (Json.field "length" (.obj members)).bind Json.asNumber
  | _ => none

/-- What a loop over a value runs through; it throws on a value that is not iterable. -/
def iterate : Json → Except RegistryError (List Json)
  | .arr items => .ok items
  | .str text => .ok (text.toList.map fun c => .str (String.ofList [c]))
  | _ => .error (.typeError "value is not iterable")

/-- Whether a value is absent, or counts as empty in `!value || value.length === 0`. -/
def emptyList : Option Json → Bool
  | some value => !value.truthy || lengthOf value = some 0
  | none => true

/-- The text in the member `id` of an entry, if it has one. -/
def entryId (entry : Json) : Option String := (Json.field "id" entry).bind Json.asString

/-- The scopes that no capability may be named after. -/
def reservedScopes : List String := ["spine", "llm"]

def reservedMessage (id : String) : String :=
  "BundleRegistry.setActive: capability id \"" ++ id ++ "\" is a reserved scope string and " ++
    "cannot be used as a capability id — the dispatcher unconditionally grants this scope to " ++
    "all bundles"

def checkReserved (required : Option Json) : Except RegistryError Unit :=
  match required with
  | none => .ok ()
  | some value =>
    if value.truthy && (lengthOf value).any (0 < ·) then do
      let entries ← iterate value
      match entries.filterMap entryId |>.find? (· ∈ reservedScopes) with
      | some id => .error (.typeError (reservedMessage id))
      | none => .ok ()
    else .ok ()

/-- `validateCatalogAgainstKnownIds`: the ids that are missing, each once. -/
def missingIds (required : Option Json) (knownIds : List String) :
    Except RegistryError (List String) :=
  match required with
  | none => .ok []
  | some value =>
    if emptyList (some value) then .ok []
    else do
      let entries ← iterate value
      .ok ((entries.filterMap entryId).filter (· ∉ knownIds)).eraseDups

/-- The catalog check of `setActive`. -/
def checkCatalog (required : Option Json) (versionId : String) (options : SetActiveOptions) :
    Except RegistryError Unit :=
  match options.knownCapabilityIds with
  | none => .error (.typeError ("BundleRegistry.setActive: knownCapabilityIds is required when " ++
      "skipCatalogCheck is not true"))
  | some knownIds => do
    let missing ← missingIds required knownIds
    if missing = [] then .ok () else .error (.capabilityMismatch missing versionId)

def metadataField (name : String) (metadata : Option Json) : Option Json :=
  metadata.bind (Json.field name)

end CrabbyKit.BundleRegistry

/-!
## The in-memory registry

`InMemoryBundleRegistry` and the collision checks of `validate-routes.ts` and
`validate-config.ts` that its `setActive` makes on top of the catalog check.
-/

namespace CrabbyKit.BundleRegistry

structure VersionEntry where
  versionId : String
  bytes : List UInt8
  metadata : Option JsonObject
  createdAt : Instant

structure AgentPointer where
  agentId : String
  activeVersionId : Option String
  previousVersionId : Option String
  updatedAt : Instant

/-- The pointer that `setActive` leaves in the place of an old one or of none. -/
def AgentPointer.shifted (agentId : String) (versionId : Option String) (now : Instant)
    (old : Option AgentPointer) : AgentPointer :=
  ⟨old.elim agentId AgentPointer.agentId, versionId, old.bind AgentPointer.activeVersionId, now⟩

structure DeploymentLog where
  agentId : String
  versionId : Option String
  rationale : Option String
  sessionId : Option String
  deployedAt : Instant

/-- The two maps as rows in the order of insertion, and the log. -/
structure MemoryState where
  versions : List VersionEntry := []
  pointers : List AgentPointer := []
  deployments : List DeploymentLog := []

/-- `method:path` -/
def RouteSpec.key (route : RouteSpec) : String := route.method ++ ":" ++ route.path

/-- An entry with a method and a path that are texts. -/
def routeOf (entry : Json) : Option RouteSpec := do
  let method ← (Json.field "method" entry).bind Json.asString
  let path ← (Json.field "path" entry).bind Json.asString
  some ⟨method, path⟩

def firstRoutes : List String → List RouteSpec → List RouteSpec
  | _, [] => []
  | seen, route :: rest =>
    if route.key ∈ seen then firstRoutes seen rest
    else route :: firstRoutes (route.key :: seen) rest

/-- `validateBundleRoutesAgainstKnownRoutes`: the collisions. -/
def validateBundleRoutesAgainstKnownRoutes (declared : Json) (known : List RouteSpec) :
    Except RegistryError (List RouteSpec) :=
  if emptyList (some declared) || known.isEmpty then .ok []
  else do
    let entries ← iterate declared
    let colliding := (entries.filterMap routeOf).filter fun r => r.key ∈ known.map RouteSpec.key
    .ok (firstRoutes [] colliding)

def collidingIds (declared : List Json) (known : List String) : List String :=
  ((declared.filterMap Json.asString).filter (· ∈ known)).eraseDups

/-- `validateBundleActionIdsAgainstKnownIds`: the collisions. -/
def validateBundleActionIdsAgainstKnownIds (declared : Json) (known : List String) :
    Except RegistryError (List String) :=
  if emptyList (some declared) || known.isEmpty then .ok []
  else do
    let entries ← iterate declared
    .ok (collidingIds entries known)

/-- The config validators, which differ in their error only: nothing collides when the snapshot
is absent. -/
def validateDeclared (declared : List Json) (known : Option (List String)) : List String :=
  match known with
  | some ids => collidingIds declared ids
  | none => []

/-- `Object.keys(value)` -/
def objectKeys : Json → List Json
  | .obj members => members.map fun m => .str m.1
  | .arr items => (List.range items.length).map fun i => .str (toString i)
  | .str text => (List.range (textLength text)).map fun i => .str (toString i)
  | _ => []

/-- `value.map((entry) => entry.id)`, with an absent id as `null`. -/
def mapIds : Json → Except RegistryError (List Json)
  | .arr items => items.mapM fun entry =>
    match entry with
    | .null => .error (.typeError "Cannot read properties of null (reading 'id')")
    | _ => .ok ((Json.field "id" entry).getD .null)
  | _ => .error (.typeError "value.map is not a function")

/-- A member that is present and counts as true. -/
def truthyField (name : String) (value : Option Json) : Option Json :=
  (value.bind (Json.field name)).filter Json.truthy

namespace MemoryState

def version (s : MemoryState) (versionId : String) : Option VersionEntry :=
  Table.lookup VersionEntry.versionId s.versions versionId

def pointer (s : MemoryState) (agentId : String) : Option AgentPointer :=
  Table.lookup AgentPointer.agentId s.pointers agentId

def getActiveForAgent (s : MemoryState) (agentId : String) : Option String :=
  (s.pointer agentId).bind AgentPointer.activeVersionId

def getBytes (s : MemoryState) (versionId : String) : Option (List UInt8) :=
  (s.version versionId).map VersionEntry.bytes

def metadata (s : MemoryState) (versionId : String) : Option Json :=
  (s.version versionId).bind fun entry => entry.metadata.map JsonObject.toJson

/-- The checks of `surfaces`. -/
def checkSurfaces (metadata : Option Json) (versionId : String) (options : SetActiveOptions) :
    Except RegistryError Unit := do
  let surfaces := metadataField "surfaces" metadata
  match truthyField "httpRoutes" surfaces, options.knownHttpRoutes with
  | some declared, some known => do
    let collisions ← validateBundleRoutesAgainstKnownRoutes declared known
    if collisions ≠ [] then throw (.routeCollision collisions versionId)
  | _, _ => .ok ()
  match truthyField "actionCapabilityIds" surfaces, options.knownCapabilityIds with
  | some declared, some known => do
    let colliding ← validateBundleActionIdsAgainstKnownIds declared known
    if colliding ≠ [] then throw (.actionIdCollision colliding versionId)
  | _, _ => .ok ()

def checkConfigs (metadata : Option Json) (versionId : String) (options : SetActiveOptions) :
    Except RegistryError Unit := do
  match truthyField "agentConfigSchemas" metadata with
  | some schemas =>
    let colliding := validateDeclared (objectKeys schemas) options.knownAgentConfigNamespaces
    if colliding ≠ [] then throw (.agentConfigCollision colliding versionId)
  | none => .ok ()
  match truthyField "configNamespaces" metadata with
  | some namespaces =>
    let declared ← mapIds namespaces
    let colliding := validateDeclared declared options.knownConfigNamespaceIds
    if colliding ≠ [] then throw (.configNamespaceCollision colliding versionId)
  | none => .ok ()
  match truthyField "capabilityConfigs" metadata with
  | some configs =>
    let declared ← mapIds configs
    let colliding := validateDeclared declared options.knownCapabilityConfigIds
    if colliding ≠ [] then throw (.capabilityConfigCollision colliding versionId)
  | none => .ok ()

/-- The checks of `setActive`. -/
def checkPromotion (s : MemoryState) (versionId : String) (options : SetActiveOptions) :
    Except RegistryError Unit := do
  let metadata := s.metadata versionId
  let required := metadataField "requiredCapabilities" metadata
  checkReserved required
  if options.skipCatalogCheck then .ok ()
  else do
    checkCatalog required versionId options
    checkSurfaces metadata versionId options
    checkConfigs metadata versionId options

/-- `pointers.set` and the log entry. -/
def promote (s : MemoryState) (agentId : String) (versionId : Option String) (now : Instant)
    (options : SetActiveOptions) : MemoryState :=
  let row := AgentPointer.shifted agentId versionId now
  { s with
    pointers := Table.upsert AgentPointer.agentId agentId row s.pointers
    deployments := s.deployments ++
      [⟨agentId, versionId, options.rationale, options.sessionId, now⟩] }

def setActive (s : MemoryState) (agentId : String) (versionId : Option String) (now : Instant)
    (options : SetActiveOptions) : Except RegistryError Unit × MemoryState :=
  match versionId.elim (.ok ()) fun id => s.checkPromotion id options with
  | .error e => (.error e, s)
  | .ok () => (.ok (), s.promote agentId versionId now options)

variable (computeVersionId : List UInt8 → String)

/-- An entry as `createVersion` hands it out: the creator is that of the call. -/
def toVersion (entry : VersionEntry) (createdBy : Option String) : BundleVersion :=
  { versionId := entry.versionId, kvKey := kvKeyOf entry.versionId,
    sizeBytes := entry.bytes.length, createdAt := entry.createdAt, createdBy := createdBy,
    metadata := entry.metadata.map JsonObject.toJson }

def createVersion (s : MemoryState) (opts : CreateVersionOpts) (now : Instant) :
    BundleVersion × MemoryState :=
  let versionId := computeVersionId opts.bytes
  match s.version versionId with
  | some existing => (toVersion existing opts.createdBy, s)
  | none =>
    let entry : VersionEntry := ⟨versionId, opts.bytes, opts.metadata, now⟩
    (toVersion entry opts.createdBy, { s with versions := s.versions ++ [entry] })

end MemoryState

end CrabbyKit.BundleRegistry
