import CrabbyKit.Dispatch.Rebuild
import CrabbyKit.Registry.Pointers
import CrabbyKit.Schedule.Cron

/-!
# Deploying a bundle from the workshop

`workshop_deploy` of `agent-workshop`: build, smoke test, a version with the declared metadata, and
the flip of the active pointer. What the registry has stored under the hash of the same bytes is
handed back as it is.
-/

namespace CrabbyKit.Workshop

open BundleRegistry DispatchHost

structure WorkshopHost where
  agentId : String
  sessionId : String
  runtimeHash : String
  runtimeSource : String
  createWorker : CreateWorker
  computeVersionId : List UInt8 → String
  space : String
  deployRateLimitPerMinute : Option Nat := none
  /-- `getBundleHostCapabilityIds?.() ?? []`. -/
  hostCapabilityIds : List String
  agentConfigNamespaces : Option (List String) := none
  configNamespaceIds : Option (List String) := none

/-- The arguments; absent requirements and an empty list are treated alike. -/
structure DeployArgs where
  name : String
  rationale : Option String := none
  targetAgentId : Option String := none
  requiredCapabilities : List String := []
  skipCatalogCheck : Bool := false

/-- What happens outside of a call: its times, what KV shows, and which awaits are rejected. -/
structure DeployEnv where
  now : Instant := 0
  builtAt : Instant := 0
  createdAt : Instant := 0
  activatedAt : Instant := 0
  visible : Nat → Bool := fun _ => true
  createFails : Bool := false
  setActiveFails : Bool := false
  refreshFails : Bool := false

structure DeployCounter where
  count : Nat
  resetAt : Instant
  deriving DecidableEq, Repr

structure WorkshopState where
  registry : D1State := {}
  deployCounters : String → Option DeployCounter := fun _ => none

def defaultDeployRateLimit : Nat := 5

def checkDeployRate (limit : Nat) (deployCounters : String → Option DeployCounter)
    (agentId : String) (now : Instant) : Bool × (String → Option DeployCounter) :=
  let fresh : Bool × (String → Option DeployCounter) :=
    (true, Function.update deployCounters agentId (some ⟨1, now + 60000⟩))
  match deployCounters agentId with
  | none => fresh
  | some entry =>
    if entry.resetAt ≤ now then fresh
    else if limit ≤ entry.count then (false, deployCounters)
    else
      (true, Function.update deployCounters agentId (some { entry with count := entry.count + 1 }))

/-- `[a-zA-Z0-9]` -/
def alphanumeric (c : Char) : Bool :=
  letterOrDigit c || (65 ≤ c.toNat && c.toNat ≤ 90)

/-- `/^[a-zA-Z0-9][a-zA-Z0-9._-]*$/` -/
def bundleNameRegex (name : String) : Bool :=
  name.toList.head?.any alphanumeric &&
    name.toList.tail.all fun c => alphanumeric c || c = '.' || c = '_' || c = '-'

/-- The error of a name, if it has one. -/
def validateBundleName (name : String) : Option String :=
  if name = "" then some "Bundle name must be a non-empty string"
  else if !bundleNameRegex name then
    some "Bundle name must contain only letters, digits, dot, underscore, and dash"
  else if 64 < textLength name then some "Bundle name must not exceed 64 characters"
  else none

/-- A member whose value is neither absent nor `null`. -/
def presentField (name : String) (value : Json) : Option Json :=
  match Json.field name value with
  | some .null => none
  | found => found

/-- `extractModuleContent`: a text, or the first of the text forms of a structured module. -/
def extractModuleContent (value : Option Json) : Option String :=
  match value with
  | some (.str text) => some text
  | some (.obj members) =>
    ((presentField "js" (.obj members)).or
      ((presentField "cjs" (.obj members)).or (Json.field "text" (.obj members)))).bind
        Json.asString
  | _ => none

/-- A character of `\w`. -/
def wordCharacter (c : Char) : Bool := alphanumeric c || c = '_'

/-- `\bas\s+default\b` at a position, after a character. -/
def asDefault (before : Char) (rest : List Char) : Bool :=
  let afterAs := rest.drop 2
  let word := afterAs.dropWhile Cron.isSpace
  !wordCharacter before && "as".toList.isPrefixOf rest && afterAs.head?.any Cron.isSpace &&
    "default".toList.isPrefixOf word && !(word.drop 7).head?.any wordCharacter

/-- `[^}]*\bas\s+default\b` at a position, after a character. -/
def namesDefault : Char → List Char → Bool
  | _, [] => false
  | before, c :: rest => asDefault before (c :: rest) || (c ≠ '}' && namesDefault c rest)

/-- `export\s*\{[^}]*\bas\s+default\b` at a position. -/
def exportsDefault (rest : List Char) : Bool :=
  "export".toList.isPrefixOf rest &&
    match (rest.drop 6).dropWhile Cron.isSpace with
    | '\x7b' :: names => namesDefault '\x7b' names
    | _ => false

def hasDefaultExport (source : Option String) : Bool :=
  match source with
  | none => false
  | some text =>
    text.toList.tails.any ("export default".toList.isPrefixOf ·) ||
      text.toList.tails.any exportsDefault

/-- Why a call reports a failure. -/
inductive DeployError
  | invalidName (message : String)
  | rateLimited
  | buildFailed
  | smokeFailed
  | tooLarge (byteLength : Nat)
  /-- The registry's error, if the call has reached it. -/
  | createVersionFailed (error : Option RegistryError)
  | setActiveFailed (error : Option RegistryError)

structure DeployReport where
  versionId : String
  size : Nat
  mainModule : String
  target : String
  rationale : String
  advisoryMissing : List String
  skipCatalogCheck : Bool

inductive DeployOutcome
  | refused (error : DeployError)
  | deployed (report : DeployReport)
  /-- The refresh of the host's cache throws, and with it the call. -/
  | thrown

def deployMetadata (host : WorkshopHost) (args : DeployArgs) (buildTimestamp : Instant) :
    JsonObject :=
  withRequired
    { members := [("sourceName", .str args.name), ("runtimeHash", .str host.runtimeHash),
        ("buildTimestamp", .num buildTimestamp)]
      unique := by
        change ["sourceName", "runtimeHash", "buildTimestamp"].Nodup
        decide }
    args.requiredCapabilities

def deployOpts (host : WorkshopHost) (args : DeployArgs) (built : BuildBundleResult)
    (buildTimestamp : Instant) : CreateVersionOpts where
  bytes := encodeEnvelope built.mainModule built.modules
  createdBy := some host.sessionId
  metadata := some (deployMetadata host args buildTimestamp)

def activationOptions (host : WorkshopHost) (args : DeployArgs) : SetActiveOptions :=
  if args.skipCatalogCheck then
    { rationale := some (args.rationale.getD "workshop_deploy")
      sessionId := some host.sessionId
      skipCatalogCheck := true }
  else
    { rationale := some (args.rationale.getD "workshop_deploy")
      sessionId := some host.sessionId
      knownCapabilityIds := some host.hostCapabilityIds
      knownAgentConfigNamespaces := host.agentConfigNamespaces
      knownConfigNamespaceIds := host.configNamespaceIds
      knownCapabilityConfigIds := some host.hostCapabilityIds }

def deployReport (host : WorkshopHost) (args : DeployArgs) (target : String)
    (built : BuildBundleResult) (versionId : String) : DeployReport where
  versionId := versionId
  size := (encodeEnvelope built.mainModule built.modules).length
  mainModule := built.mainModule
  target := target
  rationale := args.rationale.getD "(none)"
  advisoryMissing := args.requiredCapabilities.filter (· ∉ host.hostCapabilityIds)
  skipCatalogCheck := args.skipCatalogCheck

/-- `setActive`, and the refresh of the own cache. -/
def activate (host : WorkshopHost) (w : WorkshopState) (args : DeployArgs) (env : DeployEnv)
    (target : String) (built : BuildBundleResult) (versionId : String) :
    DeployOutcome × WorkshopState :=
  if env.setActiveFails then (.refused (.setActiveFailed none), w)
  else
    match w.registry.setActive target (some versionId) env.activatedAt
      (activationOptions host args) with
    | (.error e, registry) => (.refused (.setActiveFailed (some e)), { w with registry })
    | (.ok _, registry) =>
      if target = host.agentId && env.refreshFails then (.thrown, { w with registry })
      else (.deployed (deployReport host args target built versionId), { w with registry })

/-- What follows the build. -/
def deployBuilt (host : WorkshopHost) (w : WorkshopState) (args : DeployArgs) (env : DeployEnv)
    (target : String) (built : BuildBundleResult) : DeployOutcome × WorkshopState :=
  if !hasDefaultExport (extractModuleContent (built.modules.get built.mainModule)) then
    (.refused .smokeFailed, w)
  else
    let envelope := encodeEnvelope built.mainModule built.modules
    if maxBundleSizeBytes < envelope.length then (.refused (.tooLarge envelope.length), w)
    else if env.createFails then (.refused (.createVersionFailed none), w)
    else
      match w.registry.createVersion host.computeVersionId (deployOpts host args built env.builtAt)
        env.createdAt env.visible with
      | (.error e, registry) => (.refused (.createVersionFailed (some e)), { w with registry })
      | (.ok version, registry) =>
        activate host { w with registry } args env target built version.versionId

/-- `targetAgentId ?? context.agentId`. -/
def DeployArgs.target (args : DeployArgs) (host : WorkshopHost) : String :=
  args.targetAgentId.getD host.agentId

/-- `workshop_deploy`. -/
def deploy (host : WorkshopHost) (bucket : SourceBucket) (w : WorkshopState) (args : DeployArgs)
    (env : DeployEnv) : DeployOutcome × WorkshopState :=
  match validateBundleName args.name with
  | some message => (.refused (.invalidName message), w)
  | none =>
    let (allowed, deployCounters) := checkDeployRate
      (host.deployRateLimitPerMinute.getD defaultDeployRateLimit) w.deployCounters
      (args.target host) env.now
    let w := { w with deployCounters }
    if !allowed then (.refused .rateLimited, w)
    else
      match buildBundle host.createWorker bucket host.space args.name host.runtimeSource with
      | none => (.refused .buildFailed, w)
      | some built => deployBuilt host w args env (args.target host) built

end CrabbyKit.Workshop
