import CrabbyKit.Core.Run
import CrabbyKit.Session.Types

/-!
# Dispatches into a bundle

Every dispatch path of `agent-do.ts` and `dispatcher.ts` mints a token (`mint.ts`), puts it
into the env of a loader config (`loader-config.ts`) and hands the config to the worker loader
as a factory under the id of the active version. The loader may answer with an isolate that an
earlier factory made.
-/

namespace CrabbyKit.Bundle

def defaultTtlMs : Nat := 60 * 1000

/-- The payload of a capability token. The nonce stands for `crypto.randomUUID()`. -/
structure TokenPayload where
  aid : String
  sid : Option String
  sessionId : Option String
  exp : Instant
  nonce : Nat
  scope : List String
  deriving DecidableEq, Repr

/-- The options of `mintToken`; `sid` is absent, `null` or a string. -/
structure MintOptions where
  agentId : String
  sid : Option (Option String) := none
  sessionId : Option String := none
  scope : List String
  ttlMs : Option Nat := none

def mintToken (now : Instant) (randomUUID : Nat) (opts : MintOptions) : TokenPayload :=
  let resolvedSid := opts.sid.getD opts.sessionId
  { aid := opts.agentId
    sid := resolvedSid
    sessionId := resolvedSid
    exp := now + opts.ttlMs.getD defaultTtlMs
    nonce := randomUUID
    scope := opts.scope }

/-- An allow and deny list of a mode. -/
structure Filter where
  allow : Option (List String) := none
  deny : Option (List String) := none
  deriving DecidableEq, Repr

structure Mode where
  id : String
  name : String
  capabilities : Option Filter := none
  tools : Option Filter := none
  deriving DecidableEq, Repr

inductive EnvValue
  | token (payload : TokenPayload)
  | text (value : String)
  | activeMode (mode : Mode)
  | binding (name : String)
  deriving DecidableEq, Repr

/-- An env as its entries in the order in which they are spread. -/
abbrev Env := List (String × EnvValue)

/-- Of several entries with one key the last one counts. -/
def Env.get (env : Env) (key : String) : Option EnvValue :=
  (env.reverse.find? fun entry => entry.1 = key).map Prod.snd

structure BundlePayload where
  mainModule : String
  modules : List (String × String)
  deriving DecidableEq, Repr

structure ComposedLoaderConfig where
  compatibilityDate : String := "2025-12-01"
  compatibilityFlags : List String := ["nodejs_compat"]
  mainModule : String
  modules : List (String × String)
  env : Env
  deriving DecidableEq, Repr

def composeWorkerLoaderConfig (payload : BundlePayload) (projectedEnv : Env)
    (bundleToken : TokenPayload) (versionId : String) (extras : Env) : ComposedLoaderConfig :=
  { mainModule := payload.mainModule
    modules := payload.modules
    env := projectedEnv ++ [("__BUNDLE_TOKEN", .token bundleToken),
      ("__BUNDLE_VERSION_ID", .text versionId)] ++ extras }

/-- What a deployment fixes. -/
structure Host where
  agentId : String
  bundleEnv : Env := []
  publicUrl : Option String := none
  modes : List Mode := []

/-- The factory of the dispatch paths of `agent-do.ts`. -/
def buildLoaderConfigGetter (host : Host) (versionId : String) (bundleToken : TokenPayload)
    (extras : Env) (payload : BundlePayload) : ComposedLoaderConfig :=
  let publicUrl : Env :=
    match host.publicUrl with
    | some url => if url.isEmpty then [] else [("__BUNDLE_PUBLIC_URL", .text url)]
    | none => []
  composeWorkerLoaderConfig payload host.bundleEnv bundleToken versionId (publicUrl ++ extras)

/-- A dispatch path with its session: `bundlePromptHandler`, `dispatchConfigEndpoint`,
`dispatchLifecycle`, `dispatchLifecycleHook`, `dispatchHttp` and `dispatchAction` of
`agent-do.ts`, `dispatchTurn` and `dispatchClientEvent` of `dispatcher.ts`. -/
inductive Request
  | prompt (sessionId : String)
  | config (sessionId : String)
  | lifecycle (sessionId : String)
  | lifecycleHook (sessionId : Option String)
  | http (sessionId : Option String)
  | action (sessionId : String)
  | turn (sessionId : String)
  | clientEvent (sessionId : String)
  deriving DecidableEq, Repr

def Request.session : Request → Option String
  | .prompt sessionId | .config sessionId | .lifecycle sessionId | .action sessionId
  | .turn sessionId | .clientEvent sessionId => some sessionId
  | .lifecycleHook sessionId | .http sessionId => sessionId

/-- What each path passes to `mintToken`. -/
def Request.mintOptions (agentId : String) (scope : List String) : Request → MintOptions
  | .prompt sessionId | .config sessionId | .lifecycle sessionId | .action sessionId
  | .turn sessionId => { agentId := agentId, sessionId := some sessionId, scope := scope }
  | .http sessionId => { agentId := agentId, sessionId := some (sessionId.getD ""), scope := scope }
  | .lifecycleHook sessionId => { agentId := agentId, sid := some sessionId, scope := scope }
  | .clientEvent sessionId => { agentId := agentId, sid := some (some sessionId), scope := scope }

/-- What the factory of each path returns once the bytes are read. -/
def Request.loaderConfig (host : Host) (versionId : String) (token : TokenPayload)
    (activeMode : Option Mode) (payload : BundlePayload) : Request → ComposedLoaderConfig
  | .prompt _ =>
    buildLoaderConfigGetter host versionId token
      (activeMode.toList.map fun mode => ("__BUNDLE_ACTIVE_MODE", .activeMode mode)) payload
  | .config _ | .lifecycle _ | .lifecycleHook _ | .http _ | .action _ =>
    buildLoaderConfigGetter host versionId token [] payload
  | .clientEvent _ => composeWorkerLoaderConfig payload host.bundleEnv token versionId []
  | .turn _ =>
    { mainModule := payload.mainModule
      modules := payload.modules
      env := host.bundleEnv ++ [("__BUNDLE_TOKEN", .token token)] }

/-- How far a dispatch has come. The times and tokens of a served one are kept for the record. -/
inductive Phase
  | started
  | minted (token : TokenPayload) (mintedAt : Instant)
  | ready (token : TokenPayload) (mintedAt : Instant) (activeMode : Option Mode)
  | served (token : TokenPayload) (mintedAt : Instant) (activeMode : Option Mode) (env : Env)
  | failed
  deriving DecidableEq, Repr

structure Dispatch where
  request : Request
  versionId : String
  phase : Phase
  deriving DecidableEq, Repr

structure Isolate where
  id : String
  config : ComposedLoaderConfig
  deriving DecidableEq, Repr

/-- An agent with its dispatches, the registry and the worker loader. -/
structure BundleAgent where
  now : Instant := 0
  activeBundleVersionId : Option String := none
  bytes : String → Option BundlePayload := fun _ => none
  requiredCapabilities : String → List String := fun _ => []
  activeModeId : String → Option String := fun _ => none
  dispatches : List Dispatch := []
  isolates : List Isolate := []

/-- What may happen next. `load` carries the isolate that the loader may answer with. -/
inductive DispatchEvent
  | tick (now : Instant)
  | setActive (versionId : Option String)
  | putVersion (versionId : String) (payload : Option BundlePayload)
    (requiredCapabilities : List String)
  | setMode (sessionId : String) (modeId : Option String)
  | start (request : Request)
  | mint (i : Nat)
  | resolveMode (i : Nat)
  | load (i : Nat) (isolate : Option Nat)

namespace BundleAgent

variable (host : Host)

def computeTokenScope (s : BundleAgent) (versionId : String) : List String :=
  "spine" :: "llm" :: s.requiredCapabilities versionId

def readActiveModeForSession (s : BundleAgent) (sessionId : String) : Option Mode :=
  match s.activeModeId sessionId with
  | none => none
  | some modeId => if modeId.isEmpty then none else host.modes.find? fun mode => mode.id = modeId

def resolvedMode (s : BundleAgent) : Request → Option Mode
  | .prompt sessionId => s.readActiveModeForSession host sessionId
  | _ => none

/-- The isolate with which the loader answers without calling the factory: one that it has made
under the same id. -/
def reused (s : BundleAgent) (id : String) (isolate : Option Nat) : Option Isolate :=
  (isolate.bind fun k => s.isolates[k]?).filter fun found => found.id = id

def update (s : BundleAgent) (i : Nat) (d : Dispatch) (phase : Phase) : BundleAgent :=
  { s with dispatches := s.dispatches.set i { d with phase := phase } }

/-- A dispatch calls `loader.get` and sends its request to the isolate. -/
def load (s : BundleAgent) (i : Nat) (d : Dispatch) (token : TokenPayload) (mintedAt : Instant)
    (activeMode : Option Mode) (isolate : Option Nat) : BundleAgent :=
  match s.reused d.versionId isolate with
  | some found => s.update i d (.served token mintedAt activeMode found.config.env)
  | none =>
    match s.bytes d.versionId with
    | none => s.update i d .failed
    | some payload =>
      let config := d.request.loaderConfig host d.versionId token activeMode payload
      { s.update i d (.served token mintedAt activeMode config.env) with
        isolates := s.isolates ++ [⟨d.versionId, config⟩] }

/-- What happens next. Labels that do not fit change nothing. -/
def step (s : BundleAgent) : DispatchEvent → BundleAgent
  | .tick now => { s with now := now }
  | .setActive versionId => { s with activeBundleVersionId := versionId }
  | .putVersion versionId payload requiredCapabilities =>
    { s with
      bytes := Function.update s.bytes versionId payload
      requiredCapabilities :=
        Function.update s.requiredCapabilities versionId requiredCapabilities }
  | .setMode sessionId modeId =>
    { s with activeModeId := Function.update s.activeModeId sessionId modeId }
  | .start request =>
    match s.activeBundleVersionId with
    | none => s
    | some versionId =>
      if versionId.isEmpty then s
      else { s with dispatches := s.dispatches ++ [⟨request, versionId, .started⟩] }
  | .mint i =>
    match s.dispatches[i]? with
    | some d =>
      match d.phase with
      | .started =>
        s.update i d (.minted (mintToken s.now i
          (d.request.mintOptions host.agentId (s.computeTokenScope d.versionId))) s.now)
      | _ => s
    | none => s
  | .resolveMode i =>
    match s.dispatches[i]? with
    | some d =>
      match d.phase with
      | .minted token mintedAt =>
        s.update i d (.ready token mintedAt (s.resolvedMode host d.request))
      | _ => s
    | none => s
  | .load i isolate =>
    match s.dispatches[i]? with
    | some d =>
      match d.phase with
      | .ready token mintedAt activeMode => s.load host i d token mintedAt activeMode isolate
      | _ => s
    | none => s

def run (events : List DispatchEvent) : BundleAgent := Run.run (step host) {} events

end BundleAgent

end CrabbyKit.Bundle
