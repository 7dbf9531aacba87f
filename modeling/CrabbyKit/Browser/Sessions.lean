import CrabbyKit.Core.Run
import CrabbyKit.Core.SortedMap
import CrabbyKit.Session.Types
import Mathlib.Data.String.Basic

/-!
# Browser sessions

`SessionManager` of `session-manager.ts`: opening and closing a browser for a chat session,
reconnecting to it, and recovering the sessions that lost their connection. Every call of the
provider, of a connection and of the storage is a step of its own, and may be overtaken. The stored
cookies pass through unread; whether there are any, and the last address, are answers of a step.
-/

namespace CrabbyKit.Browser

/-- `ActiveSession`, without the address of its connection. -/
structure ActiveSession where
  browserbaseId : Nat
  usedContext : Bool
  startedAt : Instant
  deriving DecidableEq, Repr

/-- A `CDPClient` and the remote session it is connected to. -/
structure CDPClient where
  browserbaseId : Nat
  isConnected : Bool := true
  deriving DecidableEq, Repr

/-- A live session of the provider: the chat session it was created for, and whether it uses the
persistent context. -/
structure RemoteSession where
  chat : String
  usesContext : Bool
  deriving DecidableEq, Repr

/-- What an operation waits for between its first and its last storage access. -/
inductive Await
  | connect
  | attachToPage
  | pageEnable
  | networkEnable
  | domEnable
  | accessibilityEnable
  | readState
  | setCookies
  | readLastUrl
  | navigate (url : String)
  | waitForLoad
  | debugUrls
  | getCookies
  | currentUrl
  | putState
  deriving DecidableEq, Repr

/-- The awaits that may be rejected: calls of the provider and of a connection. -/
def Await.fallible : Await → Bool
  | .readState => false
  | .readLastUrl => false
  | .waitForLoad => false
  | .putState => false
  | _ => true

def connecting : List Await :=
  [.connect, .attachToPage, .pageEnable, .networkEnable, .domEnable, .accessibilityEnable]

/-- The navigation to the target, and the live view. -/
def navigating (targetUrl : String) : List Await :=
  (if targetUrl = "about:blank" then [] else [.navigate targetUrl, .waitForLoad]) ++ [.debugUrls]

/-- What `open` waits for once the remote session is created. -/
def setup (url : Option String) (useContext : Bool) : List Await :=
  connecting ++ (if useContext then [] else [.readState]) ++
    match url with
    | some url => navigating url
    | none => [.readLastUrl]

/-- What `close` waits for while it saves the cookies. -/
def saving : List Await := [.getCookies, .currentUrl, .readState, .putState]

/-- What an operation does next. -/
inductive Task
  /-- `open` waits for the record of its chat session. -/
  | checking (chat : String) (url : Option String)
  /-- `open` waits for the number of records. -/
  | counting (chat : String) (url : Option String)
  | creating (chat : String) (url : Option String) (useContext : Bool)
  | opening (chat : String) (session : ActiveSession) (todo : List Await)
  /-- `close` waits for the record. -/
  | closing (chat : String)
  | saving (chat : String) (active : ActiveSession) (todo : List Await)
  | releasing (chat : String) (active : ActiveSession)
  | forgetting (chat : String) (active : ActiveSession)
  /-- `ensureCDP` waits for the record. -/
  | finding (chat : String)
  | reconnecting (chat : String) (active : ActiveSession) (todo : List Await)
  /-- `recoverOrphans` waits for the records. -/
  | listing
  | recovering (chat : String) (active : ActiveSession) (rest : List (String × ActiveSession))
  | dropping (chat : String) (active : ActiveSession) (rest : List (String × ActiveSession))
  deriving DecidableEq, Repr

/-- How the last operation on a chat session ended. -/
inductive Outcome
  | opened (browserbaseId : Nat)
  /-- "Browser is already open for this session. Close it first." -/
  | refused
  | failed
  | closed (durationMinutes : Int)
  /-- "No active browser session for this chat session." -/
  | notActive
  | recovered (durationMinutes : Int)
  deriving DecidableEq, Repr

/-- What an await brings. -/
structure HostAnswer where
  failed : Bool := false
  /-- Whether cookies are stored. -/
  cookies : Bool := false
  lastUrl : Option String := none
  now : Instant := 0
  deriving DecidableEq, Repr

/-- The records, the connections of this isolate, the operations in the order of their start, and
the sessions of the provider. -/
structure Manager where
  active : SortedMap String ActiveSession := .empty
  cdpClients : String → Option CDPClient := fun _ => none
  tasks : Nat → Option Task := fun _ => none
  started : Nat := 0
  live : Nat → Option RemoteSession := fun _ => none
  created : Nat := 0
  outcome : String → Option Outcome := fun _ => none

namespace Manager

variable (s : Manager)

def goOn (i : Nat) (task : Task) : Manager :=
  { s with tasks := Function.update s.tasks i (some task) }

def finish (i : Nat) : Manager := { s with tasks := Function.update s.tasks i none }

def finishWith (i : Nat) (chat : String) (outcome : Outcome) : Manager :=
  { s.finish i with outcome := Function.update s.outcome chat (some outcome) }

/-- `Math.ceil((Date.now() - startMs) / 60_000)`. -/
def durationMinutes (active : ActiveSession) (now : Instant) : Int :=
  -(-(now - active.startedAt) / 60000)

def releaseSession (browserbaseId : Nat) (failed : Bool) : Manager :=
  if failed then s else { s with live := Function.update s.live browserbaseId none }

/-- `cdpClients.set`. -/
def setClient (chat : String) (session : ActiveSession) : Manager :=
  { s with cdpClients := Function.update s.cdpClients chat (some ⟨session.browserbaseId, true⟩) }

/-- The loop of `recoverOrphans`: chat sessions with a client are passed over. -/
def recoverNext (i : Nat) : List (String × ActiveSession) → Manager
  | [] => s.finish i
  | (chat, active) :: rest =>
    if (s.cdpClients chat).isSome then recoverNext i rest
    else s.goOn i (.recovering chat active rest)

/-- What is left to wait for after one await of `open`. -/
def afterAwait (await : Await) (rest : List Await) (answer : HostAnswer) : List Await :=
  match await with
  | .readState => if answer.cookies then .setCookies :: rest else rest
  | .readLastUrl => navigating (answer.lastUrl.getD "about:blank")
  | _ => rest

/-- One step of `open` after the remote session is created; it ends with the record. -/
def openStep (i : Nat) (chat : String) (session : ActiveSession) (answer : HostAnswer) :
    List Await → Manager
  | [] =>
    let s := { s with active := s.active.put chat { session with startedAt := answer.now } }
    s.finishWith i chat (.opened session.browserbaseId)
  | await :: rest =>
    if answer.failed && await.fallible then s.finishWith i chat .failed
    else
      let s := if await = .attachToPage then s.setClient chat session else s
      s.goOn i (.opening chat session (afterAwait await rest answer))

/-- `close` has saved what it could: the client is closed and forgotten. -/
def closeClient (i : Nat) (chat : String) (active : ActiveSession) : Manager :=
  { s.goOn i (.releasing chat active) with cdpClients := Function.update s.cdpClients chat none }

/-- `open`, `close`, `ensureCDP` and `recoverOrphans`, from one await to the next. `contextId` says
whether a persistent context is configured. -/
def advance (contextId : Bool) (i : Nat) (answer : HostAnswer) : Task → Manager
  | .checking chat url =>
    match s.active.get chat with
    | some _ => s.finishWith i chat .refused
    | none => s.goOn i (.counting chat url)
  | .counting chat url => s.goOn i (.creating chat url (s.active.rows.isEmpty && contextId))
  | .creating chat url useContext =>
    if answer.failed then s.finishWith i chat .failed
    else
      let session : ActiveSession := ⟨s.created, useContext, answer.now⟩
      { s.goOn i (.opening chat session (setup url useContext)) with
        live := Function.update s.live s.created (some ⟨chat, useContext⟩)
        created := s.created + 1 }
  | .opening chat session todo => s.openStep i chat session answer todo
  | .closing chat =>
    match s.active.get chat with
    | none => s.finishWith i chat .notActive
    | some active =>
      match s.cdpClients chat with
      | some ⟨_, true⟩ => s.goOn i (.saving chat active Browser.saving)
      | _ => s.closeClient i chat active
  | .saving chat active [] => s.closeClient i chat active
  | .saving chat active (await :: rest) =>
    -- Saving is best effort: a rejection ends it and `close` goes on.
    if answer.failed && await.fallible then s.closeClient i chat active
    else s.goOn i (.saving chat active rest)
  | .releasing chat active =>
    (s.releaseSession active.browserbaseId answer.failed).goOn i (.forgetting chat active)
  | .forgetting chat active =>
    { s.finishWith i chat (.closed (durationMinutes active answer.now)) with
      active := (s.active.delete chat).1 }
  | .finding chat =>
    match s.active.get chat with
    | none => s.finish i
    | some active => s.goOn i (.reconnecting chat active connecting)
  | .reconnecting chat active [] => (s.setClient chat active).finish i
  | .reconnecting chat active (_ :: rest) =>
    if answer.failed then s.finish i else s.goOn i (.reconnecting chat active rest)
  | .listing => s.recoverNext i s.active.rows
  | .recovering chat active rest =>
    (s.releaseSession active.browserbaseId answer.failed).goOn i (.dropping chat active rest)
  | .dropping chat active rest =>
    let s :=
      { s with
        active := (s.active.delete chat).1
        outcome := Function.update s.outcome chat
          (some (.recovered (durationMinutes active answer.now))) }
    s.recoverNext i rest

/-- An operation is started. -/
def spawn (task : Task) : Manager :=
  { s with tasks := Function.update s.tasks s.started (some task), started := s.started + 1 }

end Manager

/-- What happens to the manager. A timeout is a close. -/
inductive Label
  | open (chat : String) (url : Option String)
  | close (chat : String)
  | ensureCDP (chat : String)
  | recoverOrphans
  | advance (i : Nat) (answer : HostAnswer)
  /-- A connection is lost. -/
  | disconnect (chat : String)
  /-- The provider ends a session. -/
  | expire (browserbaseId : Nat)
  /-- The isolate goes, with its connections and what it was doing. -/
  | hibernate
  deriving DecidableEq, Repr

open Manager in
def step (contextId : Bool) (s : Manager) : Label → Manager
  | .open chat url => s.spawn (.checking chat url)
  | .close chat => s.spawn (.closing chat)
  | .ensureCDP chat =>
    match s.cdpClients chat with
    | some ⟨_, true⟩ => s
    | _ => s.spawn (.finding chat)
  | .recoverOrphans => s.spawn .listing
  | .advance i answer =>
    match s.tasks i with
    | none => s
    | some task => s.advance contextId i answer task
  | .disconnect chat =>
    { s with
      cdpClients := Function.update s.cdpClients chat
        ((s.cdpClients chat).map fun client => { client with isConnected := false }) }
  | .expire browserbaseId => { s with live := Function.update s.live browserbaseId none }
  | .hibernate => { s with cdpClients := fun _ => none, tasks := fun _ => none }

end CrabbyKit.Browser
