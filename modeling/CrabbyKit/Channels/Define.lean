import CrabbyKit.Core.SortedMap
import CrabbyKit.Session.Store
import Mathlib.Data.String.Basic

/-!
# Channels

`defineChannel` and `handleInbound` of `channels/define-channel.ts`, the limiter of
`rate-limit/sliding-window.ts`, and what `agent-runtime.ts` does between them: `handleAgentPrompt`,
`ensureAgent`, the turn, and `dispatchAfterTurn`. A webhook delivery is a task; every await is a
step of its own, and what is awaited from the channel's author or the host is the answer of a step.
-/

namespace CrabbyKit.Channels

inductive WindowKind
  | minute
  | hour
  deriving DecidableEq, Repr

/-- `MINUTE_MS` and `HOUR_MS`. -/
def WindowKind.millis : WindowKind → Int
  | .minute => 60000
  | .hour => 60 * 60000

structure BucketRow where
  windowStart : Instant
  count : Nat
  deriving DecidableEq, Repr

/-- The rows of `rate_limit_buckets` by their primary key. -/
abbrev Buckets := String → WindowKind → Option BucketRow

/-- `windowStart`: the start of a stored window, moved to now when the window is behind. -/
def windowStart (row : Option BucketRow) (now : Instant) (windowMs : Int) : Instant :=
  match row with
  | none => now
  | some row => if now - row.windowStart ≥ windowMs then now else row.windowStart

/-- What is used up of the current window. -/
def windowCount (row : Option BucketRow) (start : Instant) : Nat :=
  match row with
  | none => 0
  | some row => if row.windowStart = start then row.count else 0

def writeBucket (buckets : Buckets) (key : String) (kind : WindowKind) (row : BucketRow) :
    Buckets :=
  Function.update buckets key (Function.update (buckets key) kind (some row))

structure RateLimitConfig where
  perMinute : Nat
  perHour : Option Nat := none
  deriving DecidableEq, Repr

/-- `consume`: both windows are read and decided on before either is written. -/
def consume (buckets : Buckets) (key : String) (config : RateLimitConfig) (now : Instant) :
    Buckets × Bool :=
  let minuteRow := buckets key .minute
  let minuteStart := windowStart minuteRow now (WindowKind.millis .minute)
  let minuteCount := windowCount minuteRow minuteStart
  if minuteCount ≥ config.perMinute then (buckets, false)
  else
    match config.perHour with
    | none => (writeBucket buckets key .minute ⟨minuteStart, minuteCount + 1⟩, true)
    | some perHour =>
      let hourRow := buckets key .hour
      let hourStart := windowStart hourRow now (WindowKind.millis .hour)
      let hourCount := windowCount hourRow hourStart
      if hourCount ≥ perHour then (buckets, false)
      else
        (writeBucket (writeBucket buckets key .minute ⟨minuteStart, minuteCount + 1⟩) key .hour
          ⟨hourStart, hourCount + 1⟩, true)

/-- The limits a channel resolves for an inbound message. -/
structure RateLimits where
  perSender : RateLimitConfig
  perAccount : RateLimitConfig
  deriving DecidableEq, Repr

structure ParsedInbound (Inbound : Type) where
  senderId : String
  text : String
  inbound : Inbound
  deriving DecidableEq, Repr

structure ChannelInboundStash (Inbound : Type) where
  accountId : String
  inbound : Inbound
  deriving DecidableEq, Repr

/-- `STASH_PREFIX`. -/
def stashStart : String := "channel-inbound:"

def stashKey (sessionId : String) : String := stashStart ++ sessionId

def errorReplyText : String := "Sorry — something went wrong. Please try again."

def blocksText (blocks : List ContentBlock) : String :=
  String.join (blocks.filterMap fun block =>
    match block with
    | .text text => some text
    | _ => none)

def extractFinalAssistantText (messages : List AgentMessage) : String :=
  match messages.reverse.find? fun msg => msg.role = .assistant with
  | none => ""
  | some msg =>
    match msg.content with
    | .plain text => text
    | .blocks blocks => blocksText blocks

/-- A channel: its id, which is also the source of its sessions, and the id of an account. -/
structure ChannelDefinition (Account : Type) where
  id : String
  accountId : Account → String

section Channel

variable {Account Inbound : Type}

/-- What a delivery, and after it its turn, does next. -/
inductive Task (Account Inbound : Type)
  /-- `handleInbound` waits for `getAccount`. -/
  | lookup
  | verifying (account : Account)
  | parsing (account : Account)
  /-- The sender's bucket has answered. -/
  | sender (account : Account) (parsed : ParsedInbound Inbound) (limits : RateLimits)
      (allowed : Bool)
  /-- The account's bucket has answered. -/
  | limited (account : Account) (parsed : ParsedInbound Inbound) (allowed : Bool)
  /-- The session is found and the inbound payload is about to be written. -/
  | stashing (account : Account) (parsed : ParsedInbound Inbound) (sessionId : String)
  | stashed (account : Account) (parsed : ParsedInbound Inbound) (sessionId : String)
  /-- `handleAgentPrompt` waits for `ensureAgent`. -/
  | ensuring (account : Account) (parsed : ParsedInbound Inbound) (sessionId : String)
  | ready (account : Account) (parsed : ParsedInbound Inbound) (sessionId : String)
  /-- The agent runs the turn of the message. -/
  | running (agent : Nat) (sessionId : String)
  /-- `sendPrompt` was rejected. -/
  | failed (account : Account) (parsed : ParsedInbound Inbound)
  /-- `afterTurn` waits for the stash. -/
  | dispatching (sessionId finalText : String)
  /-- `afterTurn` waits for the account of the stash. -/
  | resolving (stash : ChannelInboundStash Inbound) (finalText : String)
  deriving DecidableEq, Repr

/-- A call of `sendReply`, with the delivery whose turn or failure it ends. -/
structure Reply (Account Inbound : Type) where
  delivery : Nat
  account : Account
  inbound : Inbound
  text : String
  deriving DecidableEq, Repr

/-- What an await may bring. `failed` is a rejection of `ensureAgent`. -/
structure HostAnswer (Account Inbound : Type) where
  account : Except String (Option Account) := .ok none
  verified : Except String Bool := .ok true
  parsed : Except String (Option (ParsedInbound Inbound)) := .ok none
  limits : RateLimits := ⟨⟨0, none⟩, ⟨0, none⟩⟩
  now : Instant := 0
  nanoid : String := ""
  failed : Bool := false

/-- The stores of a channel, the agents of its sessions, the deliveries in the order in which they
came, and the replies that were sent. -/
structure Channel (Account Inbound : Type) where
  buckets : Buckets := fun _ _ => none
  sessionStore : SessionStore := {}
  stashes : SortedMap String (ChannelInboundStash Inbound) := .empty
  /-- `sessionAgents`. -/
  sessionAgents : String → Option Nat := fun _ => none
  agents : Nat := 0
  isStreaming : Nat → Bool := fun _ => false
  tasks : Nat → Option (Task Account Inbound) := fun _ => none
  deliveries : Nat := 0
  /-- The messages that passed both limits. -/
  accepted : Nat → Option (Account × ParsedInbound Inbound) := fun _ => none
  /-- The final text of the turn of a message. -/
  turns : Nat → Option String := fun _ => none
  replies : List (Reply Account Inbound) := []

namespace Channel

variable (s : Channel Account Inbound)

/-- A delivery goes on with its next await. -/
def goOn (i : Nat) (task : Task Account Inbound) : Channel Account Inbound :=
  { s with tasks := Function.update s.tasks i (some task) }

/-- Nothing is left to do for a delivery. -/
def finish (i : Nat) : Channel Account Inbound :=
  { s with tasks := Function.update s.tasks i none }

/-- `sendReply`. The caller catches its failure. -/
def sendReply (i : Nat) (account : Account) (inbound : Inbound) (text : String) :
    Channel Account Inbound :=
  { s with replies := s.replies ++ [⟨i, account, inbound, text⟩] }

/-- Whether an agent of the session runs: `existingAgent?.state.isStreaming`. -/
def busy (sessionId : String) : Bool :=
  match s.sessionAgents sessionId with
  | none => false
  | some agent => s.isStreaming agent

variable (d : ChannelDefinition Account)

def perSenderKey (account : Account) (parsed : ParsedInbound Inbound) : String :=
  d.id ++ ":" ++ d.accountId account ++ ":sender:" ++ parsed.senderId

def perAccountKey (account : Account) : String := d.id ++ ":" ++ d.accountId account ++ ":_global"

/-- The session of a sender, created if there is none. -/
def resolveSession (senderId nanoid : String) (now : Instant) :
    Except StoreError (SessionStore × String) :=
  match s.sessionStore.findBySourceAndSender d.id senderId with
  | some existing => .ok (s.sessionStore, existing.id)
  | none =>
    match s.sessionStore.create { source := some d.id, sender := some senderId } nanoid now with
    | .error err => .error err
    | .ok (sessionStore, session) => .ok (sessionStore, session.id)

/-- `handleInbound` up to `sendPrompt`, then `handleAgentPrompt` and the hook. -/
def advance (i : Nat) (answer : HostAnswer Account Inbound) :
    Task Account Inbound → Channel Account Inbound
  | .lookup =>
    match answer.account with
    | .ok (some account) => s.goOn i (.verifying account)
    | _ => s.finish i
  | .verifying account =>
    match answer.verified with
    | .ok true => s.goOn i (.parsing account)
    | _ => s.finish i
  | .parsing account =>
    match answer.parsed with
    | .ok (some parsed) =>
      let (buckets, allowed) :=
        consume s.buckets (perSenderKey d account parsed) answer.limits.perSender answer.now
      { s.goOn i (.sender account parsed answer.limits allowed) with buckets }
    | _ => s.finish i
  | .sender account parsed limits allowed =>
    if allowed then
      let (buckets, allowed) :=
        consume s.buckets (perAccountKey d account) limits.perAccount answer.now
      { s.goOn i (.limited account parsed allowed) with buckets }
    else s.finish i
  | .limited account parsed allowed =>
    if allowed then
      let s := { s with accepted := Function.update s.accepted i (some (account, parsed)) }
      match s.resolveSession d parsed.senderId answer.nanoid answer.now with
      | .error _ => s.finish i
      | .ok (sessionStore, sessionId) =>
        { s.goOn i (.stashing account parsed sessionId) with sessionStore }
    else s.finish i
  | .stashing account parsed sessionId =>
    { s.goOn i (.stashed account parsed sessionId) with
      stashes := s.stashes.put (stashKey sessionId) ⟨d.accountId account, parsed.inbound⟩ }
  | .stashed account parsed sessionId =>
    -- `handleAgentPrompt` throws when the agent is busy on this session.
    if s.busy sessionId then s.goOn i (.failed account parsed)
    else s.goOn i (.ensuring account parsed sessionId)
  | .ensuring account parsed sessionId =>
    if answer.failed then s.goOn i (.failed account parsed)
    else
      { s.goOn i (.ready account parsed sessionId) with
        sessionAgents := Function.update s.sessionAgents sessionId (some s.agents)
        agents := s.agents + 1 }
  | .ready account parsed sessionId =>
    match s.sessionAgents sessionId with
    | none => s.goOn i (.failed account parsed)
    | some agent =>
      -- `Agent.prompt` throws while a prompt is processed.
      if s.isStreaming agent then s.goOn i (.failed account parsed)
      else
        { s.goOn i (.running agent sessionId) with
          isStreaming := Function.update s.isStreaming agent true }
  | .running _ _ => s
  | .failed account parsed => (s.finish i).sendReply i account parsed.inbound errorReplyText
  | .dispatching sessionId finalText =>
    match s.stashes.get (stashKey sessionId) with
    | none => s.finish i
    | some stash => s.goOn i (.resolving stash finalText)
  | .resolving stash finalText =>
    match answer.account with
    | .ok (some account) => (s.finish i).sendReply i account stash.inbound finalText
    | _ => s.finish i

/-- The agent's `agent_end`: it is idle and unregistered, and `afterTurn` is dispatched. -/
def turnEnd (i : Nat) (messages : List AgentMessage) : Channel Account Inbound :=
  match s.tasks i with
  | some (.running agent sessionId) =>
    let finalText := extractFinalAssistantText messages
    { s.goOn i (.dispatching sessionId finalText) with
      isStreaming := Function.update s.isStreaming agent false
      sessionAgents := Function.update s.sessionAgents sessionId none
      turns := Function.update s.turns i (some finalText) }
  | _ => s

def deliver : Channel Account Inbound :=
  { s with
    tasks := Function.update s.tasks s.deliveries (some .lookup)
    deliveries := s.deliveries + 1 }

end Channel

/-- What happens to a channel. -/
inductive Label (Account Inbound : Type)
  | deliver
  | advance (i : Nat) (answer : HostAnswer Account Inbound)
  | turnEnd (i : Nat) (messages : List AgentMessage)

open Channel in
def step (d : ChannelDefinition Account) (s : Channel Account Inbound) :
    Label Account Inbound → Channel Account Inbound
  | .deliver => s.deliver
  | .advance i answer =>
    match s.tasks i with
    | none => s
    | some task => s.advance d i answer task
  | .turnEnd i messages => s.turnEnd i messages

end Channel

end CrabbyKit.Channels
