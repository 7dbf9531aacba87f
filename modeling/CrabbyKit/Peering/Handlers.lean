import CrabbyKit.Core.Run
import CrabbyKit.Core.SortedMap
import CrabbyKit.Session.Types
import Mathlib.Data.String.Basic

/-!
# Agent peering

`requestPeer` and `revokePeer` of `service.ts` and the handlers of `handlers.ts`, at any number of
agents. An agent is known by the id it signs its tokens with. Every storage access and every message
is a step of its own; a request and the handler that answers it are one task, which moves to the
other agent with the message and comes back with the reply.
-/

namespace CrabbyKit.Peering

inductive PeerStatus
  | accepted
  | pending
  | rejected
  deriving DecidableEq, Repr

structure PeerRecord where
  agentId : String
  agentName : String
  status : PeerStatus
  grantedAt : Instant
  deriving DecidableEq, Repr

inductive PeerPolicy
  | autoAllow
  | autoDisallow
  | userApproval
  deriving DecidableEq, Repr

/-- The options of an agent; the stub of an id is given by the agent that it reaches. -/
structure PeeringOptions where
  getAgentStub : String → String := id
  resolveDoId : Option (String → String) := none
  agentName : Option String := none
  sameOwnerPolicy : Option PeerPolicy := none

def resolvePolicy (options : PeeringOptions) : PeerPolicy :=
  options.sameOwnerPolicy.getD .autoAllow

def statusFromPolicy : PeerPolicy → PeerStatus
  | .autoAllow => .accepted
  | .autoDisallow => .rejected
  | .userApproval => .pending

/-- What a user decides about a handshake. -/
inductive Decision
  | approve
  | deny
  deriving DecidableEq, Repr

def Decision.status : Decision → PeerStatus
  | .approve => .accepted
  | .deny => .rejected

/-- A response that is not ok. -/
structure HttpError where
  status : Nat
  error : String
  deriving DecidableEq, Repr

/-- The body of the response. -/
def HttpError.text (e : HttpError) : String := "\x7b\"error\":\"" ++ e.error ++ "\"\x7d"

/-- What a token vouches for. -/
structure InterAgentPayload where
  sender : String
  target : String
  deriving DecidableEq, Repr

/-- `getAuthFromRequest` and `verifyToken` at `agentId`. -/
def authenticate (agentId : String) (payload : InterAgentPayload) (expired : Bool) :
    Except HttpError String :=
  if payload.sender = "" then .error ⟨401, "Missing auth headers"⟩
  else if payload.target ≠ agentId ∨ expired then .error ⟨401, "Invalid or expired token"⟩
  else .ok payload.sender

/-- How far a message and its handler are. -/
inductive Phase (ρ : Type)
  | arriving
  | reading
  | putting (record : PeerRecord)
  | replying (response : ρ)
  deriving DecidableEq, Repr

/-- What an operation does next. `waiting` says whether the sender still waits for the reply. -/
inductive Task
  | handshake (self targetAgentId : String) (phase : Phase (Except HttpError PeerStatus))
    (waiting : Bool)
  /-- `requestPeer` has its reply and stores its record. -/
  | storing (self : String) (record : PeerRecord)
  /-- The approve or deny handler waits for the record. -/
  | deciding (decision : Decision) (self agentId : String)
  | decided (decision : Decision) (self agentId : String) (record : PeerRecord)
  | callback (decision : Decision) (self agentId : String)
    (phase : Phase (Except HttpError Unit)) (waiting : Bool)
  /-- `revokePeer` before its first and its second deletion. -/
  | revoking (self agentId : String)
  | forgetting (self agentId : String)

/-- What happens to be seen from outside: the broadcast of a pending handshake, the starts of the
handlers of a user, and what the operations return. -/
inductive Event
  | handshakePending (self agentId agentName : String)
  | requested (self targetAgentId : String) (result : Except String PeerRecord)
  | started (decision : Decision) (self agentId : String)
  | ended (decision : Decision) (self agentId : String) (response : Except HttpError Unit)
  | revoked (self agentId : String)

/-- What a step brings. -/
structure HostAnswer where
  now : Instant := 0
  /-- The message or the reply is lost. -/
  lost : Bool := false
  expired : Bool := false
  deriving DecidableEq, Repr

/-- The storages of the agents, the operations in the order of their start, and the events, the last
one first. -/
structure System where
  storage : String → SortedMap String PeerRecord := fun _ => .empty
  tasks : Nat → Option Task := fun _ => none
  started : Nat := 0
  log : List Event := []

def inboundKey (agentId : String) : String := "peer:in:" ++ agentId

def outboundKey (agentId : String) : String := "peer:out:" ++ agentId

namespace System

variable (s : System)

def getInboundPeer (self agentId : String) : Option PeerRecord :=
  (s.storage self).get (inboundKey agentId)

def getOutboundPeer (self agentId : String) : Option PeerRecord :=
  (s.storage self).get (outboundKey agentId)

def setInboundPeer (self : String) (record : PeerRecord) : System :=
  { s with
    storage := Function.update s.storage self
      ((s.storage self).put (inboundKey record.agentId) record) }

def setOutboundPeer (self : String) (record : PeerRecord) : System :=
  { s with
    storage := Function.update s.storage self
      ((s.storage self).put (outboundKey record.agentId) record) }

def deleteInboundPeer (self agentId : String) : System :=
  { s with
    storage := Function.update s.storage self ((s.storage self).delete (inboundKey agentId)).1 }

def deleteOutboundPeer (self agentId : String) : System :=
  { s with
    storage := Function.update s.storage self ((s.storage self).delete (outboundKey agentId)).1 }

def isPeerAuthorized (self agentId : String) : Bool :=
  (s.getInboundPeer self agentId).map PeerRecord.status = some .accepted

def emit (event : Event) : System := { s with log := event :: s.log }

def goOn (i : Nat) (task : Task) : System :=
  { s with tasks := Function.update s.tasks i (some task) }

def finish (i : Nat) : System := { s with tasks := Function.update s.tasks i none }

/-- An operation is started. -/
def spawn (task : Task) : System :=
  { s with tasks := Function.update s.tasks s.started (some task), started := s.started + 1 }

/-- `requestPeer` throws, if it has not done so already. -/
def failRequest (self targetAgentId error : String) (waiting : Bool) : System :=
  if waiting then s.emit (.requested self targetAgentId (.error error)) else s

/-- The handler of a decision answers, if it has not done so already. -/
def endDecision (decision : Decision) (self agentId : String) (waiting : Bool) : System :=
  if waiting then s.emit (.ended decision self agentId (.ok ())) else s

variable (options : String → PeeringOptions)

/-- The token of `requestPeer`. -/
def requestPayload (self targetAgentId : String) : InterAgentPayload :=
  ⟨self, ((options self).resolveDoId.getD id) targetAgentId⟩

/-- `handshakeHandler` at the agent that the stub reaches, and the reply back at `requestPeer`. -/
def handshakeHandler (i : Nat) (answer : HostAnswer) (self targetAgentId : String)
    (waiting : Bool) : Phase (Except HttpError PeerStatus) → System
  | .arriving =>
    if answer.lost then (s.finish i).failRequest self targetAgentId "unreachable" waiting
    else
      match authenticate ((options self).getAgentStub targetAgentId)
        (requestPayload options self targetAgentId) answer.expired with
      | .error refusal =>
        s.goOn i (.handshake self targetAgentId (.replying (.error refusal)) waiting)
      | .ok _ => s.goOn i (.handshake self targetAgentId .reading waiting)
  | .reading =>
    -- The sender of the payload is `self`.
    match s.getInboundPeer ((options self).getAgentStub targetAgentId) self with
    | some existing =>
      s.goOn i (.handshake self targetAgentId (.replying (.ok existing.status)) waiting)
    | none =>
      let record : PeerRecord :=
        { agentId := self
          agentName := (options self).agentName.getD self
          status := statusFromPolicy
            (resolvePolicy (options ((options self).getAgentStub targetAgentId)))
          grantedAt := answer.now }
      s.goOn i (.handshake self targetAgentId (.putting record) waiting)
  | .putting record =>
    let target := (options self).getAgentStub targetAgentId
    let s := (s.setInboundPeer target record).goOn i
      (.handshake self targetAgentId (.replying (.ok record.status)) waiting)
    if record.status = .pending then s.emit (.handshakePending target self record.agentName) else s
  | .replying response =>
    if answer.lost || !waiting then
      (s.finish i).failRequest self targetAgentId "unreachable" waiting
    else
      match response with
      | .ok status =>
        s.goOn i (.storing self ⟨targetAgentId, targetAgentId, status, answer.now⟩)
      | .error refusal =>
        (s.finish i).failRequest self targetAgentId
          ("Handshake failed: " ++ toString refusal.status ++ " " ++ refusal.text) waiting

/-- `handshakeCallbackHandler` at the agent that the stub reaches, and its reply, which the sender
does not look at. -/
def handshakeCallbackHandler (i : Nat) (answer : HostAnswer) (decision : Decision)
    (self agentId : String) (waiting : Bool) : Phase (Except HttpError Unit) → System
  | .arriving =>
    if answer.lost then (s.finish i).endDecision decision self agentId waiting
    else
      match authenticate ((options self).getAgentStub agentId) ⟨self, agentId⟩ answer.expired with
      | .error refusal =>
        s.goOn i (.callback decision self agentId (.replying (.error refusal)) waiting)
      | .ok _ => s.goOn i (.callback decision self agentId .reading waiting)
  | .reading =>
    match s.getOutboundPeer ((options self).getAgentStub agentId) self with
    | none => s.goOn i (.callback decision self agentId (.replying (.ok ())) waiting)
    | some existing =>
      s.goOn i (.callback decision self agentId
        (.putting { existing with status := decision.status, grantedAt := answer.now }) waiting)
  | .putting record =>
    (s.setOutboundPeer ((options self).getAgentStub agentId) record).goOn i
      (.callback decision self agentId (.replying (.ok ())) waiting)
  | .replying _ => (s.finish i).endDecision decision self agentId waiting

/-- An operation from one step to the next. -/
def advance (i : Nat) (answer : HostAnswer) : Task → System
  | .handshake self targetAgentId phase waiting =>
    s.handshakeHandler options i answer self targetAgentId waiting phase
  | .storing self record =>
    ((s.setOutboundPeer self record).finish i).emit (.requested self record.agentId (.ok record))
  | .deciding decision self agentId =>
    match s.getInboundPeer self agentId with
    | none =>
      (s.finish i).emit
        (.ended decision self agentId (.error ⟨404, "No pending handshake for this agent"⟩))
    | some existing =>
      s.goOn i (.decided decision self agentId
        { existing with status := decision.status, grantedAt := answer.now })
  | .decided decision self agentId record =>
    (s.setInboundPeer self record).goOn i (.callback decision self agentId .arriving true)
  | .callback decision self agentId phase waiting =>
    s.handshakeCallbackHandler options i answer decision self agentId waiting phase
  | .revoking self agentId => (s.deleteInboundPeer self agentId).goOn i (.forgetting self agentId)
  | .forgetting self agentId =>
    ((s.deleteOutboundPeer self agentId).finish i).emit (.revoked self agentId)

/-- The fetch of a message is rejected at its sender while the handler goes on. -/
def reject (i : Nat) : Task → System
  | .handshake self targetAgentId phase waiting =>
    (s.goOn i (.handshake self targetAgentId phase false)).failRequest self targetAgentId
      "unreachable" waiting
  | .callback decision self agentId phase waiting =>
    (s.goOn i (.callback decision self agentId phase false)).endDecision decision self agentId
      waiting
  | _ => s

/-- What the two handlers of a user share. -/
def handshakeDecision (decision : Decision) (self agentId : String) : System :=
  let s := s.emit (.started decision self agentId)
  if agentId = "" then s.emit (.ended decision self agentId (.error ⟨400, "Missing agentId"⟩))
  else s.spawn (.deciding decision self agentId)

def handshakeApproveHandler (self agentId : String) : System :=
  s.handshakeDecision .approve self agentId

def handshakeDenyHandler (self agentId : String) : System :=
  s.handshakeDecision .deny self agentId

def requestPeer (self targetAgentId : String) : System :=
  s.spawn (.handshake self targetAgentId .arriving true)

def revokePeer (self agentId : String) : System := s.spawn (.revoking self agentId)

end System

/-- What happens to the agents. -/
inductive Label
  | requestPeer (self targetAgentId : String)
  | approve (self agentId : String)
  | deny (self agentId : String)
  | revokePeer (self agentId : String)
  | advance (i : Nat) (answer : HostAnswer)
  | reject (i : Nat)
  deriving DecidableEq, Repr

namespace System

def step (options : String → PeeringOptions) (s : System) : Label → System
  | .requestPeer self targetAgentId => s.requestPeer self targetAgentId
  | .approve self agentId => s.handshakeApproveHandler self agentId
  | .deny self agentId => s.handshakeDenyHandler self agentId
  | .revokePeer self agentId => s.revokePeer self agentId
  | .advance i answer =>
    match s.tasks i with
    | some task => s.advance options i answer task
    | none => s
  | .reject i =>
    match s.tasks i with
    | some task => s.reject i task
    | none => s

end System

end CrabbyKit.Peering
