import Mathlib.Data.List.Nodup

/-!
# WebSocket transport under hibernation

`CfWebSocketTransport` of `transport/cloudflare.ts`. The map of connections is lost when the
Durable Object hibernates; the accepted sockets and their attachments stay. A connection comes
back when its socket speaks, and a broadcast goes to the connections that are there.
-/

namespace CrabbyKit.Transport

/-- The id of a connection, from `crypto.randomUUID()`: never the empty string. -/
abbrev ConnectionId := { connectionId : String // connectionId ≠ "" }

/-- `CfAttachment`: what the runtime keeps with a hibernating socket. -/
structure CfAttachment where
  sessionId : String
  connectionId : ConnectionId
  deriving DecidableEq, Repr

/-- An accepted socket, with what its client has received. -/
structure WebSocket (M : Type*) where
  isOpen : Bool
  attachment : CfAttachment
  received : List M
  deriving DecidableEq, Repr

/-- `ws.send(..)` inside its `try`: a socket that is not open takes nothing. -/
def WebSocket.send {M : Type*} (socket : WebSocket M) (msg : M) : WebSocket M :=
  if socket.isOpen then { socket with received := socket.received ++ [msg] } else socket

/-- `CfTransportConnection`, without its socket. -/
structure CfTransportConnection where
  id : ConnectionId
  sessionId : String
  wasRestoredFromHibernation : Bool
  deriving DecidableEq, Repr

/-- The sockets that the runtime holds and the `connections` map in memory. -/
structure CfWebSocketTransport (M : Type*) where
  sockets : Nat → Option (WebSocket M)
  connections : List (Nat × CfTransportConnection)

namespace CfWebSocketTransport

variable {M : Type*}

/-- Before the first upgrade. -/
def initial : CfWebSocketTransport M := ⟨fun _ => none, []⟩

/-- `this.connections.get(ws)`. -/
def get (t : CfWebSocketTransport M) (ws : Nat) : Option CfTransportConnection :=
  (t.connections.find? fun entry => entry.1 = ws).map Prod.snd

def modifySocket (t : CfWebSocketTransport M) (ws : Nat) (f : WebSocket M → WebSocket M) :
    CfWebSocketTransport M :=
  { t with sockets := Function.update t.sockets ws ((t.sockets ws).map f) }

/-- `connection.send(msg)`. -/
def send (t : CfWebSocketTransport M) (ws : Nat) (msg : M) : CfWebSocketTransport M :=
  t.modifySocket ws fun socket => socket.send msg

/-- `handleUpgrade`, up to the call of the open handler. -/
def handleUpgrade (t : CfWebSocketTransport M) (ws : Nat) (connectionId : ConnectionId) :
    CfWebSocketTransport M where
  sockets := Function.update t.sockets ws (some ⟨true, ⟨"", connectionId⟩, []⟩)
  connections := t.connections ++ [(ws, ⟨connectionId, "", false⟩)]

/-- `handleMessage`, up to the call of the message handler. -/
def handleMessage (t : CfWebSocketTransport M) (ws : Nat) : CfWebSocketTransport M :=
  match t.get ws, t.sockets ws with
  | none, some socket =>
    if socket.attachment.sessionId ≠ "" ∧ socket.attachment.connectionId.val ≠ "" then
      { t with connections := t.connections ++
        [(ws, ⟨socket.attachment.connectionId, socket.attachment.sessionId, true⟩)] }
    else t
  | _, _ => t

/-- `connection.setSessionId(sessionId)`: the connection and the attachment of its socket. -/
def setSessionId (t : CfWebSocketTransport M) (ws : Nat) (sessionId : String) :
    CfWebSocketTransport M :=
  { t.modifySocket ws fun socket =>
      { socket with attachment := ⟨sessionId, socket.attachment.connectionId⟩ } with
    connections := t.connections.map fun entry =>
      if entry.1 = ws then (ws, { entry.2 with sessionId := sessionId }) else entry }

def handleClose (t : CfWebSocketTransport M) (ws : Nat) : CfWebSocketTransport M :=
  { t with connections := t.connections.filter fun entry => entry.1 ≠ ws }

/-- The socket is no longer open; the Durable Object hears of it later. -/
def drop (t : CfWebSocketTransport M) (ws : Nat) : CfWebSocketTransport M :=
  t.modifySocket ws fun socket => { socket with isOpen := false }

/-- Hibernation: the memory is gone. -/
def hibernate (t : CfWebSocketTransport M) : CfWebSocketTransport M := { t with connections := [] }

/-- `getConnectionsForSession(sessionId)`. -/
def getConnectionsForSession (t : CfWebSocketTransport M) (sessionId : String) :
    List (Nat × CfTransportConnection) :=
  t.connections.filter fun entry => entry.2.sessionId = sessionId

def sendAll (t : CfWebSocketTransport M) (targets : List (Nat × CfTransportConnection)) (msg : M) :
    CfWebSocketTransport M :=
  targets.foldl (fun t entry => t.send entry.1 msg) t

/-- `broadcast(msg)`. -/
def broadcast (t : CfWebSocketTransport M) (msg : M) : CfWebSocketTransport M :=
  t.sendAll t.connections msg

/-- `broadcastToSession(sessionId, msg)`. -/
def broadcastToSession (t : CfWebSocketTransport M) (sessionId : String) (msg : M) :
    CfWebSocketTransport M :=
  t.sendAll (t.getConnectionsForSession sessionId) msg

end CfWebSocketTransport

/-- What happens to the transport. -/
inductive Event (M : Type*)
  | accept (ws : Nat) (connectionId : ConnectionId)
  | message (ws : Nat)
  | setSessionId (ws : Nat) (sessionId : String)
  | drop (ws : Nat)
  | close (ws : Nat)
  | hibernate
  | broadcast (msg : M)
  | broadcastToSession (sessionId : String) (msg : M)
  deriving DecidableEq, Repr

section Runs

variable {M : Type*}

/-- An event, where it can happen: an upgrade brings a new socket. -/
def step (t : CfWebSocketTransport M) : Event M → Option (CfWebSocketTransport M)
  | .accept ws connectionId =>
    if (t.sockets ws).isSome then none else some (t.handleUpgrade ws connectionId)
  | .message ws => if (t.sockets ws).isSome then some (t.handleMessage ws) else none
  | .setSessionId ws sessionId =>
    if (t.sockets ws).isSome then some (t.setSessionId ws sessionId) else none
  | .drop ws => if (t.sockets ws).isSome then some (t.drop ws) else none
  | .close ws => if (t.sockets ws).isSome then some ((t.drop ws).handleClose ws) else none
  | .hibernate => some t.hibernate
  | .broadcast msg => some (t.broadcast msg)
  | .broadcastToSession sessionId msg => some (t.broadcastToSession sessionId msg)

/-- The state after a history, its last event first. -/
def run : List (Event M) → Option (CfWebSocketTransport M)
  | [] => some .initial
  | e :: earlier => (run earlier).bind fun t => step t e

/-- The session id that was last set for a socket. -/
def lastSet (ws : Nat) : List (Event M) → String
  | [] => ""
  | .setSessionId w sessionId :: earlier => if w = ws then sessionId else lastSet ws earlier
  | _ :: earlier => lastSet ws earlier

/-- Since the last hibernation the socket was accepted, or it spoke with a session id set. -/
def Heard (ws : Nat) : List (Event M) → Prop
  | [] => False
  | .accept w _ :: earlier => w = ws ∨ Heard ws earlier
  | .message w :: earlier => (w = ws ∧ lastSet ws earlier ≠ "") ∨ Heard ws earlier
  | .hibernate :: _ => False
  | _ :: earlier => Heard ws earlier

instance (ws : Nat) : (history : List (Event M)) → Decidable (Heard ws history)
  | [] => isFalse id
  | .accept w _ :: earlier =>
    have := instDecidableHeard ws earlier
    inferInstanceAs (Decidable (w = ws ∨ Heard ws earlier))
  | .message w :: earlier =>
    have := instDecidableHeard ws earlier
    inferInstanceAs (Decidable ((w = ws ∧ lastSet ws earlier ≠ "") ∨ Heard ws earlier))
  | .hibernate :: _ => isFalse id
  | .setSessionId _ _ :: earlier => instDecidableHeard ws earlier
  | .drop _ :: earlier => instDecidableHeard ws earlier
  | .close _ :: earlier => instDecidableHeard ws earlier
  | .broadcast _ :: earlier => instDecidableHeard ws earlier
  | .broadcastToSession _ _ :: earlier => instDecidableHeard ws earlier

end Runs

end CrabbyKit.Transport
