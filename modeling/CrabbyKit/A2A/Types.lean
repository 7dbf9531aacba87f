import CrabbyKit.Core.Json
import CrabbyKit.Session.Types

/-!
# Agent-to-agent protocol types

What `types.ts` and `errors.ts` of the A2A package define, as far as the server and the client look
at it.
-/

namespace CrabbyKit.A2A

open List

inductive TaskState
  | submitted | working | completed | failed | canceled | rejected
  | inputRequired | authRequired | unknown
  deriving DecidableEq, Repr

def TaskState.name : TaskState → String
  | .submitted => "submitted"
  | .working => "working"
  | .completed => "completed"
  | .failed => "failed"
  | .canceled => "canceled"
  | .rejected => "rejected"
  | .inputRequired => "input-required"
  | .authRequired => "auth-required"
  | .unknown => "unknown"

def isTerminalState : TaskState → Bool
  | .completed | .canceled | .failed | .rejected => true
  | _ => false

def isInterruptedState : TaskState → Bool
  | .inputRequired | .authRequired => true
  | _ => false

inductive MessageRole
  | user | agent
  deriving DecidableEq, Repr

/-- A part of a message; the content of a file is read by nobody here. -/
inductive Part
  | text (text : String)
  | file (name mimeType : Option String)
  | data (data : JsonObject)

def Part.asText : Part → Option String
  | .text content => some content
  | _ => none

structure Message where
  messageId : String
  role : MessageRole
  parts : List Part
  contextId : Option String := none
  taskId : Option String := none
  metadata : Option JsonObject := none

structure TaskStatus where
  state : TaskState
  message : Option Message := none
  timestamp : Instant

/-- `Task`; its artifacts are those of the store. -/
structure Task where
  id : String
  contextId : String
  status : TaskStatus
  metadata : Option JsonObject := none

structure PushNotificationConfig where
  url : String
  token : Option String := none
  deriving DecidableEq, Repr

structure MessageSendConfiguration where
  blocking : Option Bool := none
  pushNotificationConfig : Option PushNotificationConfig := none
  deriving DecidableEq, Repr

structure MessageSendParams where
  message : Message
  configuration : Option MessageSendConfiguration := none

/-- Why a request is refused. -/
inductive RpcError
  | invalidParams (detail : String)
  | taskNotFound (taskId : String)
  | taskNotCancelable (taskId : String)
  | unsupportedOperation (detail : String)
  | internal (detail : String)
  deriving DecidableEq, Repr

def RpcError.code : RpcError → Int
  | .invalidParams _ => -32602
  | .taskNotFound _ => -32001
  | .taskNotCancelable _ => -32002
  | .unsupportedOperation _ => -32004
  | .internal _ => -32603

def RpcError.message : RpcError → String
  | .invalidParams detail => detail
  | .taskNotFound taskId => s!"Task not found: {taskId}"
  | .taskNotCancelable taskId => s!"Task is not cancelable: {taskId}"
  | .unsupportedOperation detail => detail
  | .internal detail => detail

/-!
# The event bus of an A2A request

`A2AEventBus` and `eventQueue` of `server/event-bus.ts`. The bus hands an event to its subscribers
when it is emitted; the queue is a generator that subscribes when it is first asked for an event.
-/

structure Artifact where
  artifactId : String
  name : Option String := none
  parts : List Part

inductive BusEvent
  | statusUpdate (taskId contextId : String) (status : TaskStatus) (final : Bool)
  | artifactUpdate (taskId contextId : String) (artifact : Artifact) (append lastChunk : Bool)
  | complete (taskId : String) (task : Task)
  | error (taskId message : String)

/-- `StreamEvent`, with the constructors that a queue makes. -/
inductive StreamEvent
  | statusUpdate (taskId contextId : String) (status : TaskStatus) (final : Bool)
  | artifactUpdate (taskId contextId : String) (artifact : Artifact) (append lastChunk : Bool)
  | task (task : Task)

namespace BusEvent

def taskId : BusEvent → String
  | statusUpdate taskId _ _ _ => taskId
  | artifactUpdate taskId _ _ _ _ => taskId
  | complete taskId _ => taskId
  | error taskId _ => taskId

/-- What a queue makes of an event; an error has nothing to deliver. -/
def toStream : BusEvent → Option StreamEvent
  | statusUpdate taskId contextId status final =>
    some (.statusUpdate taskId contextId status final)
  | artifactUpdate taskId contextId artifact append lastChunk =>
    some (.artifactUpdate taskId contextId artifact append lastChunk)
  | complete _ task => some (.task task)
  | error _ _ => none

/-- The events after which a queue waits for no other one. -/
def endsQueue : BusEvent → Bool
  | statusUpdate _ _ status final =>
    final || isTerminalState status.state || isInterruptedState status.state
  | artifactUpdate _ _ _ _ _ => false
  | complete _ _ => true
  | error _ _ => true

end BusEvent

/-- The generator of `eventQueue`, once it has subscribed, and what it has yielded. -/
structure EventQueue where
  buffer : List StreamEvent := []
  done : Bool := false
  /-- The generator sleeps until the next event. -/
  waiting : Bool := false
  /-- It has returned, and the stream is closed. -/
  closed : Bool := false
  delivered : List StreamEvent := []

namespace EventQueue

/-- The callback of the subscription. -/
def receive (taskId : String) (q : EventQueue) (event : BusEvent) : EventQueue :=
  if q.closed ∨ event.taskId ≠ taskId then q
  else { q with
    buffer := q.buffer ++ event.toStream.toList
    done := q.done || event.endsQueue
    waiting := false }

/-- The generator goes on: it yields an event, which is written to the stream, or it returns, or it
waits. -/
def resume (q : EventQueue) : EventQueue :=
  if q.closed ∨ q.waiting then q
  else
    match q.buffer with
    | event :: rest => { q with buffer := rest, delivered := q.delivered ++ [event] }
    | [] => if q.done then { q with closed := true } else { q with waiting := true }

/-- The generator can do nothing by itself. -/
def Idle (q : EventQueue) : Prop := q.closed = true ∨ q.waiting = true

/-- What a queue has seen of the events that were emitted since it has subscribed. -/
structure Tracks (taskId : String) (emitted : List BusEvent) (q : EventQueue) : Prop where
  about : ∀ event ∈ emitted, event.taskId = taskId
  delivers : q.closed = false → q.delivered ++ q.buffer = emitted.filterMap BusEvent.toStream
  ends : q.closed = false → q.done = emitted.any BusEvent.endsQueue
  sleeps : q.waiting = true → q.buffer = [] ∧ q.done = false
  closes : q.closed = true → ∃ first later, emitted = first ++ later ∧
    q.delivered = first.filterMap BusEvent.toStream ∧ first.any BusEvent.endsQueue = true

namespace Tracks

variable {taskId : String} {emitted : List BusEvent} {q : EventQueue}

theorem subscribed (taskId : String) : Tracks taskId [] {} where
  about _ h := absurd h not_mem_nil
  delivers _ := rfl
  ends _ := rfl
  sleeps h := by cases h
  closes h := by cases h

theorem receive (h : Tracks taskId emitted q) {event : BusEvent} (hevent : event.taskId = taskId) :
    Tracks taskId (emitted ++ [event]) (q.receive taskId event) := by
  have habout : ∀ e ∈ emitted ++ [event], e.taskId = taskId := by
    intro e he
    rcases mem_append.mp he with hold | hnew
    · exact h.about e hold
    · rw [mem_singleton.mp hnew]
      exact hevent
  unfold EventQueue.receive
  by_cases hclosed : q.closed = true
  · rw [if_pos (Or.inl hclosed)]
    refine ⟨habout, fun hopen => ?_, fun hopen => ?_, h.sleeps, fun _ => ?_⟩
    · rw [hclosed] at hopen
      cases hopen
    · rw [hclosed] at hopen
      cases hopen
    · obtain ⟨first, later, rfl, hdelivered, hends⟩ := h.closes hclosed
      exact ⟨first, later ++ [event], append_assoc _ _ _, hdelivered, hends⟩
  · have hopen := Bool.eq_false_iff.mpr hclosed
    rw [if_neg (by simp [hopen, hevent])]
    refine ⟨habout, fun _ => ?_, fun _ => ?_, fun hwaiting => absurd hwaiting Bool.false_ne_true,
      fun hclosed' => absurd hclosed' hclosed⟩
    · change q.delivered ++ (q.buffer ++ event.toStream.toList) = _
      rw [← append_assoc, h.delivers hopen, filterMap_append]
      rfl
    · change (q.done || event.endsQueue) = _
      rw [h.ends hopen, any_append]
      simp

theorem receive_all (h : Tracks taskId emitted q) {events : List BusEvent}
    (hevents : ∀ event ∈ events, event.taskId = taskId) :
    Tracks taskId (emitted ++ events) (events.foldl (EventQueue.receive taskId) q) := by
  induction events generalizing emitted q with
  | nil =>
    rw [append_nil]
    exact h
  | cons event events ih =>
    obtain ⟨hevent, hrest⟩ := forall_mem_cons.mp hevents
    have hafter := ih (h.receive hevent) hrest
    rwa [append_assoc, singleton_append] at hafter

theorem resume (h : Tracks taskId emitted q) : Tracks taskId emitted q.resume := by
  unfold EventQueue.resume
  split
  · exact h
  · rename_i hrunning
    obtain ⟨hclosed, hwaiting⟩ := not_or.mp hrunning
    have hopen := Bool.eq_false_iff.mpr hclosed
    cases hbuffer : q.buffer with
    | cons event rest =>
      refine ⟨h.about, fun _ => ?_, fun _ => h.ends hopen, fun hw => absurd hw hwaiting,
        fun hc => absurd hc hclosed⟩
      have hdelivers := h.delivers hopen
      rw [hbuffer] at hdelivers
      rw [← hdelivers, append_assoc, singleton_append]
    | nil =>
      have hdelivers := h.delivers hopen
      rw [hbuffer, append_nil] at hdelivers
      simp only
      split
      · rename_i hdone
        refine ⟨h.about, fun hc => absurd hc.symm Bool.false_ne_true,
          fun hc => absurd hc.symm Bool.false_ne_true, fun hw => absurd hw hwaiting,
          fun _ => ⟨emitted, [], (append_nil _).symm, hdelivers, ?_⟩⟩
        rw [← h.ends hopen, hdone]
      · rename_i hdone
        refine ⟨h.about, fun _ => ?_, fun _ => h.ends hopen,
          fun _ => ⟨rfl, Bool.eq_false_iff.mpr hdone⟩, fun hc => absurd hc hclosed⟩
        exact (append_nil _).trans hdelivers

theorem idle (h : Tracks taskId emitted q) (hidle : q.Idle) :
    (q.closed = true ↔ emitted.any BusEvent.endsQueue = true) ∧
      ∃ first later, emitted = first ++ later ∧
        q.delivered = first.filterMap BusEvent.toStream ∧
        (first.any BusEvent.endsQueue = true ∨ later = []) := by
  by_cases hclosed : q.closed = true
  · obtain ⟨first, later, rfl, hdelivered, hends⟩ := h.closes hclosed
    refine ⟨iff_of_true hclosed ?_, first, later, rfl, hdelivered, Or.inl hends⟩
    rw [any_append, hends, Bool.true_or]
  · have hopen := Bool.eq_false_iff.mpr hclosed
    obtain ⟨hbuffer, hdone⟩ := h.sleeps (hidle.resolve_left hclosed)
    have hdelivers := h.delivers hopen
    rw [hbuffer, append_nil] at hdelivers
    refine ⟨iff_of_false hclosed ?_, emitted, [], (append_nil _).symm, hdelivers, Or.inr rfl⟩
    rw [← h.ends hopen, hdone]
    exact Bool.false_ne_true

end Tracks

end EventQueue

end CrabbyKit.A2A
