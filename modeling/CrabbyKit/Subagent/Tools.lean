import CrabbyKit.Core.Run
import CrabbyKit.Core.SortedMap
import Mathlib.Data.String.Basic

/-!
# Subagents in the background

`start_subagent`, `check_subagent` and `cancel_subagent` of `tools.ts`, the completion callback, and
the `onConnect` hook of `capability.ts`, over the records of `pending-store.ts`. Every call of
the storage and of the host is a step of its own. Hibernation takes the child runs and all that
waits, and leaves the records.
-/

namespace CrabbyKit.Subagent

/-- What the tools read of a `Mode`. -/
structure Mode where
  id : String
  name : String
  description : String
  deriving DecidableEq, Repr

inductive SubagentState
  | running
  | completed
  | failed
  | canceled
  deriving DecidableEq, Repr

def SubagentState.text : SubagentState → String
  | .running => "running"
  | .completed => "completed"
  | .failed => "failed"
  | .canceled => "canceled"

/-- `PendingSubagent`. The id of the subagent is that of its session. -/
structure PendingSubagent where
  subagentId : String
  modeId : String
  parentSessionId : String
  prompt : String
  state : SubagentState := .running
  taskId : Option String := none
  deriving DecidableEq, Repr

structure SubagentRunResult where
  responseText : String := ""
  success : Bool
  error : Option String := none
  deriving DecidableEq, Repr

def formatResult (modeId : String) (result : SubagentRunResult) : String :=
  if result.success then "[Subagent \"" ++ modeId ++ "\" completed]\n" ++ result.responseText
  else "[Subagent \"" ++ modeId ++ "\" failed]\n" ++ result.error.getD "Unknown error"

def SubagentRunResult.state (result : SubagentRunResult) : SubagentState :=
  if result.success then .completed else .failed

/-- What the clients are told. -/
inductive Broadcast
  | status (subagentId modeId : String) (state : SubagentState) (prompt result : Option String)
  | orphaned (subagents : List PendingSubagent)
  deriving DecidableEq, Repr

/-- A result that was handed to a session, by a steer or by a prompt. -/
structure Message where
  subagentId : String
  sessionId : String
  text : String
  deriving DecidableEq, Repr

/-- What follows an `updateState`. -/
inductive After
  /-- The callback hands the result to the parent. -/
  | deliver (sub : PendingSubagent) (result : SubagentRunResult)
  /-- `cancel_subagent` deletes the record. -/
  | cancel (sub : PendingSubagent)
  /-- `onConnect` deletes the record and goes on with the rest of those it found. -/
  | orphan (sub : PendingSubagent) (rest active : List PendingSubagent)
  deriving DecidableEq, Repr

/-- What an operation does next. -/
inductive Task
  /-- `start_subagent` has saved the record. -/
  | launching (sub : PendingSubagent) (modeName : String)
  /-- `updateState` has read the record and writes it. -/
  | writing (record : PendingSubagent) (after : After)
  | after (after : After)
  /-- The callback waits for `promptSession`. -/
  | prompting (sub : PendingSubagent) (result : SubagentRunResult)
  /-- `cancel_subagent` waits for `abortSession`. -/
  | aborting (sub : PendingSubagent)
  /-- `cancel_subagent` has deleted the record. -/
  | canceled (sub : PendingSubagent)
  | orphaning (todo active : List PendingSubagent)
  deriving DecidableEq, Repr

/-- A child run of this life, with what its callback knows. -/
structure Child where
  sub : PendingSubagent
  aborted : Bool := false
  deriving DecidableEq, Repr

/-- The records, the child runs, the operations by the order of their start, and what came of
them. -/
structure Subagents where
  pending : SortedMap String PendingSubagent := .empty
  children : String → Option Child := fun _ => none
  tasks : Nat → Option Task := fun _ => none
  spawned : Nat := 0
  /-- The sessions that were created for subagents. -/
  sessions : List String := []
  started : List PendingSubagent := []
  broadcasts : List Broadcast := []
  messages : List Message := []
  /-- The answers of the tools; those of `toolResult.error` are errors. -/
  replies : List (Except String String) := []

structure HostAnswer where
  /-- `isSessionStreaming`. -/
  streaming : Bool := false
  /-- The message of what `abortSession` or `promptSession` throws. -/
  failure : Option String := none

inductive Label
  | start (mode prompt : String) (taskId : Option String) (sessionId parentSessionId : String)
  | check (subagentId : String)
  | cancel (subagentId : String)
  /-- A client connects; the hook may have nobody to tell. -/
  | connect (broadcast : Bool)
  /-- A child run calls back. -/
  | complete (subagentId : String) (result : SubagentRunResult)
  | hibernate
  | advance (task : Nat) (answer : HostAnswer)

namespace Subagents

def spawn (s : Subagents) (task : Task) : Subagents :=
  { s with tasks := Function.update s.tasks s.spawned (some task), spawned := s.spawned + 1 }

def become (s : Subagents) (i : Nat) (task : Option Task) : Subagents :=
  { s with tasks := Function.update s.tasks i task }

def reply (s : Subagents) (text : Except String String) : Subagents :=
  { s with replies := s.replies ++ [text] }

def tell (s : Subagents) (broadcast : Broadcast) : Subagents :=
  { s with broadcasts := s.broadcasts ++ [broadcast] }

def save (s : Subagents) (sub : PendingSubagent) : Subagents :=
  { s with pending := s.pending.put sub.subagentId sub }

def delete (s : Subagents) (subagentId : String) : Subagents :=
  { s with pending := (s.pending.delete subagentId).1 }

/-- `updateState` up to its write, if there is a record. -/
def updated (s : Subagents) (subagentId : String) (state : SubagentState) (after : After) : Task :=
  match s.pending.get subagentId with
  | none => .after after
  | some sub => .writing { sub with state } after

def listActive (s : Subagents) : List PendingSubagent :=
  (s.pending.rows.map Prod.snd).filter fun sub => sub.state = .running

/-- `start_subagent` up to the save, in a session that the host has created. -/
def start (s : Subagents) (modes : List Mode) (modeArg prompt : String) (taskId : Option String)
    (sessionId parentSessionId : String) : Subagents :=
  match modes.find? fun mode => mode.id = modeArg with
  | none =>
    let choices := "\n".intercalate (modes.map fun mode => s!"- {mode.id}: {mode.description}")
    s.reply (.error ("Unknown mode \"" ++ modeArg ++ "\". Available:\n" ++ choices))
  | some mode =>
    if sessionId ∈ s.sessions then s
    else
      let sub : PendingSubagent :=
        { subagentId := sessionId, modeId := mode.id, parentSessionId, prompt, taskId }
      { s.save sub with sessions := s.sessions ++ [sessionId] }.spawn (.launching sub mode.name)

/-- `check_subagent`. -/
def check (s : Subagents) (subagentId : String) : Subagents :=
  match s.pending.get subagentId with
  | none => s.reply (.ok
      s!"No active subagent with ID: {subagentId}. It may have already completed.")
  | some pending => s.reply (.ok
      ("Subagent \"" ++ pending.modeId ++ s!"\" ({pending.subagentId}): {pending.state.text}\n" ++
        s!"Prompt: {pending.prompt}"))

/-- `cancel_subagent` up to the abort. -/
def cancel (s : Subagents) (subagentId : String) : Subagents :=
  match s.pending.get subagentId with
  | none => s.reply (.ok s!"No active subagent with ID: {subagentId}.")
  | some pending =>
    if pending.state ≠ .running then
      s.reply (.ok ("Subagent \"" ++ pending.modeId ++ s!"\" is already {pending.state.text}."))
    else s.spawn (.aborting pending)

/-- `onConnect`. -/
def connect (s : Subagents) (broadcast : Bool) : Subagents :=
  let active := s.listActive
  if active ≠ [] ∧ broadcast then s.spawn (.orphaning active active) else s

/-- A child run ends, and its callback begins. -/
def complete (s : Subagents) (subagentId : String) (result : SubagentRunResult) : Subagents :=
  match s.children subagentId with
  | none => s
  | some child =>
    { s with children := Function.update s.children subagentId none }.spawn
      (s.updated subagentId result.state (.deliver child.sub result))

/-- The callback tells the clients and removes the record. -/
def finish (s : Subagents) (i : Nat) (sub : PendingSubagent) (result : SubagentRunResult) :
    Subagents :=
  let text := formatResult sub.modeId result
  ((s.tell (.status sub.subagentId sub.modeId result.state none (some text))).delete
    sub.subagentId).become i none

/-- The session of the parent gets the result. -/
def inject (s : Subagents) (sub : PendingSubagent) (result : SubagentRunResult) : Subagents :=
  { s with
    messages := s.messages ++
      [⟨sub.subagentId, sub.parentSessionId, formatResult sub.modeId result⟩] }

/-- `abortSession` reaches the child run. -/
def abort (s : Subagents) (subagentId : String) : Subagents :=
  { s with
    children := Function.update s.children subagentId
      ((s.children subagentId).map fun child => { child with aborted := true }) }

/-- The next step of an operation. -/
def advance (s : Subagents) (i : Nat) (answer : HostAnswer) : Task → Subagents
  | .launching sub modeName =>
    { (s.tell (.status sub.subagentId sub.modeId .running (some sub.prompt) none)) with
      children := Function.update s.children sub.subagentId (some ⟨sub, false⟩)
      started := s.started ++ [sub] }.reply (.ok
        ("Subagent \"" ++ modeName ++ s!"\" started ({sub.subagentId}). " ++
          "The result will arrive asynchronously.")) |>.become i none
  | .writing record after => (s.save record).become i (some (.after after))
  | .after (.deliver sub result) =>
    if answer.streaming then (s.inject sub result).finish i sub result
    else s.become i (some (.prompting sub result))
  | .prompting sub result =>
    match answer.failure with
    | none => (s.inject sub result).finish i sub result
    | some _ => s.finish i sub result
  | .aborting sub =>
    match answer.failure with
    | some message => (s.reply (.error s!"Failed to cancel: {message}")).become i none
    | none =>
      (s.abort sub.subagentId).become i (some (s.updated sub.subagentId .canceled (.cancel sub)))
  | .after (.cancel sub) => (s.delete sub.subagentId).become i (some (.canceled sub))
  | .canceled sub =>
    (s.tell (.status sub.subagentId sub.modeId .canceled none none)).reply (.ok
      ("Subagent \"" ++ sub.modeId ++ s!"\" ({sub.subagentId}) canceled.")) |>.become i none
  | .orphaning [] active => (s.tell (.orphaned active)).become i none
  | .orphaning (sub :: rest) active =>
    s.become i (some (s.updated sub.subagentId .failed (.orphan sub rest active)))
  | .after (.orphan sub rest active) =>
    (s.delete sub.subagentId).become i (some (.orphaning rest active))

/-- One event, with the modes that the capability was given. -/
def step (modes : List Mode) (s : Subagents) : Label → Subagents
  | .start mode prompt taskId sessionId parentSessionId =>
    s.start modes mode prompt taskId sessionId parentSessionId
  | .check subagentId => s.check subagentId
  | .cancel subagentId => s.cancel subagentId
  | .connect broadcast => s.connect broadcast
  | .complete subagentId result => s.complete subagentId result
  | .hibernate => { s with children := fun _ => none, tasks := fun _ => none }
  | .advance i answer =>
    match s.tasks i with
    | none => s
    | some task => s.advance i answer task

end Subagents

end CrabbyKit.Subagent
