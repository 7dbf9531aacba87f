import CrabbyKit.Core.Table
import CrabbyKit.Subagent.Tools

/-!
# One owner for each subagent

A subagent is fresh, open, in the hands of one operation, or over. While it is open its record
says that it is running, and an operation that takes it up brings it to its end alone: the
callback, a cancellation behind its abort, or the hook that reports the lost ones.
-/

namespace CrabbyKit.Subagent

def Broadcast.ends : Broadcast → List String
  | .status subagentId _ state _ _ => if state = .running then [] else [subagentId]
  | .orphaned subagents => subagents.map PendingSubagent.subagentId

def Broadcast.IsResult : Broadcast → Prop
  | .status _ _ state _ _ => state = .completed ∨ state = .failed
  | .orphaned _ => False

/-- The subagents that are in the hands of what follows an `updateState`. -/
def After.about : After → List String
  | .deliver sub _ => [sub.subagentId]
  | .cancel sub => [sub.subagentId]
  | .orphan _ _ active => active.map PendingSubagent.subagentId

/-- The subagents that are in the hands of an operation. A cancellation takes its own up with the
abort. -/
def Task.about : Task → List String
  | .launching sub _ => [sub.subagentId]
  | .writing _ next => next.about
  | .after next => next.about
  | .prompting sub _ => [sub.subagentId]
  | .aborting _ => []
  | .canceled sub => [sub.subagentId]
  | .orphaning _ active => active.map PendingSubagent.subagentId

def After.remaining : After → List String
  | .deliver sub _ => [sub.subagentId]
  | .cancel sub => [sub.subagentId]
  | .orphan sub rest _ => (sub :: rest).map PendingSubagent.subagentId

/-- The subagents whose records an operation has not deleted yet. -/
def Task.remaining : Task → List String
  | .launching sub _ => [sub.subagentId]
  | .writing _ next => next.remaining
  | .after next => next.remaining
  | .prompting sub _ => [sub.subagentId]
  | .aborting _ => []
  | .canceled _ => []
  | .orphaning todo _ => todo.map PendingSubagent.subagentId

/-- The subagent whose state is updated. -/
def After.subject : After → String
  | .deliver sub _ => sub.subagentId
  | .cancel sub => sub.subagentId
  | .orphan sub _ _ => sub.subagentId

/-- A cancellation behind its abort. -/
def Task.Cancels : Task → Prop
  | .writing _ (.cancel _) => True
  | .after (.cancel _) => True
  | .canceled _ => True
  | _ => False

def Task.Launches : Task → Prop
  | .launching _ _ => True
  | _ => False

/-- What is true of an operation from its start on. -/
def After.Valid (started : List PendingSubagent) : After → Prop
  | .deliver sub _ => sub ∈ started
  | .cancel _ => True
  | .orphan sub rest active =>
    (active.map PendingSubagent.subagentId).Nodup ∧ sub :: rest <:+ active

def Task.Valid (started : List PendingSubagent) : Task → Prop
  | .writing record next => next.Valid started ∧ record.subagentId = next.subject
  | .after next => next.Valid started
  | .prompting sub _ => sub ∈ started
  | .orphaning todo active =>
    (active.map PendingSubagent.subagentId).Nodup ∧ todo <:+ active
  | _ => True

namespace Subagents

variable {s s' : Subagents} {id : String} {i : Nat} {task : Task}

def Running (s : Subagents) (id : String) : Prop :=
  ∃ record, s.pending.get id = some record ∧ record.state = .running

/-- No operation has the subagent in its hands. -/
def Idle (s : Subagents) (id : String) : Prop := ∀ i task, s.tasks i = some task → id ∉ task.about

def ended (s : Subagents) (id : String) : List Broadcast :=
  s.broadcasts.filter fun broadcast => id ∈ broadcast.ends

def handed (s : Subagents) (id : String) : List Message :=
  s.messages.filter fun message => message.subagentId = id

/-- An operation has a subagent in its hands, and no other one has. -/
structure Owned (s : Subagents) (id : String) (i : Nat) (task : Task) : Prop where
  session : id ∈ s.sessions
  task_eq : s.tasks i = some task
  about : id ∈ task.about
  sole : ∀ j other, s.tasks j = some other → id ∈ other.about → j = i
  deleted : id ∉ task.remaining → s.pending.get id = none
  launching : task.Launches → s.Running id
  child : ∀ child, s.children id = some child → child.aborted = true ∧ task.Cancels
  ended : s.ended id = []
  handed : s.handed id = []

/-- What the end of a subagent leaves. -/
structure Over (s : Subagents) (id : String) : Prop where
  session : id ∈ s.sessions
  record : s.pending.get id = none
  child : ∀ child, s.children id = some child → child.aborted = true
  idle : s.Idle id
  ended : ∃ broadcast, s.ended id = [broadcast] ∧
    (s.handed id = [] ∨ broadcast.IsResult ∧ ∃ message, s.handed id = [message]) ∧
    ∀ subagents, broadcast = .orphaned subagents → s.children id = none

/-- Nothing is known of a session that was not created. -/
structure Fresh (s : Subagents) (id : String) : Prop where
  session : id ∉ s.sessions
  record : s.pending.get id = none
  child : s.children id = none
  idle : s.Idle id
  ended : s.ended id = []
  handed : s.handed id = []

/-- A subagent that runs, or that was lost. -/
structure Open (s : Subagents) (id : String) : Prop where
  session : id ∈ s.sessions
  running : s.Running id
  child : ∀ child, s.children id = some child → child.aborted = false
  idle : s.Idle id
  ended : s.ended id = []
  handed : s.handed id = []

inductive Phase (s : Subagents) (id : String) : Prop
  | fresh (h : s.Fresh id)
  | waiting (h : s.Open id)
  | owned (i : Nat) (task : Task) (h : s.Owned id i task)
  | closed (h : s.Over id)

theorem Phase.frame (h : s.Phase id) (hsession : id ∈ s'.sessions ↔ id ∈ s.sessions)
    (hrecord : s'.pending.get id = s.pending.get id) (hchild : s'.children id = s.children id)
    (hended : s'.ended id = s.ended id) (hhanded : s'.handed id = s.handed id)
    (htasks : ∀ j task, id ∈ task.about → (s'.tasks j = some task ↔ s.tasks j = some task)) :
    s'.Phase id := by
  have hidle : s.Idle id → s'.Idle id := fun hidle j task htask habout =>
    hidle j task ((htasks j task habout).mp htask) habout
  have hrunning : s.Running id → s'.Running id := fun ⟨record, hget, hstate⟩ =>
    ⟨record, hrecord.trans hget, hstate⟩
  cases h with
  | fresh h =>
    exact .fresh ⟨fun hmem => h.session (hsession.mp hmem), hrecord.trans h.record,
      hchild.trans h.child, hidle h.idle, hended.trans h.ended, hhanded.trans h.handed⟩
  | waiting h =>
    exact .waiting ⟨hsession.mpr h.session, hrunning h.running,
      fun child hsome => h.child child (hchild ▸ hsome), hidle h.idle, hended.trans h.ended,
      hhanded.trans h.handed⟩
  | owned i task h =>
    refine .owned i task ⟨hsession.mpr h.session, (htasks i task h.about).mpr h.task_eq, h.about,
      fun j other hother habout => ?_, fun hnot => hrecord.trans (h.deleted hnot),
      fun hlaunches => hrunning (h.launching hlaunches),
      fun child hsome => h.child child (hchild ▸ hsome), hended.trans h.ended,
      hhanded.trans h.handed⟩
    exact h.sole j other ((htasks j other habout).mp hother) habout
  | closed h =>
    refine .closed ⟨hsession.mpr h.session, hrecord.trans h.record,
      fun child hsome => h.child child (hchild ▸ hsome), hidle h.idle, ?_⟩
    rw [hended, hhanded, hchild]
    exact h.ended

theorem Phase.owner (h : s.Phase id) (htask : s.tasks i = some task) (habout : id ∈ task.about) :
    s.Owned id i task := by
  cases h with
  | fresh h => exact absurd habout (h.idle i task htask)
  | waiting h => exact absurd habout (h.idle i task htask)
  | owned j other h =>
    obtain rfl := h.sole i task htask habout
    obtain rfl : task = other := Option.some.inj (htask.symm.trans h.task_eq)
    exact h
  | closed h => exact absurd habout (h.idle i task htask)

theorem Phase.openOf (h : s.Phase id) (hrunning : s.Running id) (hidle : s.Idle id) :
    s.Open id := by
  obtain ⟨record, hget, -⟩ := hrunning
  cases h with
  | fresh h => exact absurd (h.record.symm.trans hget) (by simp)
  | waiting h => exact h
  | owned i task h => exact absurd h.about (hidle i task h.task_eq)
  | closed h => exact absurd (h.record.symm.trans hget) (by simp)

theorem tasks_update_iff {tasks : Nat → Option Task} {new : Option Task}
    (hold : ∀ task, tasks i = some task → id ∉ task.about)
    (hnew : ∀ task, new = some task → id ∉ task.about) (j : Nat) (task : Task)
    (habout : id ∈ task.about) :
    Function.update tasks i new j = some task ↔ tasks j = some task := by
  by_cases hj : j = i
  · subst hj
    rw [Function.update_self]
    exact iff_of_false (fun h => hnew task h habout) fun h => hold task h habout
  · rw [Function.update_of_ne hj]

/-- The records, children and operations of a state with what holds at every time. -/
structure Coherent (s : Subagents) : Prop where
  phase : ∀ id, s.Phase id
  keyed : ∀ id record, s.pending.get id = some record → record.subagentId = id
  free : ∀ i, s.spawned ≤ i → s.tasks i = none
  valid : ∀ i task, s.tasks i = some task → task.Valid s.started
  children : ∀ id child, s.children id = some child →
    child.sub.subagentId = id ∧ child.sub ∈ s.started
  addressed : ∀ message ∈ s.messages, ∃ sub ∈ s.started,
    sub.subagentId = message.subagentId ∧ sub.parentSessionId = message.sessionId
  sessions : ∀ sub ∈ s.started, sub.subagentId ∈ s.sessions
  separate : ∀ broadcast ∈ s.broadcasts, broadcast.ends.Nodup

/-- What the orders that keep to one owner look like: a client connects while no child runs under a
record of those that run and nothing has one in its hands, an aborted child never calls back,
a cancellation aborts a subagent that is still running and in no other hands, and hibernation
comes when every record in hand still says running. -/
def Serial (s : Subagents) : Label → Prop
  | .connect broadcast => broadcast = true → ∀ sub ∈ s.listActive,
    s.children sub.subagentId = none ∧ s.Idle sub.subagentId
  | .complete subagentId _ => ∀ child, s.children subagentId = some child → child.aborted = false
  | .hibernate => ∀ i task, s.tasks i = some task → ∀ id ∈ task.about, s.Running id
  | .advance i answer => ∀ sub, s.tasks i = some (.aborting sub) → answer.failure = none →
    s.Running sub.subagentId ∧ s.Idle sub.subagentId
  | _ => True

theorem coherent_initial : ({} : Subagents).Coherent where
  phase _ := .fresh ⟨List.not_mem_nil, rfl, rfl, fun _ _ h => (Option.some_ne_none _ h.symm).elim,
    rfl, rfl⟩
  keyed _ _ h := (Option.some_ne_none _ h.symm).elim
  free _ _ := rfl
  valid _ _ h := (Option.some_ne_none _ h.symm).elim
  children _ _ h := (Option.some_ne_none _ h.symm).elim
  addressed _ h := absurd h List.not_mem_nil
  sessions _ h := absurd h List.not_mem_nil
  separate _ h := absurd h List.not_mem_nil

end Subagents

end CrabbyKit.Subagent

/-!
# Steps that keep one owner

An operation takes up open subagents, goes on with those that it has in its hands, or brings
them to their end. Each of these leaves the other subagents alone.
-/

namespace CrabbyKit.Subagent.Subagents

variable {s s' : Subagents} {id : String} {i : Nat} {task : Task}

theorem ended_tell (broadcast : Broadcast) (id : String) :
    (s.broadcasts ++ [broadcast]).filter (fun b => id ∈ b.ends) =
      s.ended id ++ if id ∈ broadcast.ends then [broadcast] else [] := by
  rw [List.filter_append, ended]
  congr 1
  by_cases h : id ∈ broadcast.ends
  · rw [if_pos h, List.filter_cons_of_pos (by simpa using h), List.filter_nil]
  · rw [if_neg h, List.filter_cons_of_neg (by simpa using h), List.filter_nil]

theorem valid_update {tasks : Nat → Option Task} {started : List PendingSubagent}
    {new : Option Task} (h : ∀ j task, tasks j = some task → task.Valid started)
    (hnew : ∀ task, new = some task → task.Valid started) (j : Nat) (task : Task)
    (htask : Function.update tasks i new j = some task) : task.Valid started := by
  rcases Table.update_eq_some htask with ⟨-, htask⟩ | ⟨-, htask⟩
  · exact hnew task htask
  · exact h j task htask

theorem Coherent.lt_spawned (h : s.Coherent) (htask : s.tasks i = some task) : i < s.spawned :=
  Table.lt_of_taken h.free htask

theorem Coherent.goOn (h : s.Coherent) (htask : s.tasks i = some task) {new : Task}
    {pending : SortedMap String PendingSubagent} (hvalid : new.Valid s.started)
    (habout : new.about = task.about) (hcancels : task.Cancels → new.Cancels)
    (hlaunches : ¬ new.Launches)
    (hkeyed : ∀ id record, pending.get id = some record → record.subagentId = id)
    (hother : ∀ id, id ∉ task.about → pending.get id = s.pending.get id)
    (hdeleted : ∀ id ∈ task.about, id ∉ new.remaining → pending.get id = none) :
    ({ s with pending }.become i (some new)).Coherent where
  phase id := by
    by_cases hid : id ∈ task.about
    · have howned := (h.phase id).owner htask hid
      refine .owned i new ⟨howned.session, Function.update_self _ _ _, habout ▸ hid,
        fun j other hj hin => ?_, hdeleted id hid, fun hl => absurd hl hlaunches,
        fun child hsome => ?_, howned.ended, howned.handed⟩
      · by_contra hne
        have hold : s.tasks j = some other := by
          rw [← hj]
          exact (Function.update_of_ne hne _ _).symm
        exact hne (howned.sole j other hold hin)
      · exact (howned.child child hsome).imp_right hcancels
    · refine (h.phase id).frame Iff.rfl (hother id hid) rfl rfl rfl
        (tasks_update_iff (fun t ht => ?_) fun t ht => ?_)
      · obtain rfl : task = t := Option.some.inj (htask.symm.trans ht)
        exact hid
      · obtain rfl : new = t := Option.some.inj ht
        rwa [habout]
  keyed := hkeyed
  free := Table.free_update h.free le_rfl (h.lt_spawned htask)
  valid := valid_update h.valid fun t ht => Option.some.inj ht ▸ hvalid
  children := h.children
  addressed := h.addressed
  sessions := h.sessions
  separate := h.separate

theorem Coherent.finishAll (h : s.Coherent) (htask : s.tasks i = some task)
    {pending : SortedMap String PendingSubagent} {broadcast : Broadcast}
    {messages all : List Message} {replies : List (Except String String)}
    (hall : all = s.messages ++ messages) (hends : broadcast.ends = task.about)
    (hnodup : task.about.Nodup)
    (hkeyed : ∀ id record, pending.get id = some record → record.subagentId = id)
    (hother : ∀ id, id ∉ task.about → pending.get id = s.pending.get id)
    (hgone : ∀ id ∈ task.about, pending.get id = none)
    (hmessages : messages = [] ∨ broadcast.IsResult ∧
      ∃ message, messages = [message] ∧ task.about = [message.subagentId] ∧
        ∃ sub ∈ s.started, sub.subagentId = message.subagentId ∧
          sub.parentSessionId = message.sessionId)
    (horphaned : ∀ subagents, broadcast = .orphaned subagents → ¬ task.Cancels) :
    ({ s with
        pending
        broadcasts := s.broadcasts ++ [broadcast]
        messages := all
        replies }.become i none).Coherent where
  phase id := by
    have hended := ended_tell (s := s) broadcast id
    have hhanded : all.filter (fun m => m.subagentId = id) =
        s.handed id ++ messages.filter fun m => m.subagentId = id := by
      rw [hall, List.filter_append, handed]
    by_cases hid : id ∈ task.about
    · have howned := (h.phase id).owner htask hid
      rw [howned.ended, if_pos (hends ▸ hid), List.nil_append] at hended
      rw [howned.handed, List.nil_append] at hhanded
      refine .closed ⟨howned.session, hgone id hid, fun child hsome => (howned.child child hsome).1,
        fun j other hj hin => ?_, broadcast, hended, ?_, fun subagents horphan => ?_⟩
      · have hne : j ≠ i := by
          rintro rfl
          exact absurd ((Function.update_self _ _ _).symm.trans hj) (by simp)
        exact hne (howned.sole j other ((Function.update_of_ne hne _ _).symm.trans hj) hin)
      · refine hmessages.imp (fun hnil => ?_) fun hone => ⟨hone.1, ?_⟩
        · subst hnil
          exact hhanded
        · obtain ⟨message, rfl, hsubject, -⟩ := hone.2
          rw [hsubject, List.mem_singleton] at hid
          rw [List.filter_cons_of_pos (by simpa using hid.symm), List.filter_nil] at hhanded
          exact ⟨message, hhanded⟩
      · cases hchild : s.children id with
        | none => exact hchild
        | some child => exact absurd (howned.child child hchild).2 (horphaned subagents horphan)
    · rw [if_neg (hends ▸ hid), List.append_nil] at hended
      have hnone : messages.filter (fun m => m.subagentId = id) = [] := by
        rcases hmessages with rfl | ⟨-, message, rfl, hsubject, -⟩
        · rfl
        · rw [hsubject, List.mem_singleton] at hid
          rw [List.filter_cons_of_neg (by simpa using Ne.symm hid), List.filter_nil]
      rw [hnone, List.append_nil] at hhanded
      refine (h.phase id).frame Iff.rfl (hother id hid) rfl hended hhanded
        (tasks_update_iff (fun t ht => ?_) fun t ht => absurd ht (by simp))
      obtain rfl : task = t := Option.some.inj (htask.symm.trans ht)
      exact hid
  keyed := hkeyed
  free := Table.free_update h.free le_rfl (h.lt_spawned htask)
  valid := valid_update h.valid fun t ht => by cases ht
  children := h.children
  addressed message hmem := by
    rcases List.mem_append.mp (hall ▸ hmem : message ∈ s.messages ++ messages) with hold | hnew
    · exact h.addressed message hold
    · rcases hmessages with rfl | ⟨-, message', rfl, -, hsub⟩
      · cases hnew
      · rw [List.mem_singleton.mp hnew]
        exact hsub
  sessions := h.sessions
  separate b hb := by
    rcases List.mem_append.mp hb with hold | hnew
    · exact h.separate b hold
    · rw [List.mem_singleton.mp hnew, hends]
      exact hnodup

theorem Coherent.takeUp (h : s.Coherent) {new : Task} {children : String → Option Child}
    {spawned : Nat} (hplace : ∀ old, s.tasks i = some old → old.about = [])
    (hspawned : s.spawned ≤ spawned) (hi : i < spawned) (hvalid : new.Valid s.started)
    (hopen : ∀ id ∈ new.about, s.Open id) (hremaining : ∀ id ∈ new.about, id ∈ new.remaining)
    (hlaunches : ¬ new.Launches)
    (hchildren : ∀ id child, children id = some child → ∃ old, s.children id = some old ∧
      child.sub = old.sub ∧ (id ∈ new.about → child.aborted = true ∧ new.Cancels))
    (hothers : ∀ id, id ∉ new.about → children id = s.children id) :
    Coherent { s with children, tasks := Function.update s.tasks i (some new), spawned } where
  phase id := by
    by_cases hid : id ∈ new.about
    · have hwaiting := hopen id hid
      refine .owned i new ⟨hwaiting.session, Function.update_self _ _ _, hid,
        fun j other hj hin => ?_, fun hnot => absurd (hremaining id hid) hnot,
        fun hl => absurd hl hlaunches, fun child hsome => ?_, hwaiting.ended, hwaiting.handed⟩
      · by_contra hne
        exact hwaiting.idle j other ((Function.update_of_ne hne _ _).symm.trans hj) hin
      · obtain ⟨old, -, -, hcancels⟩ := hchildren id child hsome
        exact hcancels hid
    · refine (h.phase id).frame Iff.rfl rfl (hothers id hid) rfl rfl
        (tasks_update_iff (fun t ht => ?_) fun t ht => ?_)
      · rw [hplace t ht]
        exact List.not_mem_nil
      · obtain rfl : new = t := Option.some.inj ht
        exact hid
  keyed := h.keyed
  free := Table.free_update h.free hspawned hi
  valid := valid_update h.valid fun t ht => Option.some.inj ht ▸ hvalid
  children id child hsome := by
    obtain ⟨old, hold, hsub, -⟩ := hchildren id child hsome
    rw [hsub]
    exact h.children id old hold
  addressed := h.addressed
  sessions := h.sessions
  separate := h.separate

theorem Coherent.reply (h : s.Coherent) (text : Except String String) : (s.reply text).Coherent :=
  { h with
    phase := fun id => (h.phase id).frame Iff.rfl rfl rfl rfl rfl fun _ _ _ => Iff.rfl }

theorem Coherent.idleTask (h : s.Coherent) {new : Option Task} {spawned : Nat}
    (hplace : ∀ old, s.tasks i = some old → old.about = [])
    (hspawned : s.spawned ≤ spawned) (hi : i < spawned)
    (hnew : ∀ task, new = some task → task.about = [] ∧ task.Valid s.started) :
    Coherent { s with tasks := Function.update s.tasks i new, spawned } where
  phase id := by
    refine (h.phase id).frame Iff.rfl rfl rfl rfl rfl
      (tasks_update_iff (fun t ht => ?_) fun t ht => ?_)
    · rw [hplace t ht]
      exact List.not_mem_nil
    · rw [(hnew t ht).1]
      exact List.not_mem_nil
  keyed := h.keyed
  free := Table.free_update h.free hspawned hi
  valid := valid_update h.valid fun t ht => (hnew t ht).2
  children := h.children
  addressed := h.addressed
  sessions := h.sessions
  separate := h.separate

end CrabbyKit.Subagent.Subagents
