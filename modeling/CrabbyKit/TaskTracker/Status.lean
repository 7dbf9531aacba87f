import CrabbyKit.TaskTracker.Atomic

/-!
# The status of a task along runs

Every change of a status is one that `VALID_TRANSITIONS` allows, and `closed` allows none. The
column `closed_at` is written by `close` alone, so an update to `closed` leaves a closed task
without it.
-/

namespace CrabbyKit.TaskStore

open List Option

/-- Closed are exactly the tasks with a time of closing. -/
def Coherent (st : TaskStore) : Prop :=
  ∀ task ∈ st.tasks, task.status = .closed ↔ task.closedAt.isSome = true

/-- What may stand under an id after a call, by what stood there before it. -/
def Follows : Option Task → Option Task → Prop
  | _, none => True
  | none, some new => new.status = .opened
  | some old, some new => new.status = old.status ∨ new.status ∈ old.status.allowed

/-- What holds of the status of tasks along a run. -/
structure StatusLaw (calls : List TaskCall) : Prop where
  coherent : ∀ before after, calls = before ++ after → Coherent (Run.run step {} before)
  history : ∀ before c after, calls = before ++ c :: after → ∀ id,
    Follows ((Run.run step {} before).get id) ((Run.run step {} (before ++ [c])).get id)
  terminal : ∀ before between after, calls = before ++ between ++ after → ∀ id task,
    (Run.run step {} before).get id = some task → task.status = .closed →
      (∀ front back, between = front ++ back →
        ((Run.run step {} (before ++ front)).get id).isSome = true) →
      ∃ later, (Run.run step {} (before ++ between)).get id = some later ∧ later.status = .closed

def UpdatesToClosed (st : TaskStore) (c : TaskCall) : Prop :=
  ∃ taskId input task, c.op = .update taskId input ∧ input.status = some .closed ∧
    st.get taskId = some task ∧ c.authChecker c.callerSession task.ownerSession = true ∧
    task.status ≠ .closed

inductive Change (st : TaskStore) (c : TaskCall) : List Task → Prop
  | same (h : ¬ st.UpdatesToClosed c) : Change st c st.tasks
  | added (input : CreateTaskInput) (hop : c.op = .create input) (hfree : st.get c.nanoid = none) :
    Change st c (st.tasks ++ [newTask c.callerSession input c.nanoid c.now])
  | updated (taskId : String) (input : UpdateTaskInput) (task : Task)
    (hop : c.op = .update taskId input) (hget : st.get taskId = some task)
    (hauth : c.authChecker c.callerSession task.ownerSession = true)
    (hallowed : ∀ status, input.status = some status → status ∈ task.status.allowed) :
    Change st c (Table.modify Task.id taskId (applyUpdate input c.now) st.tasks)
  | closed (taskId reason : String) (task : Task) (hop : c.op = .close taskId reason)
    (hget : st.get taskId = some task) (hallowed : .closed ∈ task.status.allowed) :
    Change st c (Table.modify Task.id taskId (closeTask reason c.now) st.tasks)
  | deleted (hop : c.op = .deleteBySession) :
    Change st c (st.tasks.filter fun task => task.ownerSession ≠ c.callerSession)

section Steps

variable {st : TaskStore} {c : TaskCall}

theorem not_updatesToClosed (h : ∀ taskId input, c.op ≠ .update taskId input) :
    ¬ st.UpdatesToClosed c := by
  rintro ⟨taskId, input, task, hop, -⟩
  exact h taskId input hop

variable {task : Task}

theorem not_closed_of_allowed {status : TaskStatus}
    (h : status ∈ task.status.allowed) : task.status ≠ .closed := by
  intro hclosed
  rw [hclosed] at h
  exact absurd h not_mem_nil

theorem closed_allowed (h : task.status ≠ .closed) : TaskStatus.closed ∈ task.status.allowed := by
  cases hstatus : task.status with
  | opened => decide
  | inProgress => decide
  | blocked => decide
  | closed => exact absurd hstatus h

theorem create_change {input : CreateTaskInput} (hop : c.op = .create input) :
    Change st c (st.create c.authChecker c.callerSession input c.nanoid c.now).1.tasks := by
  have hother : ¬ st.UpdatesToClosed c := by
    apply not_updatesToClosed
    intro taskId input hupdate
    rw [hop] at hupdate
    cases hupdate
  by_cases hrefused : st.RefusedFirst c.authChecker c.callerSession input c.nanoid
  · obtain ⟨e, he⟩ := create_of_refusedFirst hrefused c.now
    rw [he]
    exact .same hother
  · obtain ⟨hfree, hinsert⟩ := create_of_not_refusedFirst hrefused c.now
    rw [hinsert]
    rcases insert_cases hfree c.callerSession input c.now with ⟨-, heq⟩ | ⟨-, htasks, -⟩
    · rw [heq]
      exact .added input hop hfree
    · rw [htasks]
      exact .added input hop hfree

variable {taskId : String}

theorem update_change {input : UpdateTaskInput} (hop : c.op = .update taskId input) :
    Change st c (st.update c.authChecker c.callerSession taskId input c.now).1.tasks := by
  -- nothing is closed by this update unless it finds a task that the caller may write and close
  have hsame (h : ∀ task, st.get taskId = some task →
      c.authChecker c.callerSession task.ownerSession = true → task.status ≠ .closed →
        input.status ≠ some .closed) : ¬ st.UpdatesToClosed c := by
    rintro ⟨taskId', input', task, hop', hclosed, hget, hauth, hopen⟩
    rw [hop] at hop'
    cases hop'
    exact h task hget hauth hopen hclosed
  unfold update
  cases hget : st.get taskId with
  | none =>
    refine .same (hsame fun task htask => ?_)
    rw [hget] at htask
    cases htask
  | some task =>
    simp only
    by_cases hauth : c.authChecker c.callerSession task.ownerSession = true
    · rw [if_pos hauth]
      cases hfilter : input.status.filter fun status => status ∉ task.status.allowed with
      | some status =>
        refine .same (hsame fun other hother _ hopen hclosed => ?_)
        rw [hget] at hother
        cases hother
        rw [hclosed, filter_some, if_neg (by simpa using closed_allowed hopen)] at hfilter
        cases hfilter
      | none =>
        simp only
        by_cases hempty : input = {}
        · rw [if_pos hempty]
          refine .same (hsame fun _ _ _ _ => ?_)
          rw [hempty]
          intro hclosed
          cases hclosed
        · rw [if_neg hempty]
          refine .updated taskId input task hop hget hauth fun status hstatus => ?_
          rw [hstatus] at hfilter
          simpa using hfilter
    · rw [if_neg hauth]
      refine .same (hsame fun other hother hwrite => ?_)
      rw [hget] at hother
      cases hother
      exact absurd hwrite hauth

theorem close_change {reason : String} (hop : c.op = .close taskId reason) :
    Change st c (st.close c.authChecker c.callerSession taskId reason c.now).1.tasks := by
  have hother : ¬ st.UpdatesToClosed c := by
    apply not_updatesToClosed
    intro taskId input hupdate
    rw [hop] at hupdate
    cases hupdate
  unfold close
  cases hget : st.get taskId with
  | none => exact .same hother
  | some task =>
    simp only
    split_ifs with hauth hallowed
    · exact .closed taskId reason task hop hget hallowed
    · exact .same hother
    · exact .same hother

theorem addDep_tasks (st : TaskStore) (c : TaskCall) (sourceId targetId : String)
    (depType : DepType) :
    (st.addDep c.authChecker c.callerSession sourceId targetId depType c.now).1.tasks =
      st.tasks := by
  unfold addDep
  cases st.get sourceId with
  | none => rfl
  | some source =>
    simp only
    split_ifs
    · cases st.get targetId with
      | none => rfl
      | some target => exact st.addDepInternal_tasks sourceId targetId depType c.now
    · rfl

theorem step_change (st : TaskStore) (c : TaskCall) : Change st c (st.step c).tasks := by
  have hother (h : ∀ taskId input, c.op ≠ .update taskId input) : Change st c st.tasks :=
    .same (not_updatesToClosed h)
  unfold step
  cases hop : c.op with
  | create input => exact create_change hop
  | update taskId input => exact update_change hop
  | close taskId reason => exact close_change hop
  | deleteBySession =>
    simp only [deleteBySession]
    split_ifs
    · apply hother
      simp [hop]
    · exact .deleted hop
  | addDep sourceId targetId depType =>
    simp only
    rw [addDep_tasks]
    apply hother
    simp [hop]
  | removeDep sourceId targetId =>
    have htasks : (st.removeDep c.authChecker c.callerSession sourceId targetId).1.tasks =
        st.tasks := by
      unfold removeDep
      cases st.get sourceId with
      | none => rfl
      | some source =>
        simp only
        split_ifs
        · rfl
        · rfl
    simp only
    rw [htasks]
    apply hother
    simp [hop]

theorem applyUpdate_id (input : UpdateTaskInput) (now : Instant) (task : Task) :
    (applyUpdate input now task).id = task.id :=
  rfl

theorem closeTask_id (reason : String) (now : Instant) (task : Task) :
    (closeTask reason now task).id = task.id :=
  rfl

theorem step_nodup (h : (st.tasks.map Task.id).Nodup) (c : TaskCall) :
    ((st.step c).tasks.map Task.id).Nodup := by
  have hchange := step_change st c
  generalize (st.step c).tasks = tasks at hchange ⊢
  cases hchange with
  | same => exact h
  | added input _ hfree =>
    have hfresh := Table.lookup_eq_none.mp hfree
    rw [map_append, map_singleton]
    refine nodup_append.mpr ⟨h, nodup_singleton _, ?_⟩
    intro id hid other hother
    obtain ⟨task, htask, rfl⟩ := List.mem_map.mp hid
    rw [mem_singleton.mp hother]
    exact hfresh task htask
  | updated taskId input =>
    rw [Table.map_key_modify (applyUpdate_id input c.now)]
    exact h
  | closed taskId reason =>
    rw [Table.map_key_modify (closeTask_id reason c.now)]
    exact h
  | deleted => exact h.sublist (filter_sublist.map Task.id)

theorem follows_self (old : Option Task) : Follows old old := by
  cases old with
  | none => trivial
  | some task => exact Or.inl rfl

theorem follows_modify {f : Task → Task} (hf : ∀ task, (f task).id = task.id)
    (hget : st.get taskId = some task)
    (h : (f task).status = task.status ∨ (f task).status ∈ task.status.allowed) (id : String) :
    Follows (st.get id) (Table.lookup Task.id (Table.modify Task.id taskId f st.tasks) id) := by
  rw [Table.lookup_modify hf]
  unfold get at hget ⊢
  by_cases hid : id = taskId
  · rw [hid, hget, map_some, if_pos rfl]
    exact h
  · simp only [hid, if_false, Option.map_id']
    exact follows_self _

theorem step_follows (h : (st.tasks.map Task.id).Nodup) (c : TaskCall) (id : String) :
    Follows (st.get id) ((st.step c).get id) := by
  have hchange := step_change st c
  change Follows (st.get id) (Table.lookup Task.id (st.step c).tasks id)
  generalize (st.step c).tasks = tasks at hchange ⊢
  cases hchange with
  | same => exact follows_self _
  | added input _ hfree =>
    rw [Table.lookup_concat]
    unfold get
    cases Table.lookup Task.id st.tasks id with
    | some old => exact Or.inl rfl
    | none =>
      rw [none_or]
      split_ifs
      · rfl
      · trivial
  | updated taskId input task _ hget _ hallowed =>
    apply follows_modify (applyUpdate_id input c.now) hget
    cases hstatus : input.status with
    | none =>
      left
      simp [applyUpdate, hstatus]
    | some status =>
      right
      simp only [applyUpdate, hstatus, getD_some]
      exact hallowed status hstatus
  | closed taskId reason task _ hget hallowed =>
    apply follows_modify (closeTask_id reason c.now) hget
    exact Or.inr hallowed
  | deleted =>
    cases hnew : Table.lookup Task.id
        (st.tasks.filter fun task => task.ownerSession ≠ c.callerSession) id with
    | none => trivial
    | some new =>
      obtain ⟨hmem, hid⟩ := Table.mem_of_lookup hnew
      have hold : st.get id = some new :=
        (Table.lookup_eq_some h).mpr ⟨mem_of_mem_filter hmem, hid⟩
      rw [hold]
      exact Or.inl rfl

theorem coherent_modify (h : (st.tasks.map Task.id).Nodup) (hcoherent : st.Coherent)
    {f : Task → Task} (hget : st.get taskId = some task) :
    Coherent { st with tasks := Table.modify Task.id taskId f st.tasks } ↔
      ((f task).status = .closed ↔ (f task).closedAt.isSome = true) := by
  obtain ⟨hmem, hid⟩ := Table.mem_of_lookup hget
  constructor
  · intro hnew
    refine hnew (f task) (Table.mem_modify.mpr ⟨task, hmem, ?_⟩)
    rw [if_pos hid]
  · intro hrow row hrow'
    obtain ⟨old, hold, rfl⟩ := Table.mem_modify.mp hrow'
    split_ifs with hkey
    · rw [Table.eq_of_key h hold hmem (hkey.trans hid.symm)]
      exact hrow
    · exact hcoherent old hold

theorem step_coherent_iff (h : (st.tasks.map Task.id).Nodup) (hcoherent : st.Coherent)
    (c : TaskCall) : (st.step c).Coherent ↔ ¬ st.UpdatesToClosed c := by
  have hchange := step_change st c
  change Coherent { st with tasks := (st.step c).tasks } ↔ _
  generalize (st.step c).tasks = tasks at hchange ⊢
  cases hchange with
  | same hother => exact iff_of_true hcoherent hother
  | added input hop =>
    refine iff_of_true ?_ (not_updatesToClosed (by simp [hop]))
    intro task htask
    rcases mem_append.mp htask with htask | htask
    · exact hcoherent task htask
    · rw [mem_singleton.mp htask]
      simp [newTask]
  | updated taskId input task hop hget hauth hallowed =>
    rw [coherent_modify h hcoherent hget]
    have hold := hcoherent task (Table.mem_of_lookup hget).1
    by_cases hclosed : input.status = some .closed
    · -- the task was not closed, so it has no time of closing, and gets none
      have hopen := not_closed_of_allowed (hallowed .closed hclosed)
      refine iff_of_false ?_ fun hnot =>
        hnot ⟨taskId, input, task, hop, hclosed, hget, hauth, hopen⟩
      simp [applyUpdate, hclosed, mt hold.mpr hopen]
    · refine iff_of_true ?_ ?_
      · cases hstatus : input.status with
        | none =>
          simp only [applyUpdate, hstatus, getD_none]
          exact hold
        | some status =>
          have hopen := not_closed_of_allowed (hallowed status hstatus)
          have hother : status ≠ .closed := fun heq => hclosed (heq ▸ hstatus)
          simp only [applyUpdate, hstatus, getD_some]
          exact iff_of_false hother (mt hold.mpr hopen)
      · rintro ⟨taskId', input', task', hop', hclosed', -⟩
        rw [hop] at hop'
        cases hop'
        exact hclosed hclosed'
  | closed taskId reason task hop hget hallowed =>
    rw [coherent_modify h hcoherent hget]
    refine iff_of_true ?_ (not_updatesToClosed (by simp [hop]))
    simp [closeTask]
  | deleted hop =>
    refine iff_of_true ?_ (not_updatesToClosed (by simp [hop]))
    exact fun task htask => hcoherent task (mem_of_mem_filter htask)

theorem run_nodup (calls : List TaskCall) : ((Run.run step {} calls).tasks.map Task.id).Nodup := by
  induction calls using List.reverseRecOn with
  | nil => exact nodup_nil
  | append_singleton calls c ih =>
    rw [Run.run_snoc]
    exact step_nodup ih c

theorem stays_closed {before between : List TaskCall} {id : String}
    (hget : (Run.run step {} before).get id = some task) (hclosed : task.status = .closed)
    (hstands : ∀ front back, between = front ++ back →
      ((Run.run step {} (before ++ front)).get id).isSome = true) :
    ∃ later, (Run.run step {} (before ++ between)).get id = some later ∧
      later.status = .closed := by
  induction between using List.reverseRecOn with
  | nil =>
    rw [append_nil]
    exact ⟨task, hget, hclosed⟩
  | append_singleton between c ih =>
    obtain ⟨old, hold, holdClosed⟩ := ih fun front back hsplit =>
      hstands front (back ++ [c]) (by rw [hsplit, append_assoc])
    obtain ⟨new, hnew⟩ := isSome_iff_exists.mp (hstands (between ++ [c]) [] (append_nil _).symm)
    have hfollows := step_follows (run_nodup (before ++ between)) c id
    rw [← append_assoc, Run.run_snoc] at hnew ⊢
    rw [hold, hnew] at hfollows
    refine ⟨new, hnew, ?_⟩
    rcases hfollows with hsame | hallowed
    · exact hsame.trans holdClosed
    · exact absurd holdClosed (not_closed_of_allowed hallowed)

end Steps

/-- Along a run the status of tasks is coherent exactly when no call closes a task by
updating it. -/
theorem statusLaw_iff (calls : List TaskCall) :
    StatusLaw calls ↔ Run.Allowed (fun st c => ¬ st.UpdatesToClosed c) step {} calls := by
  have hcoherent : (∀ before after, calls = before ++ after →
      Coherent (Run.run step {} before)) ↔
        Run.Allowed (fun st c => ¬ st.UpdatesToClosed c) step {} calls := by
    refine Run.always_iff_allowed (I := fun st => (st.tasks.map Task.id).Nodup) nodup_nil
      ?_ ?_ ?_ calls
    · exact fun task htask => absurd htask not_mem_nil
    · exact fun _ c h => step_nodup h c
    · exact fun _ c h hp => step_coherent_iff h hp c
  rw [← hcoherent]
  refine ⟨fun h => h.coherent, fun h => ⟨h, ?_, ?_⟩⟩
  · intro before c after _ id
    rw [Run.run_snoc]
    exact step_follows (run_nodup before) c id
  · intro before between after _ id task hget hclosed hstands
    exact stays_closed hget hclosed hstands

def updatedToClosed : List TaskCall :=
  [{ op := .create { title := "Plan" }, callerSession := "s", nanoid := "a", now := 0 },
    { op := .update "a" { status := some .closed }, callerSession := "s", nanoid := "", now := 1 }]

/-- It is closed without a time of closing. -/
theorem updatedToClosed_incoherent :
    ¬ StatusLaw updatedToClosed ∧
      ∃ task ∈ (Run.run step {} updatedToClosed).tasks,
        task.status = .closed ∧ task.closedAt = none := by
  have hbare : ∃ task ∈ (Run.run step {} updatedToClosed).tasks,
      task.status = .closed ∧ task.closedAt = none := by decide
  refine ⟨fun h => ?_, hbare⟩
  obtain ⟨task, htask, hclosed, hnone⟩ := hbare
  have hset := (h.coherent updatedToClosed [] (append_nil _).symm task htask).mp hclosed
  rw [hnone] at hset
  cases hset

end CrabbyKit.TaskStore
