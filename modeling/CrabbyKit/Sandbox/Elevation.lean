import CrabbyKit.Sandbox.Commands
import CrabbyKit.Schedule.Callbacks

/-!
# What elevation rests on

While a session is elevated the timer is armed, or an operation is about to arm it; while the
container runs a session is elevated, or an operation is about to mark one or to stop it.
-/

namespace CrabbyKit

open Option

namespace ScheduleRuntime

variable {s : ScheduleRuntime} {id : String}

theorem lookup_isSome : (s.callbacks.lookup id).isSome = true ↔ s.HasCallback id := by
  rw [List.lookup_isSome_iff, HasCallback, List.mem_map]
  constructor
  · rintro ⟨entry, hentry, hid⟩
    exact ⟨entry, hentry, (eq_of_beq hid).symm⟩
  · rintro ⟨entry, hentry, rfl⟩
    exact ⟨entry, hentry, beq_self_eq_true _⟩

/-- The timer of an id is armed: its row can become due, and it has a callback. -/
def Armed (s : ScheduleRuntime) (id : String) : Prop :=
  (∃ row, s.store.get id = some row ∧ row.handlerType = .timer ∧ row.enabled = true ∧
    row.nextFireAt.isSome = true) ∧ s.HasCallback id

theorem Armed.updateRow (h : s.Armed id) {f : Schedule → Schedule} (hf : StatusOnly f)
    (htype : ∀ row, (f row).handlerType = row.handlerType) :
    Armed { s with store := s.store.updateRow id f } id := by
  obtain ⟨⟨row, hget, htimer, henabled, hnext⟩, hcallback⟩ := h
  refine ⟨⟨f row, ?_, (htype row).trans htimer, (hf.enabled row).trans henabled, ?_⟩, hcallback⟩
  · rw [ScheduleStore.get_updateRow hf.id, hget, map_some, if_pos rfl]
  · rw [hf.nextFireAt]
    exact hnext

theorem Armed.callbacks (h : s.Armed id) {callbacks : List (String × Callback)}
    {timerOwners : List (String × String)} (hkeep : id ∈ callbacks.map Prod.fst) :
    Armed { s with callbacks, timerOwners } id := ⟨h.1, hkeep⟩

theorem armed_setTimer (hcallback : s.HasCallback id) (delay : Int) (now : Instant) :
    ((s.setTimer id (some delay) none "" now).1).Armed id ∧
      (s.setTimer id (some delay) none "" now).2 = none := by
  obtain ⟨callback, hfound⟩ := isSome_iff_exists.mp (lookup_isSome.mpr hcallback)
  have hnone : (s.store.delete id).get id = none := by
    rw [ScheduleStore.get_delete, if_pos rfl]
  have hcreate : ∃ row, (s.store.delete id).create
      (timerRow { s with store := s.store.delete id } id (now + delay)) "" now =
        .ok ({ rows := (s.store.delete id).rows ++ [row] }, row) ∧
      row.handlerType = .timer ∧ row.enabled = true ∧ row.nextFireAt.isSome = true := by
    refine ⟨ScheduleStore.newSchedule
      (timerRow { s with store := s.store.delete id } id (now + delay)) id now, ?_, rfl, rfl, rfl⟩
    unfold ScheduleStore.create
    simp only [timerRow, getD_some, hnone, isSome_none, Bool.false_eq_true, if_false]
  obtain ⟨row, hcreated, hrow⟩ := hcreate
  have hget := ScheduleStore.get_create hcreated id
  rw [timerRow, getD_some, if_pos rfl] at hget
  unfold setTimer
  simp only [hfound, or_some, insert, hcreated]
  exact ⟨⟨⟨row, hget, hrow⟩, mem_setKey.mpr (.inl rfl)⟩, trivial⟩

end ScheduleRuntime

namespace Sandbox

def Tool.resets (options : SandboxCapabilityOptions) : Tool → Bool
  | .exec _ background _ => !background || options.provider.sessionStart
  | _ => false

/-- The session that is marked gets its timer reset. -/
def Caller.resets (options : SandboxCapabilityOptions) (caller : Caller) : Bool :=
  match caller.purpose with
  | .elevate _ _ => true
  | .use tool => tool.resets options

/-- The operation is about to reset the timer. -/
def Task.owes (options : SandboxCapabilityOptions) : Task → Bool
  | .marking caller _ => caller.resets options
  | .resetting _ _ => true
  | .executing _ _ => true
  | .surveyingSessions _ => true
  | .surveyingProcesses _ => true
  | .launching _ _ => true
  | .recording _ _ => true
  | .polling _ _ => true
  | _ => false

/-- The operation is about to mark its session or to stop the container. -/
def Task.holds : Task → Bool
  | .scanning _ => true
  | .verifying _ => true
  | .clearing _ (.stale _) => true
  | .clearing _ (.other _) => true
  | .joining _ => true
  | .awaiting _ _ => true
  | .starting _ => true
  | .confirming _ => true
  | .collecting _ => true
  | .injecting _ _ _ => true
  | .restarting _ => true
  | .marking _ todo => todo.contains .elevated
  | .unmarking _ _ => true
  | .surveying => true
  | .cancelling => true
  | .stopping => true
  | .teardown => true
  | _ => false

namespace Agent

variable (options : SandboxCapabilityOptions) (s : Agent)

def Elevated : Prop := s.storage.isAnySessionElevated = true

/-- Another operation than `i` is about to reset the timer. -/
def Owed (i : Nat) : Prop := ∃ j task, j ≠ i ∧ s.tasks j = some task ∧ task.owes options = true

/-- Another operation than `i` is about to mark a session or to stop the container. -/
def Held (i : Nat) : Prop := ∃ j task, j ≠ i ∧ s.tasks j = some task ∧ task.holds = true

/-- What holds between the steps of careful runs. -/
structure Coherent : Prop where
  timed : s.Elevated → s.schedules.Armed timerId ∨
    ∃ j task, s.tasks j = some task ∧ task.owes options = true
  held : s.running = true → s.Elevated ∨ ∃ j task, s.tasks j = some task ∧ task.holds = true
  /-- What `clearAllProcessOwners` deletes elevates nobody. -/
  owners : ∀ j keys clearer, s.tasks j = some (.clearing (.deletingOwners keys) clearer) →
    ∀ key ∈ keys, Storage.Apart key
  free : ∀ j, s.started ≤ j → s.tasks j = none

variable {options s} {s' : Agent} {i : Nat} {task : Task}

theorem Coherent.timedAt (h : s.Coherent options) (htask : s.tasks i = some task)
    (helevated : s.Elevated) :
    s.schedules.Armed timerId ∨ task.owes options = true ∨ s.Owed options i := by
  rcases h.timed helevated with harmed | ⟨j, t, ht, howes⟩
  · exact .inl harmed
  · by_cases hj : j = i
    · subst hj
      obtain rfl := Option.some.inj (ht.symm.trans htask)
      exact .inr (.inl howes)
    · exact .inr (.inr ⟨j, t, hj, ht, howes⟩)

theorem Coherent.heldAt (h : s.Coherent options) (htask : s.tasks i = some task)
    (hrunning : s.running = true) : s.Elevated ∨ task.holds = true ∨ s.Held i := by
  rcases h.held hrunning with helevated | ⟨j, t, ht, hholds⟩
  · exact .inl helevated
  · by_cases hj : j = i
    · subst hj
      obtain rfl := Option.some.inj (ht.symm.trans htask)
      exact .inr (.inl hholds)
    · exact .inr (.inr ⟨j, t, hj, ht, hholds⟩)

theorem Coherent.next (h : s.Coherent options) (htask : s.tasks i = some task) {next : Option Task}
    (htasks : s'.tasks = Function.update s.tasks i next) (hstarted : s'.started = s.started)
    (htimed : s'.Elevated → s'.schedules.Armed timerId ∨
      (∃ t, next = some t ∧ t.owes options = true) ∨ s.Owed options i)
    (hheld : s'.running = true → s'.Elevated ∨ (∃ t, next = some t ∧ t.holds = true) ∨ s.Held i)
    (howners : ∀ keys clearer, next = some (.clearing (.deletingOwners keys) clearer) →
      ∀ key ∈ keys, Storage.Apart key) : s'.Coherent options := by
  have hself : ∀ t, next = some t → s'.tasks i = some t := by
    intro t ht
    rw [htasks, Function.update_self, ht]
  have hother : ∀ j t, j ≠ i → s.tasks j = some t → s'.tasks j = some t := by
    intro j t hj ht
    rw [htasks, Function.update_of_ne hj, ht]
  refine ⟨fun helevated => ?_, fun hrunning => ?_, fun j keys clearer ht => ?_, fun j hle => ?_⟩
  · rcases htimed helevated with harmed | ⟨t, ht, howes⟩ | ⟨j, t, hj, ht, howes⟩
    · exact .inl harmed
    · exact .inr ⟨i, t, hself t ht, howes⟩
    · exact .inr ⟨j, t, hother j t hj ht, howes⟩
  · rcases hheld hrunning with helevated | ⟨t, ht, hholds⟩ | ⟨j, t, hj, ht, hholds⟩
    · exact .inl helevated
    · exact .inr ⟨i, t, hself t ht, hholds⟩
    · exact .inr ⟨j, t, hother j t hj ht, hholds⟩
  · rw [htasks] at ht
    rcases Table.update_eq_some ht with ⟨-, hnext⟩ | ⟨-, hold⟩
    · exact howners keys clearer hnext
    · exact h.owners j keys clearer hold
  · rw [htasks, hstarted] at *
    exact Table.free_update h.free le_rfl (Table.lt_of_taken h.free htask) j hle

theorem Coherent.goOn (h : s.Coherent options) (htask : s.tasks i = some task) {next : Task}
    (howes : task.owes options = true → next.owes options = true)
    (hholds : task.holds = true → next.holds = true)
    (howners : ∀ keys clearer, next = .clearing (.deletingOwners keys) clearer →
      ∀ key ∈ keys, Storage.Apart key) : (s.goOn i next).Coherent options := by
  refine h.next htask rfl rfl (fun helevated => ?_) (fun hrunning => ?_) fun keys clearer hnext =>
    howners keys clearer (Option.some.inj hnext)
  · rcases h.timedAt htask helevated with harmed | hself | howed
    · exact .inl harmed
    · exact .inr (.inl ⟨next, rfl, howes hself⟩)
    · exact .inr (.inr howed)
  · rcases h.heldAt htask hrunning with helevated | hself | hheld
    · exact .inl helevated
    · exact .inr (.inl ⟨next, rfl, hholds hself⟩)
    · exact .inr (.inr hheld)

theorem Coherent.finish (h : s.Coherent options) (htask : s.tasks i = some task) {outcome : Outcome}
    (howes : task.owes options = true → s.Elevated →
      s.schedules.Armed timerId ∨ s.Owed options i)
    (hholds : task.holds = true → s.running = true → s.Elevated ∨ s.Held i) :
    (s.finish i outcome).Coherent options := by
  refine h.next htask rfl rfl (fun helevated => ?_) (fun hrunning => ?_)
    fun keys clearer hnext => ?_
  · rcases h.timedAt htask helevated with harmed | hself | howed
    · exact .inl harmed
    · exact (howes hself helevated).imp_right .inr
    · exact .inr (.inr howed)
  · rcases h.heldAt htask hrunning with helevated | hself | hheld
    · exact .inl helevated
    · exact (hholds hself hrunning).imp_right .inr
    · exact .inr (.inr hheld)
  · cases hnext

theorem Coherent.leave (h : s.Coherent options) (htask : s.tasks i = some task) {outcome : Outcome}
    (howes : task.owes options = false) (hholds : task.holds = false) :
    (s.finish i outcome).Coherent options := by
  refine h.finish htask (fun htrue => ?_) fun htrue => ?_
  · rw [howes] at htrue
    cases htrue
  · rw [hholds] at htrue
    cases htrue

theorem Coherent.spawn (h : s.Coherent options) {next : Task}
    (howners : ∀ keys clearer, next ≠ .clearing (.deletingOwners keys) clearer) :
    (s.spawn next).Coherent options := by
  have hother : ∀ j t, s.tasks j = some t → (s.spawn next).tasks j = some t := by
    intro j t ht
    exact Table.update_of_taken (h.free s.started le_rfl) ht
  refine ⟨fun helevated => ?_, fun hrunning => ?_, fun j keys clearer ht => ?_, fun j hle => ?_⟩
  · rcases h.timed helevated with harmed | ⟨j, t, ht, howes⟩
    · exact .inl harmed
    · exact .inr ⟨j, t, hother j t ht, howes⟩
  · rcases h.held hrunning with helevated | ⟨j, t, ht, hholds⟩
    · exact .inl helevated
    · exact .inr ⟨j, t, hother j t ht, hholds⟩
  · rcases Table.update_eq_some ht with ⟨-, hnext⟩ | ⟨-, hold⟩
    · exact absurd (Option.some.inj hnext) (howners keys clearer)
    · exact h.owners j keys clearer hold
  · exact Table.free_update h.free (Nat.le_succ _) (Nat.lt_succ_self _) j hle

theorem Coherent.reschedule (h : s.Coherent options) {schedules : ScheduleRuntime}
    (hkeep : s.schedules.Armed timerId → schedules.Armed timerId) :
    Coherent options { s with schedules } :=
  ⟨fun helevated => (h.timed helevated).imp_left hkeep, h.held, h.owners, h.free⟩

theorem Coherent.container (h : s.Coherent options) {running : Bool}
    (hholds : running = true → s.running = true ∨ ∃ j t, s.tasks j = some t ∧ t.holds = true) :
    Coherent options { s with running } := by
  refine ⟨h.timed, fun hrunning => ?_, h.owners, h.free⟩
  rcases hholds hrunning with hbefore | hheld
  · exact h.held hbefore
  · exact .inr hheld

theorem Coherent.store (h : s.Coherent options) {storage : Storage}
    (hsame : storage.isAnySessionElevated = true ↔ s.storage.isAnySessionElevated = true) :
    Coherent options { s with storage } :=
  ⟨fun helevated => h.timed (hsame.mp helevated),
    fun hrunning => (h.held hrunning).imp_left hsame.mpr, h.owners, h.free⟩

theorem Coherent.send (h : s.Coherent options) (chat : String) (command : Command) :
    (s.send i chat command).Coherent options := ⟨h.timed, h.held, h.owners, h.free⟩

end Agent

end Sandbox

end CrabbyKit
