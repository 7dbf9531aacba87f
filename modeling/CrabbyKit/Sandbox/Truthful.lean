import CrabbyKit.Sandbox.Elevation

/-!
# Elevation is timed and truthful

Every careful step keeps what elevation rests on, so that between the operations of a careful run an
elevated session has its timer, and a container without an elevated session does not run.
-/

namespace CrabbyKit.Sandbox.Agent

open List Function

variable (options : SandboxCapabilityOptions) (s : Agent)

/-- What a step of an operation has to meet. -/
def CarefulTask (i : Nat) (answer : HostAnswer) : Task → Prop
  | .marking caller (.elevated :: _) =>
    -- A restart for a tool that does not reset the timer.
    caller.resets options = false → s.schedules.Armed timerId ∨ s.Owed options i
  | .resetting _ delay => s.Elevated →
    (s.schedules.HasCallback timerId ∧ Option.isSome delay = true) ∨ s.Owed options i
  | .executing _ _ => answer.failed = true → s.Elevated →
    s.schedules.Armed timerId ∨ s.Owed options i
  | .launching _ _ => answer.failed = true → s.Elevated →
    s.schedules.Armed timerId ∨ s.Owed options i
  | .cancelling => s.Elevated → s.Owed options i
  | .expiring => s.Elevated → s.Owed options i
  | .starting _ => answer.failed = true → s.running = true → s.Elevated ∨ s.Held i
  | .confirming _ => answer.healthy = false → s.running = true → s.Elevated ∨ s.Held i
  | .teardown => answer.failed = true → s.running = true → s.Elevated ∨ s.Held i
  | .clearing (.deleting (key :: _)) clearer => clearer = .connect ∨ clearer = .timer →
    s.running = true →
      Storage.isAnySessionElevated (s.storage.delete key).1 = true ∨ s.Held i
  | _ => True

/-- A step is careful when the timer is set only with a known callback and taken away only while
nobody is elevated, a restart that does not reset it finds it armed, and so does a command that
fails; and when a start, its health check and a stop fail, and the last mark is cleared, only for a
container that does not run. All of this is asked only while no other operation is about to make it
good. -/
def Careful : Label → Prop
  | .advance i answer => ∀ task, s.tasks i = some task → s.CarefulTask options i answer task
  | _ => True

variable {options s} {i : Nat} {task : Task}

variable {chat : String}

/-- `checkElevation` returned null, and what follows resets the timer if it has to be reset. -/
theorem Coherent.execute (h : s.Coherent options) (htask : s.tasks i = some task)
    {tool : Tool} (howes : task.owes options = true → tool.resets options = true)
    (hholds : task.holds = false) : (s.execute options i chat tool).Coherent options := by
  have hgo : ∀ {next : Task}, (tool.resets options = true → next.owes options = true) →
      (∀ keys clearer, next ≠ .clearing (.deletingOwners keys) clearer) →
        (s.goOn i next).Coherent options := by
    intro next hnext hclear
    refine h.goOn htask (fun htrue => hnext (howes htrue)) (fun htrue => ?_)
      fun keys clearer heq => absurd heq (hclear keys clearer)
    rw [hholds] at htrue
    cases htrue
  have hend : ∀ {outcome : Outcome}, tool.resets options = false →
      (s.finish i outcome).Coherent options := by
    intro outcome hfalse
    refine h.leave htask (Bool.eq_false_iff.mpr fun htrue => ?_) hholds
    rw [howes htrue] at hfalse
    cases hfalse
  cases tool with
  | exec command background onUpdate =>
    simp only [Agent.execute]
    split_ifs with hbackground hstart
    · exact hgo (fun _ => rfl) fun _ _ heq => by cases heq
    · refine hend ?_
      rw [Tool.resets, hbackground, Bool.not_true, Bool.false_or, Bool.eq_false_iff]
      exact hstart
    · exact hgo (fun _ => rfl) fun _ _ heq => by cases heq
  | list =>
    simp only [Agent.execute]
    split_ifs
    · exact hgo (fun htrue => by cases htrue) fun _ _ heq => by cases heq
    · exact hend rfl
  | process action sessionId input =>
    simp only [Agent.execute]
    split_ifs
    · exact hend rfl
    · exact hgo (fun htrue => by cases htrue) fun _ _ heq => by cases heq
    · exact hend rfl

theorem Coherent.resetByProcesses (h : s.Coherent options) (htask : s.tasks i = some task)
    (hholds : task.holds = false) : (s.resetByProcesses options i chat).Coherent options := by
  unfold Agent.resetByProcesses
  split_ifs
  · exact h.goOn htask (fun _ => rfl) (fun htrue => by rw [hholds] at htrue; cases htrue)
      fun _ _ heq => by cases heq
  · exact h.goOn htask (fun _ => rfl) (fun htrue => by rw [hholds] at htrue; cases htrue)
      fun _ _ heq => by cases heq

variable {outcome : Outcome}

theorem Coherent.startFailed (h : s.Coherent options) (htask : s.tasks i = some task)
    (howes : task.owes options = false)
    (hheld : s.running = true → s.Elevated ∨ s.Held i) {caller : Caller} :
    (s.startFailed i caller outcome).Coherent options := by
  have hend : ∀ {outcome : Outcome}, (s.finish i outcome).Coherent options := fun {outcome} =>
    h.finish htask (fun htrue => by rw [howes] at htrue; cases htrue) fun _ => hheld
  unfold Agent.startFailed
  split
  · exact hend
  · exact hend

theorem Coherent.unmark (h : s.Coherent options) (htask : s.tasks i = some task)
    (howes : task.owes options = false) {key : Capabilities.Key} {next : Task}
    (hheld : s.running = true → Storage.isAnySessionElevated (s.storage.delete key).1 = true ∨
      next.holds = true ∨ s.Held i)
    (hclear : ∀ keys clearer, next ≠ .clearing (.deletingOwners keys) clearer) :
    (Agent.goOn { s with storage := (s.storage.delete key).1 } i next).Coherent options := by
  refine h.next htask rfl rfl (fun helevated => ?_) (fun hrunning => ?_) fun keys clearer heq =>
    absurd (Option.some.inj heq) (hclear keys clearer)
  · rcases h.timedAt htask (Storage.isAny_of_delete helevated) with harmed | hself | howed
    · exact .inl harmed
    · rw [howes] at hself
      cases hself
    · exact .inr (.inr howed)
  · rcases hheld hrunning with helevated | hself | hother
    · exact .inl helevated
    · exact .inr (.inl ⟨next, rfl, hself⟩)
    · exact .inr (.inr hother)

variable {answer : HostAnswer}

theorem Coherent.clearNext (h : s.Coherent options) {clear : Clear} {clearer : Clearer}
    (htask : s.tasks i = some (.clearing clear clearer))
    (hcareful : s.CarefulTask options i answer (.clearing clear clearer)) :
    (s.clearNext i clearer clear).Coherent options := by
  have hholds : ∀ next : Clear, (Task.clearing clear clearer).holds = true →
      (Task.clearing next clearer).holds = true := by
    intro next htrue
    cases clearer <;> first | rfl | cases htrue
  have howes : ∀ {next : Task}, (Task.clearing clear clearer).owes options = true →
      next.owes options = true := fun htrue => by cases htrue
  cases clear with
  | listing => exact h.goOn htask howes (hholds _) fun _ _ heq => by cases heq
  | deleting keys =>
    cases keys with
    | nil => exact h.goOn htask howes (hholds _) fun _ _ heq => by cases heq
    | cons key keys =>
      refine h.unmark htask rfl (fun hrunning => ?_) fun _ _ heq => by cases heq
      cases clearer with
      | stale caller => exact .inr (.inl rfl)
      | other caller => exact .inr (.inl rfl)
      | connect => exact (hcareful (.inl rfl) hrunning).imp_right .inr
      | timer => exact (hcareful (.inr rfl) hrunning).imp_right .inr
  | listingOwners =>
    refine h.goOn htask howes (hholds _) fun keys clearer' heq key hkey => ?_
    cases heq
    exact Storage.apart_of_ownerKeys hkey
  | deletingOwners keys =>
    have hapart := h.owners i keys clearer htask
    cases keys with
    | cons key keys =>
      have hkey := hapart key mem_cons_self
      have hstored : Coherent options { s with storage := (s.storage.delete key).1 } :=
        h.store ⟨Storage.isAny_of_delete, Storage.isAny_delete hkey⟩
      refine hstored.goOn htask howes (hholds _) fun keys' clearer' heq key' hkey' => ?_
      cases heq
      exact hapart key' (mem_cons_of_mem key hkey')
    | nil =>
      cases clearer with
      | stale caller =>
        simp only [Agent.clearNext]
        split
        · exact h.goOn htask howes (fun _ => rfl) fun _ _ heq => by cases heq
        · exact h.goOn htask howes (fun _ => rfl) fun _ _ heq => by cases heq
      | other caller => exact h.goOn htask howes (fun _ => rfl) fun _ _ heq => by cases heq
      | connect => exact h.leave htask rfl rfl
      | timer =>
        exact h.goOn htask howes (fun htrue => by cases htrue) fun _ _ heq => by cases heq

theorem Coherent.mark (h : s.Coherent options) {caller : Caller} {field : Field}
    {todo : List Field} (htask : s.tasks i = some (.marking caller (field :: todo)))
    (hcareful : s.CarefulTask options i answer (.marking caller
      (field :: todo))) :
    (s.advance options i answer (.marking caller (field :: todo))).Coherent options := by
  have hsame : ∀ {key : Capabilities.Key} {value : Stored}, Storage.Apart key →
      field ≠ .elevated → Coherent options (Agent.goOn { s with storage := s.storage.put key value }
        i (.marking caller todo)) := by
    intro key value hapart hfield
    have hstored : Coherent options { s with storage := s.storage.put key value } :=
      h.store (Storage.isAny_put_iff hapart)
    refine hstored.goOn htask id (fun htrue => ?_) fun _ _ heq => by cases heq
    change List.contains (field :: todo) Field.elevated = true at htrue
    rw [contains_cons, Bool.or_eq_true] at htrue
    rcases htrue with heq | hrest
    · exact absurd (eq_of_beq heq).symm hfield
    · exact hrest
  cases field with
  | reason => exact hsame (Storage.apart_reasonKey _) fun heq => by cases heq
  | elevatedAt => exact hsame (Storage.apart_elevatedAtKey _) fun heq => by cases heq
  | elevated =>
    have helevated : Storage.isAnySessionElevated
        (s.storage.put (elevatedKey caller.chat) (.flag true)) = true :=
      Storage.isAny_of_isSessionElevated (Storage.isSessionElevated_put caller.chat)
    refine h.next htask rfl rfl (fun _ => ?_) (fun _ => .inl helevated) fun _ _ heq => by cases heq
    cases hresets : caller.resets options with
    | true => exact .inr (.inl ⟨_, rfl, hresets⟩)
    | false => exact (hcareful hresets).imp_right .inr

theorem Coherent.resetDeElevationTimer (h : s.Coherent options) {delay : Delay}
    (htask : s.tasks i = some (.resetting chat delay))
    (hcareful : s.CarefulTask options i answer (.resetting chat delay)) :
    (s.resetDeElevationTimer i delay answer.now).Coherent options := by
  have hend : ∀ {outcome : Outcome}, Coherent options (Agent.finish
      { s with schedules := (s.schedules.setTimer timerId delay none "" answer.now).1 } i
        outcome) := by
    intro outcome
    refine h.next htask rfl rfl (fun helevated => ?_) (fun hrunning => ?_) fun _ _ heq => by
      cases heq
    · rcases hcareful helevated with ⟨hcallback, hdelay⟩ | howed
      · obtain ⟨millis, rfl⟩ := Option.isSome_iff_exists.mp hdelay
        exact .inl (ScheduleRuntime.armed_setTimer hcallback millis answer.now).1
      · exact .inr (.inr howed)
    · rcases h.heldAt htask hrunning with helevated | hself | hheld
      · exact .inl helevated
      · cases hself
      · exact .inr (.inr hheld)
  unfold Agent.resetDeElevationTimer
  split
  · rename_i schedules heq
    have hset : (s.schedules.setTimer timerId delay none "" answer.now).1 = schedules := by
      rw [heq]
    exact hset ▸ hend
  · rename_i schedules message heq
    have hset : (s.schedules.setTimer timerId delay none "" answer.now).1 = schedules := by
      rw [heq]
    exact hset ▸ hend

theorem armed_ensure {schedules : ScheduleRuntime} (w : Firing)
    (harmed : schedules.Armed timerId) : (schedules.ensureScheduleCallbacks w).Armed timerId := by
  unfold ScheduleRuntime.ensureScheduleCallbacks
  split_ifs with hempty
  · have hcallback := harmed.2
    rw [ScheduleRuntime.HasCallback, hempty] at hcallback
    cases hcallback
  · exact harmed

theorem Coherent.executeScheduledCallback (h : s.Coherent options)
    (htask : s.tasks i = some .firing) :
    (s.executeScheduledCallback i answer).Coherent options := by
  simp only [Agent.executeScheduledCallback]
  split
  · have hensured := h.reschedule (armed_ensure
      { now := answer.now, declared := answer.others ++ [(timerId, answer.callback)] })
    exact hensured.goOn htask (fun htrue => by cases htrue) (fun htrue => by cases htrue)
      fun _ _ heq => by cases heq
  · have hend : ∀ {schedules : ScheduleRuntime} {outcome : Outcome},
        (s.schedules.Armed timerId → schedules.Armed timerId) →
          (Agent.finish { s with schedules } i outcome).Coherent options :=
      fun hkeep => (h.reschedule hkeep).leave htask rfl rfl
    refine hend fun harmed => ?_
    exact (armed_ensure _ harmed).updateRow ⟨fun _ => rfl, fun _ => rfl, fun _ => rfl⟩ fun _ => rfl

/-- The stop that nobody awaits begins, and `de_elevate` is over. -/
theorem Coherent.stop (h : s.Coherent options) (htask : s.tasks i = some .stopping)
    {teardownPromise : Option Nat} :
    Coherent options { (s.finish i outcome).spawn .teardown with teardownPromise } := by
  have hne : i ≠ s.started := by
    rintro rfl
    cases htask.symm.trans (h.free s.started le_rfl)
  have hspawned : (s.spawn .teardown).Coherent options := h.spawn fun _ _ heq => by cases heq
  have hkept : (s.spawn .teardown).tasks i = some .stopping :=
    (update_of_ne hne _ _).trans htask
  refine @Coherent.next _ _ _ _ _ hspawned hkept none (update_comm hne _ _ _) rfl
    (fun helevated => ?_) (fun hrunning => ?_) fun _ _ heq => by cases heq
  · rcases hspawned.timedAt hkept helevated with harmed | hself | howed
    · exact .inl harmed
    · cases hself
    · exact .inr (.inr howed)
  · exact .inr (.inr ⟨s.started, .teardown, hne.symm, update_self _ _ _, rfl⟩)

theorem Coherent.advance (h : s.Coherent options) (htask : s.tasks i = some task)
    (hcareful : s.CarefulTask options i answer task) :
    (s.advance options i answer task).Coherent options := by
  have hgo : ∀ {next : Task}, task.owes options = false → task.holds = false →
      (∀ keys clearer, next ≠ .clearing (.deletingOwners keys) clearer) →
        (s.goOn i next).Coherent options := by
    intro next howes hholds hclear
    refine h.goOn htask (fun htrue => ?_) (fun htrue => ?_) fun keys clearer heq =>
      absurd heq (hclear keys clearer)
    · rw [howes] at htrue
      cases htrue
    · rw [hholds] at htrue
      cases htrue
  have hhold : ∀ {next : Task}, task.owes options = false → next.holds = true →
      (∀ keys clearer, next ≠ .clearing (.deletingOwners keys) clearer) →
        (s.goOn i next).Coherent options := by
    intro next howes hholds hclear
    refine h.goOn htask (fun htrue => ?_) (fun _ => hholds) fun keys clearer heq =>
      absurd heq (hclear keys clearer)
    rw [howes] at htrue
    cases htrue
  have howe : ∀ {next : Task} (chat : String) (command : Command), task.holds = false →
      next.owes options = true →
      (∀ keys clearer, next ≠ .clearing (.deletingOwners keys) clearer) →
        ((s.send i chat command).goOn i next).Coherent options := by
    intro next chat command hholds hnext hclear
    refine (h.send chat command).goOn htask (fun _ => hnext) (fun htrue => ?_)
      fun keys clearer heq => absurd heq (hclear keys clearer)
    rw [hholds] at htrue
    cases htrue
  cases task with
  | elevating caller =>
    simp only [Agent.advance]
    split_ifs
    · exact hgo rfl rfl fun _ _ heq => by cases heq
    · split
      · exact hgo rfl rfl fun _ _ heq => by cases heq
      · exact h.leave htask rfl rfl
  | probing caller =>
    simp only [Agent.advance]
    split_ifs
    · split
      · exact h.leave htask rfl rfl
      · exact h.execute htask (fun htrue => by cases htrue) rfl
    · exact hgo rfl rfl fun _ _ heq => by cases heq
  | scanning caller =>
    simp only [Agent.advance]
    split_ifs
    · exact hhold rfl rfl fun _ _ heq => by cases heq
    · exact hhold rfl rfl fun _ _ heq => by cases heq
  | verifying caller =>
    simp only [Agent.advance]
    split_ifs
    · exact hhold rfl rfl fun _ _ heq => by cases heq
    · exact hhold rfl rfl fun _ _ heq => by cases heq
    · exact hhold rfl rfl fun _ _ heq => by cases heq
  | clearing clear clearer => exact h.clearNext htask hcareful
  | joining caller =>
    simp only [Agent.advance]
    split
    · exact hhold rfl rfl fun _ _ heq => by cases heq
    · exact hhold rfl rfl fun _ _ heq => by cases heq
  | awaiting caller teardown =>
    simp only [Agent.advance]
    split_ifs
    · exact h
    · exact hhold rfl rfl fun _ _ heq => by cases heq
  | starting caller =>
    simp only [Agent.advance]
    split_ifs with hfailed
    · exact h.startFailed htask rfl (hcareful hfailed)
    · have hstarted : Coherent options { s with running := true } :=
        h.container fun _ => .inr ⟨i, _, htask, rfl⟩
      exact hstarted.goOn htask (fun htrue => by cases htrue) (fun _ => rfl)
        fun _ _ heq => by cases heq
  | confirming caller =>
    simp only [Agent.advance]
    split_ifs with hfailed hready
    · refine h.startFailed htask rfl (hcareful ?_)
      rw [HostAnswer.healthy, hfailed]
      rfl
    · unfold confirmed
      split
      · exact hhold rfl rfl fun _ _ heq => by cases heq
      · exact hhold rfl rfl fun _ _ heq => by cases heq
    · refine h.startFailed htask rfl (hcareful ?_)
      rw [HostAnswer.healthy, Bool.eq_false_iff.mpr hready, Bool.and_false]
  | collecting caller => exact hhold rfl rfl fun _ _ heq => by cases heq
  | injecting caller todo envVars =>
    cases todo with
    | nil =>
      simp only [Agent.advance]
      split_ifs
      · exact hhold rfl rfl fun _ _ heq => by cases heq
      · exact hhold rfl rfl fun _ _ heq => by cases heq
    | cons injection todo =>
      cases injection <;> exact hhold rfl rfl fun _ _ heq => by cases heq
  | restarting caller =>
    simp only [Agent.advance]
    split_ifs
    · exact hhold rfl rfl fun _ _ heq => by cases heq
    · have hstarted : Coherent options { s with running := true } :=
        h.container fun _ => .inr ⟨i, _, htask, rfl⟩
      exact hstarted.goOn htask (fun htrue => by cases htrue) (fun _ => rfl)
        fun _ _ heq => by cases heq
  | marking caller todo =>
    cases todo with
    | cons field todo => exact h.mark htask hcareful
    | nil =>
      simp only [Agent.advance, marked]
      split
      · exact h.goOn htask (fun _ => rfl) (fun htrue => by cases htrue) fun _ _ heq => by cases heq
      · rename_i tool hpurpose
        refine h.execute htask (fun htrue => ?_) rfl
        simpa only [Task.owes, Caller.resets, hpurpose] using htrue
  | resetting chat delay => exact h.resetDeElevationTimer htask hcareful
  | executing chat command =>
    simp only [Agent.advance]
    split_ifs with hfailed
    · exact (h.send chat command).finish htask (fun _ => hcareful hfailed)
        fun htrue => by cases htrue
    · unfold resetTimer
      split_ifs
      · exact howe chat command rfl rfl fun _ _ heq => by cases heq
      · exact (h.send chat command).resetByProcesses htask rfl
  | surveyingSessions chat =>
    simp only [Agent.advance]
    split_ifs
    · exact howe chat .sessionList rfl rfl fun _ _ heq => by cases heq
    · exact (h.send chat .sessionList).resetByProcesses htask rfl
  | surveyingProcesses chat => exact howe chat .processList rfl rfl fun _ _ heq => by cases heq
  | launching chat command =>
    simp only [Agent.advance]
    split_ifs with hfailed
    · exact (h.send chat (.sessionStart command)).finish htask (fun _ => hcareful hfailed)
        fun htrue => by cases htrue
    · exact howe chat (.sessionStart command) rfl rfl fun _ _ heq => by cases heq
  | recording chat sessionId =>
    have hstored : Coherent options
        { s with storage := s.storage.setProcessOwner sessionId chat } :=
      h.store (Storage.isAny_put_iff (Storage.apart_procOwnerKey sessionId))
    simp only [Agent.advance]
    split_ifs
    · exact hstored.goOn htask (fun _ => rfl) (fun htrue => by cases htrue)
        fun _ _ heq => by cases heq
    · exact hstored.goOn htask (fun _ => rfl) (fun htrue => by cases htrue)
        fun _ _ heq => by cases heq
  | polling chat sessionId =>
    exact howe chat (.sessionPoll sessionId) rfl rfl fun _ _ heq => by cases heq
  | listing chat => exact hgo rfl rfl fun _ _ heq => by cases heq
  | listed chat => exact (h.send chat .sessionList).leave htask rfl rfl
  | owning chat action sessionId input =>
    simp only [Agent.advance]
    split_ifs
    · exact h.leave htask rfl rfl
    · exact h.leave htask rfl rfl
    · exact hgo rfl rfl fun _ _ heq => by cases heq
  | acting chat action sessionId input =>
    have hsent := h.send (i := i) chat (action.command sessionId input)
    simp only [Agent.advance]
    split_ifs
    · exact hsent.leave htask rfl rfl
    · exact hsent.goOn htask (fun htrue => by cases htrue) (fun htrue => by cases htrue)
        fun _ _ heq => by cases heq
    · exact hsent.leave htask rfl rfl
  | disowning chat sessionId =>
    have hstored : Coherent options { s with storage := s.storage.removeProcessOwner sessionId } :=
      h.store ⟨Storage.isAny_of_delete, Storage.isAny_delete (Storage.apart_procOwnerKey sessionId)⟩
    exact hstored.leave htask rfl rfl
  | deElevating chat =>
    simp only [Agent.advance]
    split_ifs
    · exact hgo rfl rfl fun _ _ heq => by cases heq
    · exact h.leave htask rfl rfl
  | unmarking chat todo =>
    cases todo with
    | nil => exact hhold rfl rfl fun _ _ heq => by cases heq
    | cons field todo =>
      exact h.unmark htask rfl (fun _ => .inr (.inl rfl)) fun _ _ heq => by cases heq
  | surveying =>
    simp only [Agent.advance]
    split_ifs with helevated
    · exact h.finish htask (fun htrue => by cases htrue) fun _ _ => .inl helevated
    · exact hhold rfl rfl fun _ _ heq => by cases heq
  | cancelling =>
    refine h.next htask rfl rfl (fun helevated => .inr (.inr (hcareful helevated)))
      (fun _ => .inr (.inl ⟨_, rfl, rfl⟩)) fun _ _ heq => by cases heq
  | stopping => exact h.stop htask
  | teardown =>
    refine h.next htask rfl rfl (fun helevated => ?_) (fun hrunning => ?_) fun _ _ heq => by
      cases heq
    · rcases h.timedAt htask helevated with harmed | hself | howed
      · exact .inl harmed
      · cases hself
      · exact .inr (.inr howed)
    · obtain ⟨hfailed, hrun⟩ := Bool.and_eq_true_iff.mp hrunning
      exact (hcareful hfailed hrun).imp_right .inr
  | connecting chat =>
    simp only [Agent.advance]
    split_ifs
    · exact hgo rfl rfl fun _ _ heq => by cases heq
    · exact h.leave htask rfl rfl
  | greeting =>
    simp only [Agent.advance]
    split_ifs
    · exact h.leave htask rfl rfl
    · exact hgo rfl rfl fun _ _ heq => by cases heq
  | firing => exact h.executeScheduledCallback htask
  | gathering =>
    simp only [Agent.advance]
    split_ifs
    · exact hgo rfl rfl fun _ _ heq => by cases heq
    · exact hgo rfl rfl fun _ _ heq => by cases heq
    · exact hgo rfl rfl fun _ _ heq => by cases heq
  | inspecting =>
    simp only [Agent.advance]
    split_ifs
    · exact hgo rfl rfl fun _ _ heq => by cases heq
    · exact hgo rfl rfl fun _ _ heq => by cases heq
  | halting processes => cases processes <;> exact hgo rfl rfl fun _ _ heq => by cases heq
  | shutting =>
    refine (h.container fun htrue => .inl (Bool.and_eq_true_iff.mp htrue).2).goOn htask
      (fun htrue => ?_) (fun htrue => ?_) fun _ _ heq => by cases heq
    · cases htrue
    · cases htrue
  | expiring =>
    refine h.next htask rfl rfl (fun helevated => .inr (.inr (hcareful helevated)))
      (fun hrunning => ?_) fun _ _ heq => by cases heq
    rcases h.heldAt htask hrunning with helevated | hself | hheld
    · exact .inl helevated
    · cases hself
    · exact .inr (.inr hheld)

theorem Coherent.step (h : s.Coherent options) {label : Label}
    (hcareful : s.Careful options label) : (step options s label).Coherent options := by
  cases label with
  | elevate chat reason timeout => exact h.spawn fun _ _ heq => by cases heq
  | deElevate chat => exact h.spawn fun _ _ heq => by cases heq
  | use chat tool => exact h.spawn fun _ _ heq => by cases heq
  | connect chat => exact h.spawn fun _ _ heq => by cases heq
  | alarm now =>
    simp only [Agent.step, alarm]
    split_ifs
    · refine Coherent.spawn (h.reschedule fun harmed => ?_) fun _ _ heq => by cases heq
      exact harmed.updateRow ⟨fun _ => rfl, fun _ => rfl, fun _ => rfl⟩ fun _ => rfl
    · exact h
  | sync callback =>
    refine h.reschedule fun harmed => harmed.callbacks ?_
    exact ScheduleRuntime.mem_setKey.mpr (.inl rfl)
  | other id callback =>
    simp only [Agent.step]
    split_ifs with hid
    · exact h
    · cases callback with
      | some callback =>
        refine h.reschedule fun harmed => harmed.callbacks ?_
        exact ScheduleRuntime.mem_setKey.mpr (.inr harmed.2)
      | none =>
        refine h.reschedule fun harmed => harmed.callbacks ?_
        exact ScheduleRuntime.mem_deleteKey.mpr ⟨Ne.symm hid, harmed.2⟩
  | die => exact h.container fun htrue => by cases htrue
  | advance i answer =>
    cases htask : s.tasks i with
    | none =>
      simp only [Agent.step, htask]
      exact h
    | some task =>
      simp only [Agent.step, htask]
      exact h.advance htask (hcareful task htask)

theorem coherent_initial : ({} : Agent).Coherent options := by
  refine ⟨fun helevated => ?_, fun hrunning => ?_, fun _ _ _ ht => ?_, fun _ _ => rfl⟩
  · cases helevated
  · cases hrunning
  · cases ht

/-- No operation is in progress. -/
def Idle (s : Agent) : Prop := ∀ i, s.tasks i = none

/-- Commands are only sent for sessions found elevated; and in a run of careful steps, while no
operation is in progress, the timer of an elevated session is armed, and a container without an
elevated session has been stopped or has died. -/
theorem elevation_truthful (options : SandboxCapabilityOptions) (labels : List Label) :
    (∀ i chat command, (i, chat, command) ∈ (Run.run (step options) {} labels).sent →
      Marked options labels i chat) ∧
    (Run.Allowed (Careful options) (step options) {} labels → ∀ before after,
      labels = before ++ after → (Run.run (step options) {} before).Idle →
        ((Run.run (step options) {} before).Elevated →
          (Run.run (step options) {} before).schedules.Armed timerId) ∧
        (¬ (Run.run (step options) {} before).Elevated →
          (Run.run (step options) {} before).running = false)) := by
  refine ⟨fun i chat command hsent => marked_of_sent labels hsent,
    fun hallowed before after hsplit hidle => ?_⟩
  have hcoherent := Run.invariant_of_allowed (I := Coherent options) coherent_initial
    (fun s label hs hcareful => hs.step hcareful) hallowed before after hsplit
  constructor
  · intro helevated
    rcases hcoherent.timed helevated with harmed | ⟨j, t, ht, -⟩
    · exact harmed
    · cases (hidle j).symm.trans ht
  · intro hnone
    refine Bool.eq_false_iff.mpr fun hrunning => ?_
    rcases hcoherent.held hrunning with helevated | ⟨j, t, ht, -⟩
    · exact hnone helevated
    · cases (hidle j).symm.trans ht

theorem careful_advance (htask : s.tasks i = some task)
    (h : s.CarefulTask options i answer task) : s.Careful options (.advance i answer) := by
  intro task' htask'
  obtain rfl := Option.some.inj (htask.symm.trans htask')
  exact h

/-- A session is elevated and runs a command. -/
def execRun : List Label :=
  .sync 7 :: .elevate "a" "build" none :: (List.replicate 12 (.advance 0 {}) ++
    .use "a" (.exec "ls" false false) :: List.replicate 4 (.advance 1 {}))

theorem execRun_careful : Run.Allowed (Careful {}) (step {}) {} execRun := by
  refine Run.allowed_cons trivial <| Run.allowed_cons trivial <|
    Run.allowed_cons (careful_advance rfl trivial) <|
    Run.allowed_cons (careful_advance rfl trivial) <|
    Run.allowed_cons (careful_advance rfl trivial) <|
    Run.allowed_cons (careful_advance rfl fun hfailed => ?_) <|
    Run.allowed_cons (careful_advance rfl fun hfailed => ?_) <|
    Run.allowed_cons (careful_advance rfl trivial) <|
    Run.allowed_cons (careful_advance rfl trivial) <|
    Run.allowed_cons (careful_advance rfl fun hfailed => ?_) <|
    Run.allowed_cons (careful_advance rfl trivial) <|
    Run.allowed_cons (careful_advance rfl trivial) <|
    Run.allowed_cons (careful_advance rfl trivial) <|
    Run.allowed_cons (careful_advance rfl fun _ => .inl ⟨mem_cons_self, rfl⟩) <|
    Run.allowed_cons trivial <| Run.allowed_cons (careful_advance rfl trivial) <|
    Run.allowed_cons (careful_advance rfl trivial) <|
    Run.allowed_cons (careful_advance rfl fun hfailed => ?_) <|
    Run.allowed_cons (careful_advance rfl fun _ => .inl ⟨mem_cons_self, rfl⟩) <|
    Run.allowed_nil _ _ _
  all_goals cases hfailed

theorem elevation_truthful_exec :
    Marked {} execRun 1 "a" ∧ (Run.run (step {}) {} execRun).schedules.Armed timerId := by
  obtain ⟨hcommands, hbetween⟩ := elevation_truthful {} execRun
  refine ⟨hcommands 1 "a" (.exec "ls") (by decide), ?_⟩
  have helevated : (Run.run (step {}) {} execRun).storage.isAnySessionElevated = true := by decide
  refine (hbetween execRun_careful execRun [] (append_nil _).symm fun i => ?_).1 helevated
  rcases i with _ | _ | i <;> rfl

/-- A session is elevated, de-elevated and elevated again in one turn. -/
def againRun : List Label :=
  .sync 7 :: .elevate "a" "build" none :: (List.replicate 12 (.advance 0 {}) ++
    .deElevate "a" :: (List.replicate 8 (.advance 1 {}) ++
      .advance 2 {} :: .elevate "a" "test" none :: List.replicate 12 (.advance 3 {})))

/-- The callback of the timer is gone with the first de-elevation. -/
theorem again_unarmed : ¬ ∀ labels, (Run.run (step {}) {} labels).Idle →
    ((Run.run (step {}) {} labels).Elevated →
      (Run.run (step {}) {} labels).schedules.Armed timerId) ∧
    (¬ (Run.run (step {}) {} labels).Elevated → (Run.run (step {}) {} labels).running = false) := by
  intro h
  have hidle : (Run.run (step {}) {} againRun).Idle := by
    intro i
    rcases i with _ | _ | _ | _ | i <;> rfl
  have helevated : (Run.run (step {}) {} againRun).storage.isAnySessionElevated = true := by decide
  have hrow : (Run.run (step {}) {} againRun).schedules.store.get timerId = none := by decide
  obtain ⟨row, hget, -⟩ := ((h againRun hidle).1 helevated).1
  cases hrow.symm.trans hget

end CrabbyKit.Sandbox.Agent
