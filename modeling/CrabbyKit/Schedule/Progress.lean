import CrabbyKit.Schedule.AlarmRun

/-!
# Progress of a firing

When every due schedule is processed once, none stays due, a timer that its own callback
armed again stays, and the alarm is refreshed. Failing and re-armed timers and unguarded
failures are what stands against it.
-/

namespace CrabbyKit

open List Option

/-- The ids of the rows a call may write. -/
def ScheduleCall.touches (c : ScheduleCall) : List String :=
  match c.op with
  | .createSchedule config => [config.id]
  | .updateSchedule id _ => [id]
  | .deleteSchedule id => [id]
  | .setTimer id _ _ => [id]
  | .cancelTimer id => [id]
  | .syncCapabilitySchedules declarations => declarations.map fun d =>
    match d.1 with
    | .prompt config => config.id
    | .callback config => config.id
    | .timer config => config.id
  | .spineScheduleCreate config => [config.id.getD c.nanoid]
  | .spineScheduleUpdate id _ => [id]
  | .spineScheduleDelete id => [id]
  | .spineAlarmSet _ => []

namespace ScheduleRuntime

section Frame

variable {zones : Cron.Zones} {s : ScheduleRuntime} {id : String} {nanoid : String}
  {now : Instant}

theorem promptRow_id {config : PromptScheduleConfig} {ownerId : Option String}
    {enabled : Option Bool} {row : CreateConfig}
    (h : promptRow zones config ownerId enabled now = .ok row) : row.id = some config.id := by
  unfold promptRow at h
  obtain ⟨next, -, hexpiry⟩ := Cron.bind_ok h
  obtain ⟨expiresAt, -, hrow⟩ := Cron.bind_ok hexpiry
  cases hrow
  rfl

theorem callbackRow_id {config : CallbackScheduleConfig} {ownerId : String}
    {row : CreateConfig} (h : callbackRow zones config ownerId now = .ok row) :
    row.id = some config.id := by
  unfold callbackRow at h
  obtain ⟨next, -, hexpiry⟩ := Cron.bind_ok h
  obtain ⟨expiresAt, -, hrow⟩ := Cron.bind_ok hexpiry
  cases hrow
  rfl

variable {row : Except String CreateConfig}

theorem insert_get (hrow : ∀ config, row = .ok config → id ≠ config.id.getD nanoid) :
    (s.insert row nanoid now).1.store.get id = s.store.get id := by
  unfold insert
  cases row with
  | error e => rfl
  | ok config =>
    simp only
    cases hcreate : s.store.create config nanoid now with
    | error e => rfl
    | ok created =>
      rw [ScheduleStore.get_create hcreate, if_neg (hrow config rfl)]

variable {other : String}

theorem update_get (h : id ≠ other) (updates : ScheduleUpdates) :
    (s.store.update other updates now).1.get id = s.store.get id := by
  have hid : ∀ row, (ScheduleStore.applyUpdates updates now row).id = row.id :=
    ScheduleStore.applyUpdates_id updates
  cases hget : s.store.get other with
  | none => rw [ScheduleStore.update_of_none hget]
  | some row =>
    rw [ScheduleStore.update_of_some hget, ScheduleStore.get_updateRow hid]
    simp only [h, if_false, Option.map_id']

theorem syncRow_get {cron : String} {timezone : Option String} (h : id ≠ other)
    (hrow : ∀ config, row = .ok config → config.id = some other) :
    (s.syncRow zones other cron timezone row nanoid now).1.store.get id = s.store.get id := by
  unfold syncRow
  split
  · refine insert_get fun config hconfig => ?_
    rw [hrow config hconfig]
    exact h
  · split_ifs
    · rfl
    · split
      · rfl
      · exact update_get h _

theorem syncAll_get {declarations : List (ScheduleConfig × String)}
    (h : id ∉ (ScheduleCall.mk (.syncCapabilitySchedules declarations) nanoid now).touches) :
    (s.syncAll zones nanoid now declarations).1.store.get id = s.store.get id := by
  induction declarations generalizing s with
  | nil => rfl
  | cons declaration rest ih =>
    simp only [ScheduleCall.touches, map_cons, mem_cons, not_or] at h ih
    obtain ⟨hfirst, hrest⟩ := h
    have hone : (s.syncOne zones declaration nanoid now).1.store.get id = s.store.get id := by
      obtain ⟨config, ownerId⟩ := declaration
      cases config with
      | timer config => rfl
      | prompt config => exact syncRow_get hfirst fun _ => promptRow_id
      | callback config => exact syncRow_get hfirst fun _ => callbackRow_id
    unfold syncAll
    split
    · rename_i heq
      rw [heq] at hone
      exact hone
    · rename_i heq
      rw [heq] at hone
      exact (ih hrest).trans hone

theorem updateSchedule_get (hid : id ≠ other) (updates : ScheduleChanges)
    (now : Instant) (s : ScheduleRuntime) :
    (updateSchedule zones other updates now s).1.store.get id = s.store.get id := by
  unfold updateSchedule
  split_ifs
  · rfl
  · split
    · rfl
    · rename_i nextFireAt _
      have hupdate : (s.store.update other (rowUpdates updates nextFireAt) now).1.get id =
          s.store.get id := update_get hid _
      split
      · rename_i heq
        rw [heq] at hupdate
        exact hupdate
      · rename_i heq
        rw [heq] at hupdate
        exact hupdate

theorem setTimer_get (hid : id ≠ other) (delay : Option Int)
    (callback : Option Callback) (nanoid : String) (now : Instant) (s : ScheduleRuntime) :
    (setTimer other delay callback nanoid now s).1.store.get id = s.store.get id := by
  have hdelete : (s.store.delete other).get id = s.store.get id := by
    rw [ScheduleStore.get_delete, if_neg hid]
  unfold setTimer
  simp only
  split
  · exact hdelete
  · split
    · exact hdelete
    · rename_i delay
      have hinsert : (insert
          (.ok (timerRow { s with store := s.store.delete other } other (now + delay))) nanoid now
          { s with store := s.store.delete other }).1.store.get id = s.store.get id := by
        refine (insert_get fun row hrow => ?_).trans hdelete
        cases hrow
        exact hid
      split
      · rename_i heq
        rw [heq] at hinsert
        exact hinsert
      · rename_i heq
        rw [heq] at hinsert
        exact hinsert

theorem exec_get {c : ScheduleCall} (h : id ∉ c.touches) (s : ScheduleRuntime) :
    (exec zones c s).1.store.get id = s.store.get id := by
  obtain ⟨op, nanoid, now⟩ := c
  cases op with
  | createSchedule config =>
    have hid : id ≠ config.id := fun he => h (mem_singleton.mpr he)
    simp only [exec, createSchedule, thenRefresh_store]
    refine insert_get fun row hrow => ?_
    rw [promptRow_id hrow]
    exact hid
  | updateSchedule other updates =>
    exact updateSchedule_get (fun he => h (mem_singleton.mpr he)) updates now s
  | deleteSchedule other =>
    have hid : id ≠ other := fun he => h (mem_singleton.mpr he)
    simp only [exec, deleteSchedule]
    split_ifs
    · rfl
    · simp only [refreshAlarm, ScheduleStore.get_delete, hid, if_false]
  | setTimer other delay callback =>
    exact setTimer_get (fun he => h (mem_singleton.mpr he)) delay callback nanoid now s
  | cancelTimer other =>
    have hid : id ≠ other := fun he => h (mem_singleton.mpr he)
    simp only [exec, cancelTimer, refreshAlarm]
    split_ifs
    · rw [ScheduleStore.get_delete, if_neg hid]
    · rfl
  | syncCapabilitySchedules declarations =>
    simp only [exec, thenRefresh_store]
    exact syncAll_get h
  | spineScheduleCreate config =>
    have hid : id ≠ config.id.getD nanoid := fun he => h (mem_singleton.mpr he)
    refine insert_get fun row hrow => ?_
    cases hrow
    exact hid
  | spineScheduleUpdate other patch =>
    exact update_get (fun he => h (mem_singleton.mpr he)) patch
  | spineScheduleDelete other =>
    simp only [exec, spineScheduleDelete]
    rw [ScheduleStore.get_delete, if_neg (fun he => h (mem_singleton.mpr he))]
  | spineAlarmSet timestamp => rfl

end Frame

def NotDue (now : Instant) (id : String) (s : ScheduleRuntime) : Prop :=
  ∀ row, s.store.get id = some row → ScheduleStore.isDue now row = false

def Waits (now : Instant) (id : String) (s : ScheduleRuntime) : Prop :=
  ∃ row t, s.store.get id = some row ∧ row.enabled = true ∧ row.nextFireAt = some t ∧ now < t

/-- The schedule as a due timer's callback leaves it, and how the callback ends. -/
def callbackRun (zones : Cron.Zones) (w : Firing) (d : Schedule) (s : ScheduleRuntime) :
    ScheduleRuntime × Except String Unit :=
  executeScheduledCallback zones w d { s with store := s.store.markRunning d.id w.now }

def stateBefore (zones : Cron.Zones) (w : Firing) (before : List Schedule)
    (s : ScheduleRuntime) : ScheduleRuntime :=
  (fireAll zones w before s).runtime

/-- No call made for the given schedules touches an id. -/
def Apart (w : Firing) (id : String) (schedules : List Schedule) : Prop :=
  ∀ d ∈ schedules, ∀ c, w.Makes d c → id ∉ c.touches

/-- What a firing of the alarm is to achieve. -/
structure Handled (zones : Cron.Zones) (w : Firing) (s : ScheduleRuntime) : Prop where
  returned : (handleAlarmFired zones w s).thrown = none
  attempted : (handleAlarmFired zones w s).attempted =
    (s.store.getDueSchedules w.now).map Schedule.id
  once : (handleAlarmFired zones w s).attempted.Nodup
  settled : ∀ d ∈ s.store.getDueSchedules w.now,
    NotDue w.now d.id (handleAlarmFired zones w s).runtime
  rearmed : ∀ before d after, s.store.getDueSchedules w.now = before ++ d :: after →
    expired w d = false → d.handlerType = .timer →
    Waits w.now d.id (callbackRun zones w d (stateBefore zones w before s)).1 →
    Apart w d.id after → Waits w.now d.id (handleAlarmFired zones w s).runtime
  refreshed : (handleAlarmFired zones w s).runtime.wakeTime =
    (handleAlarmFired zones w s).runtime.store.getEarliestFireTime

/-- A due timer whose callback, if it returns, has not armed it again, and if it fails, has
moved it on. -/
structure TimerFits (zones : Cron.Zones) (w : Firing) (d : Schedule) (s : ScheduleRuntime) :
    Prop where
  returned : (callbackRun zones w d s).2 = .ok () → ¬ Waits w.now d.id (callbackRun zones w d s).1
  failed : ∀ e, (callbackRun zones w d s).2 = .error e →
    NotDue w.now d.id (callbackRun zones w d s).1

/-- No due schedule breaks the loop off, and every due timer fits. -/
structure Clean (zones : Cron.Zones) (w : Firing) (s : ScheduleRuntime) : Prop where
  unbroken : ∀ d ∈ s.store.getDueSchedules w.now, Unbroken zones w d
  timers : ∀ before d after, s.store.getDueSchedules w.now = before ++ d :: after →
    expired w d = false → d.handlerType = .timer →
    TimerFits zones w d (stateBefore zones w before s)

/-- No call made for a due schedule makes one that was processed before it due again, nor,
unless it is a timer, the schedule itself. -/
def Forward (zones : Cron.Zones) (w : Firing) (s : ScheduleRuntime) : Prop :=
  ∀ before d after, s.store.getDueSchedules w.now = before ++ d :: after →
    ∀ id, id ∈ before.map Schedule.id ∨ id = d.id ∧ d.handlerType ≠ .timer →
      ∀ c, w.Makes d c → ∀ s', NotDue w.now id s' → NotDue w.now id (exec zones c s').1

/-- No call made for a due schedule touches one that was processed before it. -/
def LaterApart (w : Firing) (s : ScheduleRuntime) : Prop :=
  ∀ before d after, s.store.getDueSchedules w.now = before ++ d :: after → Apart w d.id after

section Turn

variable {zones : Cron.Zones} {w : Firing} {s : ScheduleRuntime} {d : Schedule} {id : String}

theorem NotDue.status (h : NotDue w.now id s) {f : Schedule → Schedule} (hf : StatusOnly f)
    (other : String) : NotDue w.now id { s with store := s.store.updateRow other f } := by
  intro row hrow
  simp only [ScheduleStore.get_updateRow hf.id] at hrow
  obtain ⟨q, hq, rfl⟩ := map_eq_some_iff.mp hrow
  have hdue := h q hq
  split_ifs
  · unfold ScheduleStore.isDue
    rw [hf.enabled, hf.nextFireAt]
    exact hdue
  · exact hdue

theorem notDue_advance (d : Schedule) (s : ScheduleRuntime) {next : Instant}
    (hnext : w.now < next) : NotDue w.now d.id { s with
      store := (s.store.update d.id { nextFireAt := some (some next) } w.now).1 } := by
  intro row hrow
  cases hget : s.store.get d.id with
  | none =>
    rw [ScheduleStore.update_of_none hget, hget] at hrow
    cases hrow
  | some old =>
    have hid : ∀ row, (ScheduleStore.applyUpdates { nextFireAt := some (some next) } w.now
        row).id = row.id := ScheduleStore.applyUpdates_id _
    rw [ScheduleStore.update_of_some hget, ScheduleStore.get_updateRow hid, hget] at hrow
    simp only [map_some, if_true, Option.some.injEq] at hrow
    subst hrow
    have hlater : ¬ next ≤ w.now := not_le.mpr hnext
    simp [ScheduleStore.isDue, ScheduleStore.applyUpdates, hlater]

theorem notDue_drop (d : Schedule) (s : ScheduleRuntime) : NotDue w.now d.id (s.drop d.id) := by
  intro row hrow
  unfold drop at hrow
  rw [ScheduleStore.get_delete, if_pos rfl] at hrow
  cases hrow

theorem fireKeeps_notDue
    (hcalls : ∀ c, w.Makes d c → ∀ s, NotDue w.now id s → NotDue w.now id (exec zones c s).1) :
    FireKeeps zones w (NotDue w.now id) d where
  calls := hcalls
  status := fun s f hf h => h.status hf d.id
  advance := by
    intro s next hnext h
    by_cases hid : id = d.id
    · rw [hid]
      exact notDue_advance d s hnext
    · intro row hrow
      rw [update_get hid] at hrow
      exact h row hrow
  drop := by
    intro s h
    by_cases hid : id = d.id
    · rw [hid]
      exact notDue_drop d s
    · intro row hrow
      unfold ScheduleRuntime.drop at hrow
      rw [ScheduleStore.get_delete, if_neg hid] at hrow
      exact h row hrow
  callbacks := fun s entries h => h

theorem fireKeeps_get {row : Option Schedule} (hid : id ≠ d.id)
    (hcalls : ∀ c, w.Makes d c → id ∉ c.touches) :
    FireKeeps zones w (fun s => s.store.get id = row) d where
  calls := fun c hc s h => (exec_get (hcalls c hc) s).trans h
  status := by
    intro s f hf h
    simp only [ScheduleStore.get_updateRow hf.id, hid, if_false, Option.map_id']
    exact h
  advance := fun s next _ h => (update_get hid _).trans h
  drop := by
    intro s h
    unfold ScheduleRuntime.drop
    rw [ScheduleStore.get_delete, if_neg hid]
    exact h
  callbacks := fun s entries h => h

theorem get_markFailed {st : ScheduleStore} {row : Schedule} (h : st.get id = some row)
    (e : String) (now : Instant) : ∃ failed, (st.markFailed id e now).get id = some failed ∧
      failed.enabled = row.enabled ∧ failed.nextFireAt = row.nextFireAt := by
  let failed : Schedule :=
    { row with status := .failed, lastError := some e, updatedAt := datetimeNow now }
  have hread : (st.markFailed id e now).get id = some failed := by
    unfold ScheduleStore.markFailed
    refine (ScheduleStore.get_updateRow ?_ id).trans ?_
    · intro s
      rfl
    · simp only [h, map_some, if_true, failed]
  exact ⟨failed, hread, rfl, rfl⟩

theorem fireTimer_returned (h : (callbackRun zones w d s).2 = .ok ()) :
    fireTimer zones w d s = (callbackRun zones w d s).1.drop d.id := by
  unfold fireTimer
  unfold callbackRun at h ⊢
  simp only
  split
  · rename_i heq
    rw [heq]
  · rename_i heq
    rw [heq] at h
    cases h

theorem fireTimer_failed {e : String} (h : (callbackRun zones w d s).2 = .error e) :
    fireTimer zones w d s = { (callbackRun zones w d s).1 with
      store := (callbackRun zones w d s).1.store.markFailed d.id e w.now } := by
  unfold fireTimer
  unfold callbackRun at h ⊢
  simp only
  split
  · rename_i heq
    rw [heq] at h
    cases h
  · rename_i heq
    rw [heq] at h ⊢
    cases h
    rfl

theorem TimerFits.notDue (h : TimerFits zones w d s) :
    NotDue w.now d.id (fireTimer zones w d s) := by
  cases hrun : (callbackRun zones w d s).2 with
  | ok _ =>
    rw [fireTimer_returned hrun]
    exact notDue_drop d _
  | error e =>
    rw [fireTimer_failed hrun]
    refine NotDue.status (h.failed e hrun) ?_ d.id
    exact ⟨fun _ => rfl, fun _ => rfl, fun _ => rfl⟩

theorem notDue_fireOne (hunbroken : Unbroken zones w d)
    (htimer : expired w d = false → d.handlerType = .timer → TimerFits zones w d s)
    (hcalls : d.handlerType ≠ .timer → ∀ c, w.Makes d c → ∀ s, NotDue w.now d.id s →
      NotDue w.now d.id (exec zones c s).1) : NotDue w.now d.id (fireOne zones w d s).1 := by
  by_cases hexpired : expired w d = true
  · rw [fireOne_expired hexpired]
    exact notDue_drop d s
  · rw [Bool.not_eq_true] at hexpired
    by_cases hkind : d.handlerType = .timer
    · rw [fireOne_timer hexpired hkind]
      exact (htimer hexpired hkind).notDue
    · rw [fireOne_recurring hexpired hkind]
      rcases hunbroken with h | h | ⟨⟨next, hnext⟩, -⟩
      · rw [hexpired] at h
        cases h
      · exact absurd h hkind
      · exact (fireKeeps_notDue (hcalls hkind)).fireRecurring_from hnext
          (notDue_advance d s (Cron.nextFireTime_gt hnext))

end Turn

section Firing

variable {zones : Cron.Zones} {w : Firing} {s : ScheduleRuntime}

theorem handleAlarmFired_of_thrown
    (h : (fireAll zones w (s.store.getDueSchedules w.now) s).thrown = none) :
    handleAlarmFired zones w s = { fireAll zones w (s.store.getDueSchedules w.now) s with
      runtime := (fireAll zones w (s.store.getDueSchedules w.now) s).runtime.refreshAlarm } := by
  unfold handleAlarmFired
  simp only [h]

theorem handleAlarmFired_attempted : (handleAlarmFired zones w s).attempted =
    (fireAll zones w (s.store.getDueSchedules w.now) s).attempted := by
  unfold handleAlarmFired
  simp only
  split
  · rfl
  · rfl

variable {before after : List Schedule} {d : Schedule}

theorem fireAll_split (hbefore : ∀ d ∈ before, Unbroken zones w d) (hd : Unbroken zones w d) :
    (fireAll zones w (before ++ d :: after) s).runtime =
      (fireAll zones w after (fireOne zones w d (stateBefore zones w before s)).1).runtime := by
  have hthrown : (fireOne zones w d (stateBefore zones w before s)).2 = none :=
    (fireOne_thrown _).mpr hd
  rw [fireAll_append ((fireAll_thrown before s).1.mpr hbefore)]
  exact (fireAll_cons (Prod.ext rfl hthrown)).1

theorem later_split {due : List Schedule} {d' : Schedule}
    (hsplit : due = before ++ d :: after) (hd' : d' ∈ after) :
    ∃ between rest, due = (before ++ d :: between) ++ d' :: rest ∧
      after = between ++ d' :: rest := by
  obtain ⟨between, rest, rfl⟩ := append_of_mem hd'
  refine ⟨between, rest, ?_, rfl⟩
  rw [hsplit]
  simp

theorem ne_of_later (hkeyed : s.store.Keyed) {d' : Schedule}
    (hsplit : s.store.getDueSchedules w.now = before ++ d :: after) (hd' : d' ∈ after) :
    d.id ≠ d'.id := by
  have hnodup := hkeyed.due_nodup w.now
  rw [hsplit, map_append, map_cons] at hnodup
  have hcons := (nodup_append.mp hnodup).2.1
  intro heq
  exact (nodup_cons.mp hcons).1 (heq ▸ mem_map_of_mem hd')

theorem get_after (hkeyed : s.store.Keyed)
    (hsplit : s.store.getDueSchedules w.now = before ++ d :: after)
    (hunbroken : ∀ d ∈ s.store.getDueSchedules w.now, Unbroken zones w d)
    (hapart : Apart w d.id after) :
    (handleAlarmFired zones w s).runtime.store.get d.id =
      (fireOne zones w d (stateBefore zones w before s)).1.store.get d.id := by
  have hthrown := (fireAll_thrown (s.store.getDueSchedules w.now) s).1.mpr hunbroken
  have hbefore : ∀ d ∈ before, Unbroken zones w d := by
    intro d' hd'
    apply hunbroken
    rw [hsplit]
    exact mem_append_left _ hd'
  have hd : Unbroken zones w d := by
    apply hunbroken
    rw [hsplit]
    exact mem_append_right _ mem_cons_self
  have hkeeps : ∀ d' ∈ after, FireKeeps zones w (fun s' => s'.store.get d.id =
      (fireOne zones w d (stateBefore zones w before s)).1.store.get d.id) d' := fun d' hd' =>
    fireKeeps_get (ne_of_later hkeyed hsplit hd') (hapart d' hd')
  have hafter := fireAll_keeps hkeeps rfl
  rw [handleAlarmFired_of_thrown hthrown]
  simp only [refreshAlarm, hsplit]
  rw [fireAll_split hbefore hd]
  exact hafter

theorem waits_fireTimer {e : String} (hrun : (callbackRun zones w d s).2 = .error e)
    (h : Waits w.now d.id (callbackRun zones w d s).1) :
    Waits w.now d.id (fireTimer zones w d s) := by
  obtain ⟨row, t, hrow, henabled, hnext, hlater⟩ := h
  obtain ⟨failed, hfailed, hsame, hsameTime⟩ := get_markFailed hrow e w.now
  rw [fireTimer_failed hrun]
  exact ⟨failed, t, hfailed, hsame.trans henabled, hsameTime.trans hnext, hlater⟩

theorem Clean.handled (h : Clean zones w s) (hkeyed : s.store.Keyed)
    (hforward : Forward zones w s) : Handled zones w s := by
  have hthrown : (fireAll zones w (s.store.getDueSchedules w.now) s).thrown = none :=
    (fireAll_thrown _ s).1.mpr h.unbroken
  have hfields := handleAlarmFired_of_thrown hthrown
  have hattempted : (handleAlarmFired zones w s).attempted =
      (s.store.getDueSchedules w.now).map Schedule.id := by
    rw [handleAlarmFired_attempted]
    exact (fireAll_thrown _ s).2.mpr h.unbroken
  refine ⟨?_, hattempted, ?_, ?_, ?_, ?_⟩
  · rw [hfields]
    exact hthrown
  · rw [hattempted]
    exact hkeyed.due_nodup w.now
  · intro d hd
    obtain ⟨before, after, hsplit⟩ := append_of_mem hd
    have hbefore : ∀ d ∈ before, Unbroken zones w d := fun d' hd' =>
      h.unbroken d' (hsplit ▸ mem_append_left _ hd')
    have hown := notDue_fireOne (h.unbroken d hd) (h.timers before d after hsplit)
      fun hkind => hforward before d after hsplit d.id (Or.inr ⟨rfl, hkind⟩)
    have hlater : ∀ d' ∈ after, FireKeeps zones w (NotDue w.now d.id) d' := by
      intro d' hd'
      obtain ⟨between, rest, hsplit', -⟩ := later_split hsplit hd'
      refine fireKeeps_notDue (hforward _ d' rest hsplit' d.id (Or.inl ?_))
      simp
    have hend := fireAll_keeps hlater hown
    rw [← fireAll_split hbefore (h.unbroken d hd), ← hsplit] at hend
    rw [hfields]
    exact hend
  · intro before d after hsplit hexpired hkind hwaits hapart
    have hget := get_after hkeyed hsplit h.unbroken hapart
    rw [fireOne_timer hexpired hkind] at hget
    have hfit := h.timers before d after hsplit hexpired hkind
    cases hrun : (callbackRun zones w d (stateBefore zones w before s)).2 with
    | ok _ => exact absurd hwaits (hfit.returned hrun)
    | error e =>
      obtain ⟨row, t, hrow, hwait⟩ := waits_fireTimer hrun hwaits
      exact ⟨row, t, hget.trans hrow, hwait⟩
  · rw [hfields]
    rfl

theorem Handled.unbroken (h : Handled zones w s) :
    ∀ d ∈ s.store.getDueSchedules w.now, Unbroken zones w d :=
  (fireAll_thrown (s.store.getDueSchedules w.now) s).2.mp
    (handleAlarmFired_attempted.symm.trans h.attempted)

theorem Handled.clean (h : Handled zones w s) (hkeyed : s.store.Keyed)
    (hapart : LaterApart w s) : Clean zones w s := by
  have hunbroken := h.unbroken
  refine ⟨hunbroken, fun before d after hsplit hexpired hkind => ⟨?_, ?_⟩⟩
  · intro hrun hwaits
    have hget := get_after hkeyed hsplit hunbroken (hapart before d after hsplit)
    rw [fireOne_timer hexpired hkind, fireTimer_returned hrun, drop, ScheduleStore.get_delete,
      if_pos rfl] at hget
    obtain ⟨row, t, hrow, -⟩ :=
      h.rearmed before d after hsplit hexpired hkind hwaits (hapart before d after hsplit)
    rw [hget] at hrow
    cases hrow
  · intro e hrun row hrow
    have hget := get_after hkeyed hsplit hunbroken (hapart before d after hsplit)
    obtain ⟨failed, hfailed, hsame, hsameTime⟩ := get_markFailed hrow e w.now
    have hd : d ∈ s.store.getDueSchedules w.now := by
      rw [hsplit]
      exact mem_append_right _ mem_cons_self
    rw [fireOne_timer hexpired hkind, fireTimer_failed hrun] at hget
    have hsettled := h.settled d hd failed (hget.trans hfailed)
    unfold ScheduleStore.isDue at hsettled ⊢
    rw [← hsame, ← hsameTime]
    exact hsettled

/-- A timer due after a minute. -/
def teaTimer : Schedule :=
  ScheduleStore.newSchedule
    { name := "tea", cron := timerDummyCron, handlerType := .timer, nextFireAt := some 60000 }
    "tea" 0

def minutePrompt : Schedule :=
  ScheduleStore.newSchedule
    { name := "minute", cron := "* * * * *", handlerType := .prompt, prompt := some "hi",
      nextFireAt := some 60000 }
    "minute" 0

/-- A timer and a prompt. -/
def teaRuntime : ScheduleRuntime where
  store := { rows := [minutePrompt, teaTimer] }
  callbacks := [("tea", 1)]

def failingFiring : Firing where
  now := 60000
  runCallback := fun _ _ => ⟨[], .error "no tea"⟩

/-- A firing in which the callback of the timer arms it again. -/
def rearmingFiring : Firing where
  now := 60000
  runCallback := fun _ _ => ⟨[⟨.setTimer "tea" (some 60000) none, "n", 60000⟩], .ok ()⟩

def hookedFiring : Firing where
  now := 60000
  onScheduleFire := some fun _ => ⟨[], .error "no hook"⟩

end Firing

end ScheduleRuntime

end CrabbyKit
