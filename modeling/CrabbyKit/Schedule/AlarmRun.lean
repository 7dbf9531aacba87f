import CrabbyKit.Schedule.Firing

/-!
# The alarm along runs of schedule operations

Calls, firings of the alarm and restarts of the runtime, in any order. The agreement of
the alarm with the table is the invariant; a call that writes rows without a refresh keeps
it when the write is unfelt.
-/

namespace CrabbyKit

open List Option

/-- What may happen to the schedules. A restart loses what only memory holds. -/
inductive ScheduleEvent
  | call (c : ScheduleCall)
  | alarmFired (w : Firing)
  | restart

namespace ScheduleRuntime

/-- The state after an event. The platform's alarm is spent when it fires. -/
def step (zones : Cron.Zones) (s : ScheduleRuntime) : ScheduleEvent → ScheduleRuntime
  | .call c => (exec zones c s).1
  | .alarmFired w => (handleAlarmFired zones w { s with wakeTime := none }).runtime
  | .restart => { s with callbacks := [], timerOwners := [] }

/-- The wake time is the least fire time of the enabled schedules, and it is absent exactly
when no schedule is enabled. -/
structure AlarmAgrees (s : ScheduleRuntime) : Prop where
  least : ∀ t, s.wakeTime = some t →
    IsLeast { u | ∃ row ∈ s.store.rows, row.enabled = true ∧ row.nextFireAt = some u } t
  absent : s.wakeTime = none ↔ ∀ row ∈ s.store.rows, row.enabled = false

/-- An expression with a next fire time, and a duration that parses. -/
def Computable (zones : Cron.Zones) (now : Instant) (cron : String)
    (timezone maxDuration : Option String) : Prop :=
  (∃ next, Cron.nextFireTime zones cron now timezone = .ok next) ∧
    ∃ expiresAt, expiry maxDuration now = .ok expiresAt

/-- A declared schedule whose times can be computed. -/
def Resolvable (zones : Cron.Zones) (now : Instant) : ScheduleConfig → Prop
  | .timer _ => True
  | .prompt config => Computable zones now config.cron config.timezone config.maxDuration
  | .callback config => Computable zones now config.cron config.timezone config.maxDuration

/-- A call that ends in a refresh or writes nothing that is felt: a timer is armed with a
callback and a fire time, declared schedules can be evaluated, and the spine's calls, which
refresh nothing, write unfelt rows or the wake time that is set already. -/
def Covered (zones : Cron.Zones) (c : ScheduleCall) (s : ScheduleRuntime) : Prop :=
  match c.op with
  | .setTimer id delay callback =>
    ((callback.or (s.callbacks.lookup id)).isSome = true ∧ delay.isSome = true) ∨
      s.store.Unfelt id none
  | .syncCapabilitySchedules declarations =>
    ∀ d ∈ declarations, Resolvable zones c.now d.1
  | .spineScheduleCreate config =>
    (s.store.get (config.id.getD c.nanoid)).isSome = true ∨
      s.store.Unfelt (config.id.getD c.nanoid)
        (if config.enabled = some false then none else config.nextFireAt)
  | .spineScheduleUpdate id patch =>
    ∀ row, s.store.get id = some row → s.store.Unfelt id
      (if patch.enabled.getD row.enabled then patch.nextFireAt.getD row.nextFireAt else none)
  | .spineScheduleDelete id => s.store.Unfelt id none
  | .spineAlarmSet timestamp => s.wakeTime = some timestamp
  | _ => True

/-- An event after which the alarm still agrees: a covered call with fire times, or a
firing that no due schedule breaks off and during which only calls with fire times are
made. -/
def EventCovered (zones : Cron.Zones) (s : ScheduleRuntime) : ScheduleEvent → Prop
  | .call c => TimedCall c ∧ Covered zones c s
  | .alarmFired w => (∀ d c, w.Makes d c → TimedCall c) ∧
      ∀ d ∈ s.store.getDueSchedules w.now, Unbroken zones w d
  | .restart => True

/-- The invariant of covered runs. -/
structure Settled (s : ScheduleRuntime) : Prop where
  sound : s.store.Sound
  wake : s.wakeTime = s.store.getEarliestFireTime

variable {zones : Cron.Zones} {s : ScheduleRuntime}

theorem Settled.agrees (h : s.Settled) : AlarmAgrees s := by
  have hfire : ∀ row : Schedule, ∀ u, ScheduleStore.fireTime row = some u ↔
      row.enabled = true ∧ row.nextFireAt = some u := by
    intro row u
    unfold ScheduleStore.fireTime
    cases row.enabled with
    | true => simp
    | false => simp
  constructor
  · intro t ht
    rw [h.wake, ScheduleStore.getEarliestFireTime, min?_eq_some_iff] at ht
    obtain ⟨hmem, hle⟩ := ht
    constructor
    · obtain ⟨row, hrow, hu⟩ := mem_filterMap.mp hmem
      exact ⟨row, hrow, (hfire row t).mp hu⟩
    · rintro u ⟨row, hrow, henabled⟩
      exact hle u (mem_filterMap.mpr ⟨row, hrow, (hfire row u).mpr henabled⟩)
  · rw [h.wake, ScheduleStore.getEarliestFireTime, min?_eq_none_iff, filterMap_eq_nil_iff]
    constructor
    · intro hnone row hrow
      by_contra henabled
      obtain ⟨u, hu⟩ := ne_none_iff_exists'.mp (h.sound.timed row hrow)
      have hsome := (hfire row u).mpr ⟨by simpa using henabled, hu⟩
      rw [hnone row hrow] at hsome
      cases hsome
    · intro hdisabled row hrow
      unfold ScheduleStore.fireTime
      rw [hdisabled row hrow]
      rfl

theorem settled_refresh (h : s.store.Sound) : s.refreshAlarm.Settled := ⟨h, rfl⟩

variable {id : String}

theorem Settled.unfelt (h : s.Settled) {st' : ScheduleStore} (h' : st'.Sound)
    {next : Option Instant} (hu : s.store.Unfelt id next)
    (hnext : (st'.get id).bind ScheduleStore.fireTime = next)
    (hother : ∀ row, row.id ≠ id → (row ∈ st'.rows ↔ row ∈ s.store.rows)) :
    Settled { s with store := st' } :=
  ⟨h', h.wake.trans (h.sound.earliest_of_unfelt h' hu hnext hother).symm⟩

theorem Settled.delete (h : s.Settled) (hu : s.store.Unfelt id none) :
    Settled { s with store := s.store.delete id } := by
  have hnone : ((s.store.delete id).get id).bind ScheduleStore.fireTime = none := by
    rw [ScheduleStore.get_delete, if_pos rfl, bind_none]
  exact h.unfelt (h.sound.delete id) hu hnone fun row hid => ScheduleStore.mem_delete_of_ne hid

theorem Settled.insertRefresh (h : s.Settled) {row : Except String CreateConfig}
    (hrow : ∀ config, row = .ok config → config.nextFireAt ≠ none) (nanoid : String)
    (now : Instant) : (thenRefresh (s.insert row nanoid now)).1.Settled := by
  have hsound : (s.insert row nanoid now).1.store.Sound :=
    insert_keeps ScheduleStore.keeps_sound h.sound hrow
  unfold insert at hsound ⊢
  cases row with
  | error e => exact h
  | ok config =>
    simp only at hsound ⊢
    cases hcreate : s.store.create config nanoid now with
    | error e => exact h
    | ok created =>
      rw [hcreate] at hsound
      exact settled_refresh hsound

theorem Settled.updateSchedule (h : s.Settled) (id : String) (updates : ScheduleChanges)
    (now : Instant) : (s.updateSchedule zones id updates now).1.Settled := by
  have hsound : (s.updateSchedule zones id updates now).1.store.Sound :=
    updateSchedule_keeps ScheduleStore.keeps_sound h.sound id updates
  unfold ScheduleRuntime.updateSchedule at hsound ⊢
  split_ifs at hsound ⊢
  · exact h
  · cases hnext : recomputed zones updates (s.store.get id) now with
    | error e => exact h
    | ok nextFireAt =>
      rw [hnext] at hsound
      simp only at hsound ⊢
      cases hget : s.store.get id with
      | none =>
        rw [ScheduleStore.update_of_none hget]
        exact h
      | some row =>
        rw [ScheduleStore.update_of_some hget] at hsound ⊢
        exact settled_refresh hsound

theorem Settled.deleteSchedule (h : s.Settled) (id : String) : (s.deleteSchedule id).1.Settled := by
  unfold ScheduleRuntime.deleteSchedule
  split_ifs
  · exact h
  · exact settled_refresh (h.sound.delete id)

theorem Settled.cancelTimer (h : s.Settled) (id : String) : (s.cancelTimer id).1.Settled := by
  unfold ScheduleRuntime.cancelTimer
  simp only
  split_ifs
  · exact settled_refresh (h.sound.delete id)
  · exact settled_refresh h.sound

theorem Settled.setTimer (h : s.Settled) {delay : Option Int} {callback : Option Callback}
    (hc : ((callback.or (s.callbacks.lookup id)).isSome = true ∧ delay.isSome = true) ∨
      s.store.Unfelt id none) (nanoid : String) (now : Instant) :
    (s.setTimer id delay callback nanoid now).1.Settled := by
  have hsound : (s.setTimer id delay callback nanoid now).1.store.Sound :=
    setTimer_keeps ScheduleStore.keeps_sound h.sound id delay callback
  unfold ScheduleRuntime.setTimer at hsound ⊢
  simp only at hsound ⊢
  cases hresolved : callback.or (s.callbacks.lookup id) with
  | none =>
    rw [hresolved] at hc
    rcases hc with ⟨hsome, -⟩ | hu
    · cases hsome
    · exact h.delete hu
  | some resolved =>
    rw [hresolved] at hsound
    cases delay with
    | none =>
      rcases hc with ⟨-, hsome⟩ | hu
      · cases hsome
      · exact h.delete hu
    | some delay =>
      simp only at hsound ⊢
      unfold insert at hsound ⊢
      simp only at hsound ⊢
      cases hcreate : (s.store.delete id).create
          (timerRow { s with store := s.store.delete id } id (now + delay)) nanoid now with
      | error e =>
        have hgone : (s.store.delete id).get id = none := by
          rw [ScheduleStore.get_delete, if_pos rfl]
        unfold ScheduleStore.create timerRow at hcreate
        simp only [getD_some, hgone] at hcreate
        cases hcreate
      | ok created =>
        rw [hcreate] at hsound
        exact settled_refresh hsound

variable {nanoid : String} {now : Instant}

theorem syncOne_thrown {declaration : ScheduleConfig × String}
    (h : Resolvable zones now declaration.1) :
    (s.syncOne zones declaration nanoid now).2 = none := by
  have hsync : ∀ (s : ScheduleRuntime) (id cron : String) (timezone : Option String)
      (config : CreateConfig), config.id = some id →
      (∃ next, Cron.nextFireTime zones cron now timezone = .ok next) →
      (s.syncRow zones id cron timezone (.ok config) nanoid now).2 = none := by
    rintro s id cron timezone config hid ⟨next, hnext⟩
    unfold syncRow
    cases hget : s.store.get id with
    | none =>
      unfold insert ScheduleStore.create
      simp only [hid, getD_some, hget]
      rfl
    | some existing =>
      simp only [hnext]
      split_ifs
      · rfl
      · rfl
  obtain ⟨config, ownerId⟩ := declaration
  cases config with
  | timer config => rfl
  | prompt config =>
    obtain ⟨⟨next, hnext⟩, expiresAt, hexpiry⟩ := h
    unfold syncOne promptRow
    simp only [hnext, hexpiry]
    exact hsync s config.id config.cron config.timezone _ rfl ⟨next, hnext⟩
  | callback config =>
    obtain ⟨⟨next, hnext⟩, expiresAt, hexpiry⟩ := h
    unfold syncOne callbackRow
    simp only [hnext, hexpiry]
    exact hsync _ config.id config.cron config.timezone _ rfl ⟨next, hnext⟩

variable {declarations : List (ScheduleConfig × String)}

theorem syncAll_thrown (h : ∀ d ∈ declarations, Resolvable zones now d.1) :
    (s.syncAll zones nanoid now declarations).2 = none := by
  induction declarations generalizing s with
  | nil => rfl
  | cons declaration rest ih =>
    have hone : (s.syncOne zones declaration nanoid now).2 = none :=
      syncOne_thrown (h declaration mem_cons_self)
    have hrest : ∀ d ∈ rest, Resolvable zones now d.1 := fun d hd =>
      h d (mem_cons_of_mem declaration hd)
    unfold syncAll
    split
    · rename_i heq
      rw [heq] at hone
      cases hone
    · exact ih hrest

theorem Settled.sync (h : s.Settled) (hr : ∀ d ∈ declarations, Resolvable zones now d.1) :
    (thenRefresh (s.syncAll zones nanoid now declarations)).1.Settled := by
  have hsound : (s.syncAll zones nanoid now declarations).1.store.Sound :=
    syncAll_keeps ScheduleStore.keeps_sound h.sound declarations
  have hthrown : (s.syncAll zones nanoid now declarations).2 = none := syncAll_thrown hr
  unfold thenRefresh
  split
  · rename_i heq
    rw [heq] at hsound
    exact settled_refresh hsound
  · rename_i heq
    rw [heq] at hthrown
    cases hthrown

theorem Settled.spineScheduleCreate (h : s.Settled) {config : CreateConfig}
    (ht : config.nextFireAt ≠ none)
    (hc : (s.store.get (config.id.getD nanoid)).isSome = true ∨
      s.store.Unfelt (config.id.getD nanoid)
        (if config.enabled = some false then none else config.nextFireAt)) (now : Instant) :
    (s.spineScheduleCreate config nanoid now).1.Settled := by
  unfold ScheduleRuntime.spineScheduleCreate insert
  simp only
  cases hcreate : s.store.create config nanoid now with
  | error e => exact h
  | ok created =>
    obtain ⟨store, row⟩ := created
    obtain ⟨hnone, hrow, -⟩ := ScheduleStore.create_ok hcreate
    rcases hc with hsome | hu
    · rw [hnone] at hsome
      cases hsome
    · refine h.unfelt (h.sound.create ht hcreate) hu ?_ fun q hq =>
        ScheduleStore.mem_create_of_ne hcreate hq
      rw [ScheduleStore.get_create hcreate, if_pos rfl, bind_some, hrow]
      unfold ScheduleStore.fireTime ScheduleStore.newSchedule
      by_cases hdisabled : config.enabled = some false
      · simp [hdisabled]
      · simp [hdisabled]

theorem Settled.spineScheduleUpdate (h : s.Settled) {patch : ScheduleUpdates}
    (ht : patch.nextFireAt ≠ some none)
    (hc : ∀ row, s.store.get id = some row → s.store.Unfelt id
      (if patch.enabled.getD row.enabled then patch.nextFireAt.getD row.nextFireAt else none))
    (now : Instant) : (s.spineScheduleUpdate id patch now).1.Settled := by
  have hsound : (s.store.update id patch now).1.Sound := h.sound.update ht
  have hid : ∀ row, (ScheduleStore.applyUpdates patch now row).id = row.id :=
    ScheduleStore.applyUpdates_id patch
  unfold ScheduleRuntime.spineScheduleUpdate
  cases hget : s.store.get id with
  | none =>
    rw [ScheduleStore.update_of_none hget]
    exact h
  | some row =>
    rw [ScheduleStore.update_of_some hget] at hsound ⊢
    refine h.unfelt hsound (hc row hget) ?_ fun q hq => ScheduleStore.mem_updateRow_of_ne hid hq
    rw [ScheduleStore.get_updateRow hid, hget, map_some, if_pos rfl, bind_some]
    rfl

theorem Settled.exec (h : s.Settled) {c : ScheduleCall} (ht : TimedCall c)
    (hc : Covered zones c s) : (exec zones c s).1.Settled := by
  obtain ⟨op, nanoid, now⟩ := c
  cases op with
  | createSchedule config => exact h.insertRefresh (fun _ => promptRow_timed) nanoid now
  | updateSchedule id updates => exact h.updateSchedule id updates now
  | deleteSchedule id => exact h.deleteSchedule id
  | setTimer id delay callback => exact h.setTimer hc nanoid now
  | cancelTimer id => exact h.cancelTimer id
  | syncCapabilitySchedules declarations => exact h.sync hc
  | spineScheduleCreate config => exact h.spineScheduleCreate ht hc now
  | spineScheduleUpdate id patch => exact h.spineScheduleUpdate ht hc now
  | spineScheduleDelete id => exact h.delete hc
  | spineAlarmSet timestamp => exact ⟨h.sound, hc.symm.trans h.wake⟩

theorem fireKeeps_sound {w : Firing} (hw : ∀ d c, w.Makes d c → TimedCall c) (d : Schedule) :
    FireKeeps zones w (fun s => s.store.Sound) d where
  calls := fun c hc s h => exec_sound h (hw d c hc)
  status := by
    intro s f hf h
    refine h.updateRow hf.id fun row hrow => ?_
    rw [hf.nextFireAt row]
    exact hrow
  advance := by
    intro s next _ h
    exact h.update (some_ne_none _ ∘ fun he => Option.some.inj he)
  drop := fun s h => h.delete d.id
  callbacks := fun s entries h => h

theorem Settled.alarmFired (h : s.store.Sound) {w : Firing} (hw : ∀ d c, w.Makes d c → TimedCall c)
    (hu : ∀ d ∈ s.store.getDueSchedules w.now, Unbroken zones w d) :
    (handleAlarmFired zones w s).runtime.Settled := by
  have hsound : (fireAll zones w (s.store.getDueSchedules w.now) s).runtime.store.Sound :=
    fireAll_keeps (P := fun s => s.store.Sound) (fun d _ => fireKeeps_sound hw d) h
  have hthrown := (fireAll_thrown (s.store.getDueSchedules w.now) s).1.mpr hu
  unfold handleAlarmFired
  simp only [hthrown]
  exact settled_refresh hsound

theorem Settled.step (h : s.Settled) {e : ScheduleEvent} (he : EventCovered zones s e) :
    (step zones s e).Settled := by
  cases e with
  | call c => exact h.exec he.1 he.2
  | alarmFired w =>
    obtain ⟨hw, hu⟩ := he
    exact Settled.alarmFired (s := { s with wakeTime := none }) h.sound hw hu
  | restart => exact ⟨h.sound, h.wake⟩

/-- In every run whose events are all covered the alarm agrees with the table after every
event. -/
theorem alarmAgrees_run {events : List ScheduleEvent}
    (h : Run.Allowed (EventCovered zones) (step zones) {} events) :
    ∀ before after, events = before ++ after → AlarmAgrees (Run.run (step zones) {} before) := by
  intro before after hsplit
  have hstart : Settled {} := ⟨ScheduleStore.sound_empty, rfl⟩
  have hstep : ∀ s e, Settled s → EventCovered zones s e → Settled (step zones s e) :=
    fun s e hs he => hs.step he
  exact (Run.invariant_of_allowed hstart hstep h before after hsplit).agrees

/-- A world without time zones. -/
def noZones : Cron.Zones := fun _ => none

def morningEvents : List ScheduleEvent :=
  [.call ⟨.createSchedule
      { id := "morning", name := "morning", cron := "0 9 * * *", prompt := "hi" }, "n", 0⟩,
    .call ⟨.setTimer "tea" (some 60000) (some 1), "n", 1000⟩,
    .alarmFired { now := 61000 }]

theorem morningEvents_covered :
    Run.Allowed (EventCovered noZones) (step noZones) {} morningEvents := by
  refine Run.allowed_cons ⟨trivial, trivial⟩ (Run.allowed_cons ⟨trivial, Or.inl ⟨rfl, rfl⟩⟩
    (Run.allowed_cons ⟨fun d c hc => ?_, fun d hd => ?_⟩ (Run.allowed_nil _ _ _)))
  · exact absurd hc (Firing.not_makes_quiet 61000 d c)
  · have hdue :
        ∀ d ∈ (Run.run (step noZones) {} (morningEvents.take 2)).store.getDueSchedules 61000,
        d.handlerType = .timer := by decide
    exact Or.inr (Or.inl (hdue d hd))

/-- After them the alarm agrees with the table. -/
theorem alarmAgrees_run_morning : AlarmAgrees (Run.run (step noZones) {} morningEvents) :=
  alarmAgrees_run morningEvents_covered morningEvents [] (append_nil _).symm

/-- A schedule that a bundle creates has no alarm. -/
theorem spineScheduleCreate_unalarmed :
    (Run.run (step noZones) {} [.call ⟨.spineScheduleCreate
        { id := some "b", name := "b", cron := "0 9 * * *", handlerType := .prompt,
          nextFireAt := some 32400000 }, "n", 0⟩]).wakeTime = none ∧
      ¬ AlarmAgrees (Run.run (step noZones) {} [.call ⟨.spineScheduleCreate
        { id := some "b", name := "b", cron := "0 9 * * *", handlerType := .prompt,
          nextFireAt := some 32400000 }, "n", 0⟩]) := by
  refine ⟨rfl, fun h => ?_⟩
  have hdisabled := h.absent.mp rfl _ mem_cons_self
  cases hdisabled

end ScheduleRuntime

end CrabbyKit
