import CrabbyKit.Schedule.Runtime
import Mathlib.Order.Bounds.Defs

/-!
# The wake time and the earliest fire time

Whether the alarm agrees with the table is kept through runs of schedule operations: most
end in a refresh, the others keep the agreement as long as they do not move the earliest
fire time.
-/

namespace CrabbyKit

open List Option

namespace ScheduleStore

variable {st st' : ScheduleStore} {id : String} {now : Instant}

theorem earliest_congr
    (h : ∀ row ∈ st.rows, ∀ t, fireTime row = some t →
      ∃ row' ∈ st'.rows, ∃ u, fireTime row' = some u ∧ u ≤ t)
    (h' : ∀ row ∈ st'.rows, ∀ t, fireTime row = some t →
      ∃ row' ∈ st.rows, ∃ u, fireTime row' = some u ∧ u ≤ t) :
    st'.getEarliestFireTime = st.getEarliestFireTime := by
  unfold getEarliestFireTime
  cases he : (st.rows.filterMap fireTime).min? with
  | none =>
    rw [min?_eq_none_iff, filterMap_eq_nil_iff] at he ⊢
    intro row hrow
    cases ht : fireTime row with
    | none => rfl
    | some t =>
      obtain ⟨row', hrow', u, hu, -⟩ := h' row hrow t ht
      rw [he row' hrow'] at hu
      cases hu
  | some t =>
    obtain ⟨hmem, hle⟩ := min?_eq_some_iff.mp he
    obtain ⟨row, hrow, ht⟩ := mem_filterMap.mp hmem
    have hbound : ∀ row' ∈ st'.rows, ∀ v, fireTime row' = some v → t ≤ v := by
      intro row' hrow' v hv
      obtain ⟨q, hq, u, hu, huv⟩ := h' row' hrow' v hv
      exact (hle u (mem_filterMap.mpr ⟨q, hq, hu⟩)).trans huv
    obtain ⟨row', hrow', u, hu, hut⟩ := h row hrow t ht
    have heq : u = t := le_antisymm hut (hbound row' hrow' u hu)
    rw [min?_eq_some_iff]
    refine ⟨mem_filterMap.mpr ⟨row', hrow', heq ▸ hu⟩, fun v hv => ?_⟩
    obtain ⟨q, hq, hqv⟩ := mem_filterMap.mp hv
    exact hbound q hq v hqv

/-- Unique ids, and a fire time in every row. -/
structure Sound (st : ScheduleStore) : Prop where
  keyed : st.Keyed
  timed : ∀ row ∈ st.rows, row.nextFireAt ≠ none

theorem sound_empty : ({} : ScheduleStore).Sound where
  keyed := nodup_nil
  timed := fun _ hrow => absurd hrow not_mem_nil

variable {f : Schedule → Schedule}

theorem Sound.updateRow (h : st.Sound) (hid : ∀ s, (f s).id = s.id)
    (htime : ∀ s, s.nextFireAt ≠ none → (f s).nextFireAt ≠ none) : (st.updateRow id f).Sound where
  keyed := h.keyed.updateRow hid
  timed := by
    intro row hrow
    obtain ⟨q, hq, rfl⟩ := Table.mem_modify.mp hrow
    split_ifs
    · exact htime q (h.timed q hq)
    · exact h.timed q hq

theorem Sound.delete (h : st.Sound) (id : String) : (st.delete id).Sound where
  keyed := h.keyed.delete id
  timed := fun row hrow => h.timed row (mem_of_mem_filter hrow)

variable {config : CreateConfig}

theorem Sound.create (h : st.Sound) {nanoid : String} {s : Schedule}
    (htime : config.nextFireAt ≠ none) (hc : st.create config nanoid now = .ok (st', s)) :
    st'.Sound where
  keyed := h.keyed.create hc
  timed := by
    obtain ⟨-, hs, rfl⟩ := create_ok hc
    intro row hrow
    rcases mem_append.mp hrow with hrow | hrow
    · exact h.timed row hrow
    · rw [mem_singleton.mp hrow, hs]
      exact htime

theorem Sound.update (h : st.Sound) {updates : ScheduleUpdates}
    (htime : updates.nextFireAt ≠ some none) : (st.update id updates now).1.Sound := by
  unfold ScheduleStore.update
  split
  · exact h
  · refine h.updateRow (fun _ => rfl) fun s hs => ?_
    unfold applyUpdates
    cases ht : updates.nextFireAt with
    | none => exact hs
    | some t =>
      intro hnone
      exact htime (ht.trans (congrArg some hnone))

/-- Writing the schedule of an id does not move the earliest fire time: it keeps its own
fire time, or another schedule fires no later than it did and will. -/
def Unfelt (st : ScheduleStore) (id : String) (next : Option Instant) : Prop :=
  (st.get id).bind fireTime = next ∨
    ∃ row ∈ st.rows, row.id ≠ id ∧ ∃ u, fireTime row = some u ∧
      (∀ t, (st.get id).bind fireTime = some t → u ≤ t) ∧ ∀ t, next = some t → u ≤ t

theorem Sound.earliest_of_unfelt (h : st.Sound) (h' : st'.Sound) {next : Option Instant}
    (hu : st.Unfelt id next) (hnext : (st'.get id).bind fireTime = next)
    (hother : ∀ row, row.id ≠ id → (row ∈ st'.rows ↔ row ∈ st.rows)) :
    st'.getEarliestFireTime = st.getEarliestFireTime := by
  have hread : ∀ {s : ScheduleStore}, s.Sound → ∀ row ∈ s.rows, row.id = id →
      (s.get id).bind fireTime = fireTime row := by
    intro s hs row hrow hid
    rw [hs.keyed.get_eq_some.mpr ⟨hrow, hid⟩, bind_some]
  have hfound : ∀ {s : ScheduleStore}, s.Sound → ∀ t, (s.get id).bind fireTime = some t →
      ∃ row ∈ s.rows, fireTime row = some t := by
    intro s hs t ht
    obtain ⟨row, hrow, hfire⟩ := bind_eq_some_iff.mp ht
    exact ⟨row, (hs.keyed.get_eq_some.mp hrow).1, hfire⟩
  refine earliest_congr (fun row hrow t ht => ?_) fun row hrow t ht => ?_
  · by_cases hid : row.id = id
    · rcases hu with hsame | ⟨q, hq, hqid, u, hqu, hold, -⟩
      · have hnew : (st'.get id).bind fireTime = some t := by
          rw [hnext, ← hsame, hread h row hrow hid, ht]
        obtain ⟨q, hq, hqt⟩ := hfound h' t hnew
        exact ⟨q, hq, t, hqt, le_refl t⟩
      · have hut := hold t ((hread h row hrow hid).trans ht)
        exact ⟨q, (hother q hqid).mpr hq, u, hqu, hut⟩
    · exact ⟨row, (hother row hid).mpr hrow, t, ht, le_refl t⟩
  · by_cases hid : row.id = id
    · have hnew : next = some t := by
        rw [← hnext, hread h' row hrow hid, ht]
      rcases hu with hsame | ⟨q, hq, hqid, u, hqu, -, hupper⟩
      · obtain ⟨q, hq, hqt⟩ := hfound h t (hsame.trans hnew)
        exact ⟨q, hq, t, hqt, le_refl t⟩
      · exact ⟨q, hq, u, hqu, hupper t hnew⟩
    · exact ⟨row, (hother row hid).mp hrow, t, ht, le_refl t⟩

variable {row : Schedule}

theorem mem_updateRow_of_ne (hf : ∀ s, (f s).id = s.id)
    (hid : row.id ≠ id) : row ∈ (st.updateRow id f).rows ↔ row ∈ st.rows := by
  unfold ScheduleStore.updateRow
  rw [Table.mem_modify]
  constructor
  · rintro ⟨q, hq, rfl⟩
    by_cases hqid : q.id = id
    · rw [if_pos hqid, hf] at hid
      exact absurd hqid hid
    · rw [if_neg hqid]
      exact hq
  · intro hrow
    exact ⟨row, hrow, if_neg hid⟩

theorem mem_delete_of_ne (hid : row.id ≠ id) : row ∈ (st.delete id).rows ↔ row ∈ st.rows := by
  unfold ScheduleStore.delete
  rw [mem_filter, decide_eq_true_eq]
  exact and_iff_left hid

theorem mem_create_of_ne {nanoid : String} {s : Schedule}
    (hc : st.create config nanoid now = .ok (st', s)) (hid : row.id ≠ config.id.getD nanoid) :
    row ∈ st'.rows ↔ row ∈ st.rows := by
  obtain ⟨-, hs, rfl⟩ := create_ok hc
  rw [mem_append, mem_singleton]
  refine or_iff_left fun heq => hid ?_
  rw [heq, hs]
  rfl

/-- A property of tables that creations and updates which write admitted fire times, and
deletions, keep. -/
structure Keeps (Admits : Option Instant → Prop) (P : ScheduleStore → Prop) : Prop where
  time : ∀ t, Admits (some t)
  create : ∀ {st st' : ScheduleStore} {config nanoid now row},
    st.create config nanoid now = .ok (st', row) → Admits config.nextFireAt → P st → P st'
  update : ∀ {st : ScheduleStore} id (updates : ScheduleUpdates) now,
    (∀ t, updates.nextFireAt = some t → Admits t) → P st → P (st.update id updates now).1
  delete : ∀ {st : ScheduleStore} id, P st → P (st.delete id)

theorem keeps_sound : Keeps (· ≠ none) Sound where
  time := some_ne_none
  create := fun hc hrow h => h.create hrow hc
  update := fun _ _ _ htime h => h.update fun hnull => htime none hnull rfl
  delete := fun id h => h.delete id

theorem keeps_keyed : Keeps (fun _ => True) Keyed where
  time := fun _ => trivial
  create := fun hc _ h => h.create hc
  update := by
    intro st id updates now _ h
    cases hget : st.get id with
    | none =>
      rw [update_of_none hget]
      exact h
    | some row =>
      rw [update_of_some hget]
      exact h.updateRow (applyUpdates_id updates)
  delete := fun id h => h.delete id

end ScheduleStore

namespace ScheduleRuntime

variable {zones : Cron.Zones} {s : ScheduleRuntime} {nanoid : String} {now : Instant}

/-- A call whose spine writes leave no schedule without a fire time. -/
def TimedCall (c : ScheduleCall) : Prop :=
  match c.op with
  | .spineScheduleCreate config => config.nextFireAt ≠ none
  | .spineScheduleUpdate _ patch => patch.nextFireAt ≠ some none
  | _ => True

variable {row : CreateConfig}

theorem promptRow_timed {config : PromptScheduleConfig} {ownerId : Option String}
    {enabled : Option Bool}
    (h : promptRow zones config ownerId enabled now = .ok row) : row.nextFireAt ≠ none := by
  unfold promptRow at h
  obtain ⟨next, -, hexpiry⟩ := Cron.bind_ok h
  obtain ⟨expiresAt, -, hrow⟩ := Cron.bind_ok hexpiry
  cases hrow
  exact some_ne_none next

theorem callbackRow_timed {config : CallbackScheduleConfig} {ownerId : String}
    (h : callbackRow zones config ownerId now = .ok row) : row.nextFireAt ≠ none := by
  unfold callbackRow at h
  obtain ⟨next, -, hexpiry⟩ := Cron.bind_ok h
  obtain ⟨expiresAt, -, hrow⟩ := Cron.bind_ok hexpiry
  cases hrow
  exact some_ne_none next

@[simp] theorem thenRefresh_store (outcome : ScheduleRuntime × Option String) :
    (thenRefresh outcome).1.store = outcome.1.store := by
  unfold thenRefresh
  split
  · rfl
  · rfl

/-- The fire times that a call of the spine writes are admitted. -/
def CallAdmits (Admits : Option Instant → Prop) (c : ScheduleCall) : Prop :=
  match c.op with
  | .spineScheduleCreate config => Admits config.nextFireAt
  | .spineScheduleUpdate _ patch => ∀ t, patch.nextFireAt = some t → Admits t
  | _ => True

section Keeps

variable {Admits : Option Instant → Prop} {P : ScheduleStore → Prop}
  (hk : ScheduleStore.Keeps Admits P)
include hk

theorem admits_of_ne_none {t : Option Instant} (h : t ≠ none) : Admits t := by
  obtain ⟨u, rfl⟩ := ne_none_iff_exists'.mp h
  exact hk.time u

variable {row : Except String CreateConfig}

theorem insert_keeps (h : P s.store)
    (hrow : ∀ config, row = .ok config → Admits config.nextFireAt) :
    P (s.insert row nanoid now).1.store := by
  unfold insert
  cases row with
  | error e => exact h
  | ok config =>
    simp only
    split
    · exact h
    · rename_i store created hc
      exact hk.create hc (hrow config rfl) h

theorem updateSchedule_keeps (h : P s.store) (id : String) (updates : ScheduleChanges) :
    P (s.updateSchedule zones id updates now).1.store := by
  unfold updateSchedule
  split_ifs
  · exact h
  · split
    · exact h
    · rename_i nextFireAt _
      have htime : ∀ t, (rowUpdates updates nextFireAt).nextFireAt = some t → Admits t := by
        rintro t ht
        unfold rowUpdates at ht
        obtain ⟨u, -, rfl⟩ := map_eq_some_iff.mp ht
        exact hk.time u
      have hupdate : P (s.store.update id (rowUpdates updates nextFireAt) now).1 :=
        hk.update id _ now htime h
      split
      · rename_i store row heq
        rw [heq] at hupdate
        exact hupdate
      · rename_i store heq
        rw [heq] at hupdate
        exact hupdate

theorem setTimer_keeps (h : P s.store) (id : String) (delay : Option Int)
    (callback : Option Callback) : P (s.setTimer id delay callback nanoid now).1.store := by
  have hdeleted : P (s.store.delete id) := hk.delete id h
  unfold setTimer
  simp only
  split
  · exact hdeleted
  · split
    · exact hdeleted
    · rename_i delay
      have hinsert : P (insert
          (.ok (timerRow { s with store := s.store.delete id } id (now + delay))) nanoid now
          { s with store := s.store.delete id }).1.store := by
        refine insert_keeps hk hdeleted fun config hconfig => ?_
        cases hconfig
        exact hk.time (now + delay)
      split
      · rename_i heq
        rw [heq] at hinsert
        exact hinsert
      · rename_i heq
        rw [heq] at hinsert
        exact hinsert

theorem syncRow_keeps (h : P s.store) (id cron : String) (timezone : Option String)
    (hrow : ∀ config, row = .ok config → config.nextFireAt ≠ none) :
    P (s.syncRow zones id cron timezone row nanoid now).1.store := by
  unfold syncRow
  split
  · exact insert_keeps hk h fun config hconfig => admits_of_ne_none hk (hrow config hconfig)
  · split_ifs
    · exact h
    · split
      · exact h
      · rename_i next _
        refine hk.update id _ now (fun t ht => ?_) h
        rw [← Option.some.inj ht]
        exact hk.time next

theorem syncAll_keeps (h : P s.store) (declarations : List (ScheduleConfig × String)) :
    P (s.syncAll zones nanoid now declarations).1.store := by
  induction declarations generalizing s with
  | nil => exact h
  | cons declaration rest ih =>
    have hone : P (s.syncOne zones declaration nanoid now).1.store := by
      obtain ⟨config, ownerId⟩ := declaration
      cases config with
      | timer config => exact h
      | prompt config => exact syncRow_keeps hk h _ _ _ fun _ => promptRow_timed
      | callback config =>
        exact syncRow_keeps (s := { s with
          callbacks := setKey s.callbacks config.id config.callback }) hk h _ _ _
          fun _ => callbackRow_timed
    unfold syncAll
    split
    · rename_i heq
      rw [heq] at hone
      exact hone
    · rename_i heq
      rw [heq] at hone
      exact ih hone

theorem exec_keeps (h : P s.store) {c : ScheduleCall} (hc : CallAdmits Admits c) :
    P (exec zones c s).1.store := by
  obtain ⟨op, nanoid, now⟩ := c
  cases op with
  | createSchedule config =>
    simp only [exec, createSchedule, thenRefresh_store]
    exact insert_keeps hk h fun _ hrow => admits_of_ne_none hk (promptRow_timed hrow)
  | updateSchedule id updates => exact updateSchedule_keeps hk h id updates
  | deleteSchedule id =>
    simp only [exec, deleteSchedule]
    split_ifs
    · exact h
    · exact hk.delete id h
  | setTimer id delay callback => exact setTimer_keeps hk h id delay callback
  | cancelTimer id =>
    simp only [exec, cancelTimer, refreshAlarm]
    split_ifs
    · exact hk.delete id h
    · exact h
  | syncCapabilitySchedules declarations =>
    simp only [exec, thenRefresh_store]
    exact syncAll_keeps hk h declarations
  | spineScheduleCreate config =>
    refine insert_keeps hk h fun config' hconfig => ?_
    cases hconfig
    exact hc
  | spineScheduleUpdate id patch => exact hk.update id patch now hc h
  | spineScheduleDelete id => exact hk.delete id h
  | spineAlarmSet timestamp => exact h

end Keeps

theorem exec_sound (h : s.store.Sound) {c : ScheduleCall} (hc : TimedCall c) :
    (exec zones c s).1.store.Sound := by
  refine exec_keeps ScheduleStore.keeps_sound h ?_
  obtain ⟨op, nanoid, now⟩ := c
  cases op with
  | spineScheduleCreate config => exact hc
  | spineScheduleUpdate id patch =>
    rintro t ht rfl
    exact hc ht
  | _ => trivial

end ScheduleRuntime

end CrabbyKit
