import CrabbyKit.Core.Sorted
import CrabbyKit.Session.Invariant

/-!
# The schedule store

`ScheduleStore` of `scheduling/schedule-store.ts` over its SQL table. The columns
`next_fire_at`, `last_fired_at` and `expires_at` hold `toISOString` texts of four-digit
years, whose text order is the order of the instants they name.
-/

namespace CrabbyKit

open List

/-- What a schedule runs when it fires. -/
inductive HandlerType
  | prompt | callback | timer
  deriving DecidableEq, Repr

inductive ScheduleStatus
  | idle | running | failed
  deriving DecidableEq, Repr

/-- A row of `schedules`. -/
structure Schedule where
  id : String
  name : String
  cron : String
  enabled : Bool
  handlerType : HandlerType
  prompt : Option String
  sessionPrefix : Option String
  ownerId : Option String
  nextFireAt : Option Instant
  lastFiredAt : Option Instant
  timezone : Option String
  expiresAt : Option Instant
  status : ScheduleStatus
  lastError : Option String
  retention : Int
  createdAt : Stamp
  updatedAt : Stamp
  deriving DecidableEq, Repr

/-- The rows of `schedules` in insertion order. -/
structure ScheduleStore where
  rows : List Schedule := []
  deriving DecidableEq, Repr

/-- The argument of `ScheduleStore.create`. -/
structure CreateConfig where
  id : Option String := none
  name : String
  cron : String
  enabled : Option Bool := none
  handlerType : HandlerType
  prompt : Option String := none
  sessionPrefix : Option String := none
  ownerId : Option String := none
  timezone : Option String := none
  expiresAt : Option Instant := none
  nextFireAt : Option Instant := none
  retention : Option Int := none
  deriving DecidableEq, Repr

/-- The argument of `ScheduleStore.update`; an absent field is left alone, and a nullable
column may be set to null. -/
structure ScheduleUpdates where
  name : Option String := none
  cron : Option String := none
  enabled : Option Bool := none
  prompt : Option String := none
  sessionPrefix : Option String := none
  timezone : Option (Option String) := none
  nextFireAt : Option (Option Instant) := none
  lastFiredAt : Option (Option Instant) := none
  status : Option ScheduleStatus := none
  lastError : Option (Option String) := none
  retention : Option Int := none
  deriving DecidableEq, Repr

namespace ScheduleStore

def defaultRetention : Int := 10

/-- `SELECT * FROM schedules WHERE id = ? LIMIT 1`. -/
def get (st : ScheduleStore) (id : String) : Option Schedule := Table.lookup Schedule.id st.rows id

/-- `SELECT * FROM schedules ORDER BY created_at ASC`. -/
def list (st : ScheduleStore) : List Schedule :=
  st.rows.insertionSort fun a b => a.createdAt.le b.createdAt

/-- The row a creation inserts. -/
def newSchedule (config : CreateConfig) (id : String) (now : Instant) : Schedule where
  id := id
  name := config.name
  cron := config.cron
  enabled := config.enabled ≠ some false
  handlerType := config.handlerType
  prompt := config.prompt
  sessionPrefix := some (config.sessionPrefix.getD config.name)
  ownerId := config.ownerId
  nextFireAt := config.nextFireAt
  lastFiredAt := none
  timezone := config.timezone
  expiresAt := config.expiresAt
  status := .idle
  lastError := none
  retention := config.retention.getD defaultRetention
  createdAt := toISOString now
  updatedAt := toISOString now

/-- Insert a schedule; a taken id violates the primary key. -/
def create (st : ScheduleStore) (config : CreateConfig) (nanoid : String) (now : Instant) :
    Except String (ScheduleStore × Schedule) :=
  let id := config.id.getD nanoid
  if (st.get id).isSome then .error "UNIQUE constraint failed: schedules.id"
  else
    let row := newSchedule config id now
    .ok ({ rows := st.rows ++ [row] }, row)

/-- The row with the given fields set. -/
def applyUpdates (updates : ScheduleUpdates) (now : Instant) (s : Schedule) : Schedule :=
  { s with
    name := updates.name.getD s.name
    cron := updates.cron.getD s.cron
    enabled := updates.enabled.getD s.enabled
    prompt := updates.prompt.or s.prompt
    sessionPrefix := updates.sessionPrefix.or s.sessionPrefix
    timezone := updates.timezone.getD s.timezone
    nextFireAt := updates.nextFireAt.getD s.nextFireAt
    lastFiredAt := updates.lastFiredAt.getD s.lastFiredAt
    status := updates.status.getD s.status
    lastError := updates.lastError.getD s.lastError
    retention := updates.retention.getD s.retention
    updatedAt := datetimeNow now }

/-- `UPDATE schedules SET ... WHERE id = ?`. -/
def updateRow (st : ScheduleStore) (id : String) (f : Schedule → Schedule) : ScheduleStore :=
  { rows := Table.modify Schedule.id id f st.rows }

def update (st : ScheduleStore) (id : String) (updates : ScheduleUpdates) (now : Instant) :
    ScheduleStore × Option Schedule :=
  match st.get id with
  | none => (st, none)
  | some _ =>
    let st := st.updateRow id (applyUpdates updates now)
    (st, st.get id)

/-- `DELETE FROM schedules WHERE id = ?`. -/
def delete (st : ScheduleStore) (id : String) : ScheduleStore :=
  { rows := st.rows.filter fun s => s.id ≠ id }

/-- `enabled = 1 AND next_fire_at IS NOT NULL AND next_fire_at <= ?`. -/
def isDue (now : Instant) (s : Schedule) : Bool :=
  s.enabled && s.nextFireAt.any (· ≤ now)

def getDueSchedules (st : ScheduleStore) (now : Instant) : List Schedule :=
  (st.rows.filter (isDue now)).insertionSort fun a b => a.nextFireAt.getD 0 ≤ b.nextFireAt.getD 0

def fireTime (s : Schedule) : Option Instant := if s.enabled then s.nextFireAt else none

/-- `SELECT MIN(next_fire_at) ... WHERE enabled = 1 AND next_fire_at IS NOT NULL`. -/
def getEarliestFireTime (st : ScheduleStore) : Option Instant := (st.rows.filterMap fireTime).min?

/-- Note the start of an execution. -/
def markRunning (st : ScheduleStore) (id : String) (now : Instant) : ScheduleStore :=
  st.updateRow id fun s =>
    { s with status := .running, lastFiredAt := some now, updatedAt := toISOString now }

/-- Note the end of a successful execution. -/
def markIdle (st : ScheduleStore) (id : String) (now : Instant) : ScheduleStore :=
  st.updateRow id fun s =>
    { s with status := .idle, lastError := none, updatedAt := datetimeNow now }

/-- Note the end of a failed execution. -/
def markFailed (st : ScheduleStore) (id error : String) (now : Instant) : ScheduleStore :=
  st.updateRow id fun s =>
    { s with status := .failed, lastError := some error, updatedAt := datetimeNow now }

/-- Schedule ids are unique: the primary key of the table. -/
def Keyed (st : ScheduleStore) : Prop := (st.rows.map Schedule.id).Nodup

section Rows

variable {st st' : ScheduleStore} {id other : String} {now : Instant}

@[simp] theorem applyUpdates_id (updates : ScheduleUpdates) (s : Schedule) :
    (applyUpdates updates now s).id = s.id := rfl

variable {f : Schedule → Schedule}

theorem get_updateRow (hf : ∀ s, (f s).id = s.id) (other : String) :
    (st.updateRow id f).get other = (st.get other).map fun s => if other = id then f s else s :=
  Table.lookup_modify hf other

theorem update_of_none (h : st.get id = none) (updates : ScheduleUpdates) (now : Instant) :
    st.update id updates now = (st, none) := by
  unfold update
  rw [h]

theorem update_of_some {row : Schedule} (h : st.get id = some row) (updates : ScheduleUpdates)
    (now : Instant) : st.update id updates now =
      (st.updateRow id (applyUpdates updates now), some (applyUpdates updates now row)) := by
  have hread : (st.updateRow id (applyUpdates updates now)).get id =
      some (applyUpdates updates now row) := by
    have hid : ∀ s, (applyUpdates updates now s).id = s.id := applyUpdates_id updates
    rw [get_updateRow hid, h, Option.map_some, if_pos rfl]
  unfold update
  simp only [h, hread]

theorem get_delete (st : ScheduleStore) (id other : String) :
    (st.delete id).get other = if other = id then none else st.get other := by
  unfold get delete Table.lookup
  rw [find?_filter]
  split_ifs with h
  · subst h
    rw [find?_eq_none]
    intro s _
    simp
  · refine congrArg (fun p => List.find? p st.rows) (funext fun s => ?_)
    by_cases hs : s.id = other
    · simp [hs, h]
    · simp [hs]

variable {config : CreateConfig} {nanoid : String} {s : Schedule}

theorem create_ok (h : st.create config nanoid now = .ok (st', s)) :
    st.get (config.id.getD nanoid) = none ∧ s = newSchedule config (config.id.getD nanoid) now ∧
      st' = { rows := st.rows ++ [s] } := by
  unfold create at h
  simp only at h
  split_ifs at h with hsome
  cases h
  exact ⟨Option.not_isSome_iff_eq_none.mp hsome, rfl, rfl⟩

theorem get_create (h : st.create config nanoid now = .ok (st', s)) (other : String) :
    st'.get other = if other = config.id.getD nanoid then some s else st.get other := by
  obtain ⟨hnone, hs, rfl⟩ := create_ok h
  have hid : s.id = config.id.getD nanoid := by
    rw [hs]
    rfl
  unfold get Table.lookup at hnone ⊢
  rw [find?_append]
  split_ifs with hother
  · rw [hother, hnone]
    simp [hid]
  · have hne : ¬ s.id = other := fun he => hother (he.symm.trans hid)
    simp [hne]

theorem Keyed.updateRow (h : st.Keyed) (hf : ∀ s, (f s).id = s.id) : (st.updateRow id f).Keyed := by
  unfold Keyed ScheduleStore.updateRow
  rw [Table.map_key_modify hf]
  exact h

theorem Keyed.delete (h : st.Keyed) (id : String) : (st.delete id).Keyed :=
  h.sublist (List.filter_sublist.map _)

theorem Keyed.create (h : st.Keyed)
    (hc : st.create config nanoid now = .ok (st', s)) : st'.Keyed := by
  obtain ⟨hnone, hs, rfl⟩ := create_ok hc
  have hid : s.id = config.id.getD nanoid := by
    rw [hs]
    rfl
  unfold Keyed
  rw [map_append, map_singleton, nodup_append]
  refine ⟨h, nodup_singleton _, ?_⟩
  rintro a ha b hb
  obtain ⟨q, hq, rfl⟩ := List.mem_map.mp ha
  rw [mem_singleton.mp hb, hid]
  exact Table.lookup_eq_none.mp hnone q hq

theorem Keyed.get_eq_some (h : st.Keyed) : st.get id = some s ↔ s ∈ st.rows ∧ s.id = id :=
  Table.lookup_eq_some h

theorem Keyed.due_nodup (h : st.Keyed) (now : Instant) :
    ((st.getDueSchedules now).map Schedule.id).Nodup := by
  unfold getDueSchedules
  have hperm := (List.perm_insertionSort
    (fun a b : Schedule => a.nextFireAt.getD 0 ≤ b.nextFireAt.getD 0)
    (st.rows.filter (isDue now))).map Schedule.id
  rw [hperm.nodup_iff]
  exact h.sublist (List.filter_sublist.map _)

end Rows

end ScheduleStore

end CrabbyKit

/-!
# Session retention of a schedule

`cleanupScheduleSessions` of `agent-runtime.ts`. The store does not record which schedule
created a session; the statements take that as a predicate of their own.
-/

namespace CrabbyKit.SessionStore

/-- The sessions taken for a schedule's, most recently updated first. -/
def scheduleSessions (st : SessionStore) (schedule : Schedule) : List Session :=
  let namePrefix := schedule.sessionPrefix.getD schedule.name
  st.list.filter fun s => s.source = "scheduled" && namePrefix.toList.isPrefixOf s.name.toList

def cleanupScheduleSessions (schedule : Schedule) (st : SessionStore) : SessionStore :=
  let allSessions := st.scheduleSessions schedule
  if schedule.retention < allSessions.length then
    let toDelete := allSessions.take (allSessions.length - schedule.retention).toNat
    toDelete.foldl (fun st s => st.delete s.id) st
  else st

/-- From one store to the next, exactly the own sessions behind the first `retention` of
the listing are gone. -/
def Retains (own : Session → Bool) (retention : Nat) (st st' : SessionStore) : Prop :=
  ∀ s, s ∈ st'.sessions ↔ s ∈ st.sessions ∧ s ∉ (st.list.filter own).drop retention

/-- Neither listing is longer than the retention; or the matching sessions are the own
ones behind the first `retention`, followed by `retention` others. -/
def RetentionFits (own matching : List Session) (retention : Nat) : Prop :=
  (matching.length ≤ retention ∧ own.length ≤ retention) ∨
    ∃ recent older others, own = recent ++ older ∧ matching = older ++ others ∧
      recent.length = retention ∧ others.length = retention

section Cleanup

variable {st : SessionStore} {schedule : Schedule}

theorem sessions_foldl_delete (deleted : List Session) (st : SessionStore) :
    (deleted.foldl (fun st s => st.delete s.id) st).sessions =
      st.sessions.filter fun s => s.id ∉ deleted.map Session.id := by
  induction deleted generalizing st with
  | nil => simp
  | cons d deleted ih =>
    rw [List.foldl_cons, ih]
    simp only [delete, List.filter_filter]
    refine List.filter_congr fun s _ => ?_
    simp only [List.map_cons, List.mem_cons, not_or, Bool.decide_and, ne_eq, Bool.and_comm]

theorem take_sub_toNat (l : List Session) (retention : Int) :
    l.take (l.length - retention).toNat = l.take (l.length - retention.toNat) := by
  rcases Int.le_total 0 retention with h | h
  · congr 1
    omega
  · have hall : l.length ≤ (l.length - retention).toNat := by omega
    have hnone : retention.toNat = 0 := by omega
    rw [hnone, Nat.sub_zero, List.take_length, List.take_of_length_le hall]

/-- The cleanup deletes the matching sessions in front of the last `retention`. -/
theorem mem_cleanup (hn : (st.sessions.map Session.id).Nodup) {s : Session} :
    s ∈ (cleanupScheduleSessions schedule st).sessions ↔ s ∈ st.sessions ∧
      s ∉ (st.scheduleSessions schedule).take
        ((st.scheduleSessions schedule).length - schedule.retention.toNat) := by
  have hsub : ∀ q ∈ st.scheduleSessions schedule, q ∈ st.sessions := by
    intro q hq
    exact (List.mem_insertionSort _).mp (List.mem_of_mem_filter hq)
  unfold cleanupScheduleSessions
  simp only
  split_ifs with hmore
  · rw [sessions_foldl_delete, List.mem_filter, take_sub_toNat, decide_eq_true_eq]
    constructor
    · rintro ⟨hs, hid⟩
      exact ⟨hs, fun hm => hid (List.mem_map_of_mem hm)⟩
    · rintro ⟨hs, hm⟩
      refine ⟨hs, fun hid => hm ?_⟩
      obtain ⟨q, hq, hqs⟩ := List.mem_map.mp hid
      have hsame := Table.eq_of_key hn (hsub q (List.mem_of_mem_take hq)) hs hqs
      exact hsame ▸ hq
  · have hnone : (st.scheduleSessions schedule).length - schedule.retention.toNat = 0 := by omega
    rw [hnone, List.take_zero]
    exact ⟨fun hs => ⟨hs, List.not_mem_nil⟩, And.left⟩

/-- The cleanup keeps the most recent own sessions, deletes the older own ones and nothing
else, exactly when the listings fit. When the matching sessions are exactly the own ones,
it does so exactly when there is nothing to delete or nothing to keep. -/
theorem cleanup_retains_iff (hn : (st.sessions.map Session.id).Nodup) (schedule : Schedule)
    (own : Session → Bool) :
    (Retains own schedule.retention.toNat st (cleanupScheduleSessions schedule st) ↔
      RetentionFits (st.list.filter own) (st.scheduleSessions schedule)
        schedule.retention.toNat) ∧
    (st.scheduleSessions schedule = st.list.filter own →
      (Retains own schedule.retention.toNat st (cleanupScheduleSessions schedule st) ↔
        (st.list.filter own).length ≤ schedule.retention.toNat ∨
          schedule.retention.toNat = 0)) := by
  have hperm := List.perm_insertionSort
    (fun a b : Session => (b.updatedAt.le a.updatedAt : Prop)) st.sessions
  have hnodup : st.list.Nodup := hperm.nodup_iff.mpr hn.of_map
  have hmem : ∀ q, q ∈ st.list ↔ q ∈ st.sessions := fun q => hperm.mem_iff
  have hdeleted : ((st.scheduleSessions schedule).take
      ((st.scheduleSessions schedule).length - schedule.retention.toNat)).Sublist st.list :=
    (List.take_sublist _ _).trans List.filter_sublist
  have holder : ((st.list.filter own).drop schedule.retention.toNat).Sublist st.list :=
    (List.drop_sublist _ _).trans List.filter_sublist
  have hiff : Retains own schedule.retention.toNat st (cleanupScheduleSessions schedule st) ↔
      (st.scheduleSessions schedule).take
          ((st.scheduleSessions schedule).length - schedule.retention.toNat) =
        (st.list.filter own).drop schedule.retention.toNat := by
    unfold Retains
    simp only [mem_cleanup hn]
    constructor
    · intro h
      refine Sorted.eq_of_sublist_of_mem hnodup hdeleted holder fun s => ?_
      by_cases hs : s ∈ st.sessions
      · have hkept := h s
        simp only [hs, true_and] at hkept
        exact not_iff_not.mp hkept
      · have hlist : s ∉ st.list := fun hm => hs ((hmem s).mp hm)
        exact ⟨fun hm => absurd (hdeleted.subset hm) hlist,
          fun hm => absurd (holder.subset hm) hlist⟩
    · intro h s
      rw [h]
  refine ⟨hiff.trans Sorted.take_eq_drop_iff, fun hown => ?_⟩
  rw [hown] at hiff
  exact hiff.trans (Sorted.take_eq_drop_self_iff (hnodup.filter _))

/-- Two sessions of the schedule `daily` and a later one of the schedule `daily-report`. -/
def dailyCalls : List StoreCall :=
  [⟨.create { name := some "daily 1", source := some "scheduled" }, "a", 0⟩,
    ⟨.create { name := some "daily 2", source := some "scheduled" }, "b", 5000⟩,
    ⟨.create { name := some "daily-report 1", source := some "scheduled" }, "c", 10000⟩]

def dailySchedule : Schedule :=
  ScheduleStore.newSchedule
    { name := "daily", cron := "0 9 * * *", handlerType := .prompt, retention := some 1 } "daily" 0

def ranAs (name : String) (s : Session) : Bool := (name ++ " ").toList.isPrefixOf s.name.toList

/-- With its two sessions and room for two the schedule's cleanup deletes nothing. -/
theorem cleanup_retains_daily :
    (Retains (ranAs "daily") 2 (run (dailyCalls.take 2))
        (cleanupScheduleSessions { dailySchedule with retention := 2 } (run (dailyCalls.take 2))) ↔
      RetentionFits ((run (dailyCalls.take 2)).list.filter (ranAs "daily"))
        ((run (dailyCalls.take 2)).scheduleSessions { dailySchedule with retention := 2 }) 2) ∧
    ((run (dailyCalls.take 2)).scheduleSessions { dailySchedule with retention := 2 } =
        (run (dailyCalls.take 2)).list.filter (ranAs "daily") →
      (Retains (ranAs "daily") 2 (run (dailyCalls.take 2))
          (cleanupScheduleSessions { dailySchedule with retention := 2 }
            (run (dailyCalls.take 2))) ↔
        ((run (dailyCalls.take 2)).list.filter (ranAs "daily")).length ≤ 2 ∨ 2 = 0)) :=
  cleanup_retains_iff (by decide) { dailySchedule with retention := 2 } (ranAs "daily")

/-- The cleanup deletes the newest session of the schedule and the session of the other
schedule, and keeps the oldest one. -/
theorem cleanup_deletes_newest :
    (cleanupScheduleSessions dailySchedule (run dailyCalls)).sessions.map Session.id = ["a"] ∧
      ¬ Retains (ranAs "daily") 1 (run dailyCalls)
        (cleanupScheduleSessions dailySchedule (run dailyCalls)) := by
  refine ⟨by decide, fun h => ?_⟩
  have hnewest :=
    (h (newSession { name := some "daily 2", source := some "scheduled" } "b" 5000)).mpr
  exact absurd (hnewest (by decide)) (by decide)

end Cleanup

end CrabbyKit.SessionStore
