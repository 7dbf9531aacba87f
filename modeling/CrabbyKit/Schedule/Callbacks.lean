import CrabbyKit.Schedule.Progress

/-!
# The map of callbacks under schedule calls

Only memory holds the callbacks of schedules. The map is filled when an execution finds it
empty, so it has to be empty or to hold a callback for every declared schedule whose row, or
whose pending execution, runs one.
-/

namespace CrabbyKit

open List

def declaredCallbacks (declarations : List (ScheduleConfig × String)) :
    List (String × Callback) :=
  declarations.filterMap fun declaration =>
    match declaration.1 with
    | .prompt _ => none
    | .callback config => some (config.id, config.callback)
    | .timer config => some (config.id, config.callback)

namespace ScheduleStore

def RunsCallback (st : ScheduleStore) (id : String) : Prop :=
  ∃ row, st.get id = some row ∧ row.handlerType ≠ .prompt

variable {st st' : ScheduleStore} {id other : String} {now : Instant}

theorem runsCallback_updateRow {f : Schedule → Schedule} (hid : ∀ s, (f s).id = s.id)
    (hf : ∀ s, (f s).handlerType = s.handlerType) :
    (st.updateRow other f).RunsCallback id ↔ st.RunsCallback id := by
  unfold RunsCallback
  rw [get_updateRow hid]
  cases st.get id with
  | none => simp
  | some row =>
    simp only [Option.map_some, Option.some.injEq, exists_eq_left']
    split_ifs
    · rw [hf]
    · rfl

theorem runsCallback_update (updates : ScheduleUpdates) :
    (st.update other updates now).1.RunsCallback id ↔ st.RunsCallback id := by
  cases hget : st.get other with
  | none => rw [update_of_none hget]
  | some row =>
    rw [update_of_some hget]
    exact runsCallback_updateRow (applyUpdates_id updates) fun _ => rfl

theorem runsCallback_delete :
    (st.delete other).RunsCallback id ↔ id ≠ other ∧ st.RunsCallback id := by
  unfold RunsCallback
  rw [get_delete]
  split_ifs with h
  · simp [h]
  · simp [h]

theorem runsCallback_create {config : CreateConfig} {nanoid : String} {s : Schedule}
    (hc : st.create config nanoid now = .ok (st', s)) (h : st'.RunsCallback id) :
    st.RunsCallback id ∨ id = config.id.getD nanoid ∧ config.handlerType ≠ .prompt := by
  obtain ⟨row, hget, hrow⟩ := h
  rw [get_create hc] at hget
  split_ifs at hget with hid
  · obtain ⟨-, hs, -⟩ := create_ok hc
    obtain rfl := Option.some.inj hget
    rw [hs] at hrow
    exact Or.inr ⟨hid, hrow⟩
  · exact Or.inl ⟨row, hget, hrow⟩

end ScheduleStore

namespace ScheduleRuntime

variable {zones : Cron.Zones} {s : ScheduleRuntime} {nanoid : String} {now : Instant}

section Entries

variable {β : Type} {entries : List (String × β)} {key other : String} {value : β}

theorem mem_setKey : other ∈ (setKey entries key value).map Prod.fst ↔
    other = key ∨ other ∈ entries.map Prod.fst := by
  simp only [setKey, map_append, map_cons, map_nil, mem_append,
    mem_singleton, mem_map, mem_filter, decide_eq_true_eq]
  constructor
  · rintro (⟨e, ⟨he, -⟩, rfl⟩ | rfl)
    · exact Or.inr ⟨e, he, rfl⟩
    · exact Or.inl rfl
  · rintro (rfl | ⟨e, he, rfl⟩)
    · exact Or.inr rfl
    · by_cases hkey : e.1 = key
      · exact Or.inr hkey
      · exact Or.inl ⟨e, ⟨he, hkey⟩, rfl⟩

theorem mem_deleteKey : other ∈ (deleteKey entries key).map Prod.fst ↔
    other ≠ key ∧ other ∈ entries.map Prod.fst := by
  simp only [deleteKey, mem_map, mem_filter, decide_eq_true_eq]
  constructor
  · rintro ⟨e, ⟨he, hkey⟩, rfl⟩
    exact ⟨hkey, e, he, rfl⟩
  · rintro ⟨hkey, e, he, rfl⟩
    exact ⟨e, ⟨he, hkey⟩, rfl⟩

end Entries

def HasCallback (s : ScheduleRuntime) (id : String) : Prop := id ∈ s.callbacks.map Prod.fst

/-- The callback of a declared id is needed: its execution is pending, or its row runs one. -/
def Needs (declared : List (String × Callback)) (pending : List String) (s : ScheduleRuntime)
    (id : String) : Prop :=
  id ∈ declared.map Prod.fst ∧ (id ∈ pending ∨ s.store.RunsCallback id)

/-- Nothing is registered, or everything that is needed is. -/
def Covers (declared : List (String × Callback)) (pending : List String)
    (s : ScheduleRuntime) : Prop :=
  s.callbacks = [] ∨ ∀ id, Needs declared pending s id → s.HasCallback id

/-- The declared schedules that a synchronisation comes to: all up to the first that throws. -/
def reached (zones : Cron.Zones) (nanoid : String) (now : Instant) :
    List (ScheduleConfig × String) → ScheduleRuntime → List (ScheduleConfig × String)
  | [], _ => []
  | declaration :: rest, s =>
    match s.syncOne zones declaration nanoid now with
    | (_, some _) => [declaration]
    | (s, none) => declaration :: reached zones nanoid now rest s

/-- A call that leaves no needed callback out of a map with others: an empty map gets no
timer while another schedule needs its callback and no part of the declarations, no needed
callback is cancelled or deleted, and no row is made up for an unregistered one. -/
def CallSafe (zones : Cron.Zones) (declared : List (String × Callback)) (pending : List String)
    (c : ScheduleCall) (s : ScheduleRuntime) : Prop :=
  match c.op with
  | .deleteSchedule id =>
    s.owned id = true ∨ deleteKey s.callbacks id = [] ∨
      ¬ (id ∈ declared.map Prod.fst ∧ id ∈ pending)
  | .setTimer id delay callback =>
    s.callbacks ≠ [] ∨ callback = none ∨ delay = none ∨
      ∀ other, Needs declared pending s other → other = id
  | .cancelTimer id =>
    deleteKey s.callbacks id = [] ∨ ¬ (id ∈ declared.map Prod.fst ∧
      (id ∈ pending ∨ ∃ row, s.store.get id = some row ∧ row.handlerType = .callback))
  | .syncCapabilitySchedules declarations =>
    let registers := declaredCallbacks (s.reached zones c.nanoid c.now declarations)
    s.callbacks ≠ [] ∨ registers = [] ∨
      ∀ id, Needs declared pending s id → id ∈ registers.map Prod.fst
  | .spineScheduleCreate config =>
    config.handlerType = .prompt ∨ config.id.getD c.nanoid ∉ declared.map Prod.fst ∨
      (s.store.get (config.id.getD c.nanoid)).isSome = true ∨ s.callbacks = [] ∨
      s.HasCallback (config.id.getD c.nanoid)
  | _ => True

variable {declared : List (String × Callback)} {pending : List String} {s' : ScheduleRuntime}

/-- A step that registers no less, and adds no handler but of registered ids. -/
structure Grows (s s' : ScheduleRuntime) : Prop where
  has : ∀ id, s.HasCallback id → s'.HasCallback id
  runs : ∀ id, s'.store.RunsCallback id → s.store.RunsCallback id ∨ s'.HasCallback id

theorem Grows.trans {s'' : ScheduleRuntime} (h : Grows s s') (h' : Grows s' s'') :
    Grows s s'' where
  has := fun id hid => h'.has id (h.has id hid)
  runs := by
    intro id hid
    rcases h'.runs id hid with hrow | hnew
    · exact (h.runs id hrow).imp_right (h'.has id)
    · exact Or.inr hnew

theorem Covers.grow (h : Covers declared pending s) (hne : s.callbacks ≠ [])
    (hgrows : Grows s s') : Covers declared pending s' := by
  rcases h with hempty | hall
  · exact absurd hempty hne
  · refine Or.inr fun id hneeds => ?_
    obtain ⟨hdeclared, hpending | hrow⟩ := hneeds
    · exact hgrows.has id (hall id ⟨hdeclared, Or.inl hpending⟩)
    · rcases hgrows.runs id hrow with hold | hnew
      · exact hgrows.has id (hall id ⟨hdeclared, Or.inr hold⟩)
      · exact hnew

theorem Covers.of_store (h : Covers declared pending s) (hcallbacks : s'.callbacks = s.callbacks)
    (hruns : ∀ id, s'.store.RunsCallback id → s.store.RunsCallback id) :
    Covers declared pending s' := by
  unfold Covers HasCallback at *
  rw [hcallbacks]
  refine h.imp id fun hall id hneeds => hall id ?_
  exact ⟨hneeds.1, hneeds.2.imp_right (hruns id)⟩

theorem Covers.mono (h : Covers declared pending s) {fewer : List String}
    (hle : fewer ⊆ pending) : Covers declared fewer s :=
  h.imp id fun hall id hneeds => hall id ⟨hneeds.1, hneeds.2.imp_left fun hid => hle hid⟩

theorem Covers.forget (h : Covers declared pending s) (id : String)
    (hcallbacks : s'.callbacks = deleteKey s.callbacks id)
    (hruns : ∀ other, s'.store.RunsCallback other → s.store.RunsCallback other)
    (hid : deleteKey s.callbacks id = [] ∨ ¬ Needs declared pending s' id) :
    Covers declared pending s' := by
  rcases hid with hempty | hneedless
  · exact Or.inl (hcallbacks.trans hempty)
  · rcases h with hempty | hall
    · rw [hempty] at hcallbacks
      exact Or.inl hcallbacks
    · refine Or.inr fun other hneeds => ?_
      rw [HasCallback]
      rw [hcallbacks, mem_deleteKey]
      constructor
      · rintro rfl
        exact hneedless hneeds
      · exact hall other ⟨hneeds.1, hneeds.2.imp_right (hruns other)⟩

theorem promptRow_handler {config : PromptScheduleConfig} {ownerId : Option String}
    {enabled : Option Bool} {row : CreateConfig}
    (h : promptRow zones config ownerId enabled now = .ok row) : row.handlerType = .prompt := by
  unfold promptRow at h
  obtain ⟨next, -, hexpiry⟩ := Cron.bind_ok h
  obtain ⟨expiresAt, -, hrow⟩ := Cron.bind_ok hexpiry
  cases hrow
  rfl

theorem insert_callbacks (row : Except String CreateConfig) :
    (s.insert row nanoid now).1.callbacks = s.callbacks := by
  unfold insert
  split
  · rfl
  · split
    · rfl
    · rfl

variable {row : Except String CreateConfig}

theorem insert_thrown {e : String} (h : s.insert row nanoid now = (s', some e)) : s' = s := by
  unfold insert at h
  split at h
  · exact (Prod.mk.inj h).1.symm
  · split at h
    · exact (Prod.mk.inj h).1.symm
    · cases (Prod.mk.inj h).2

variable {id : String}

theorem insert_runs (h : (s.insert row nanoid now).1.store.RunsCallback id) :
    s.store.RunsCallback id ∨ ∃ config, row = .ok config ∧ id = config.id.getD nanoid ∧
      config.handlerType ≠ .prompt ∧ s.store.get id = none := by
  unfold insert at h
  cases row with
  | error e => exact Or.inl h
  | ok config =>
    simp only at h
    split at h
    · exact Or.inl h
    · rename_i store created hc
      refine (ScheduleStore.runsCallback_create hc h).imp_right fun ⟨hid, hhandler⟩ => ?_
      rw [hid]
      exact ⟨config, rfl, rfl, hhandler, (ScheduleStore.create_ok hc).1⟩

theorem syncRow_callbacks (id cron : String) (timezone : Option String)
    (row : Except String CreateConfig) :
    (s.syncRow zones id cron timezone row nanoid now).1.callbacks = s.callbacks := by
  rw [syncRow]
  split
  · exact insert_callbacks row
  · split_ifs
    · rfl
    · split
      · rfl
      · rfl

theorem syncRow_runs {cron other : String} {timezone : Option String}
    (h : (s.syncRow zones id cron timezone row nanoid now).1.store.RunsCallback other) :
    s.store.RunsCallback other ∨ ∃ config, row = .ok config ∧ other = config.id.getD nanoid ∧
      config.handlerType ≠ .prompt := by
  unfold syncRow at h
  split at h
  · refine (insert_runs h).imp_right fun ⟨config, hrow, hid, hhandler, _⟩ => ?_
    exact ⟨config, hrow, hid, hhandler⟩
  · split_ifs at h
    · exact Or.inl h
    · split at h
      · exact Or.inl h
      · exact Or.inl ((ScheduleStore.runsCallback_update _).mp h)

theorem syncOne_grows (declaration : ScheduleConfig × String) :
    Grows s (s.syncOne zones declaration nanoid now).1 ∧
      ∀ id ∈ (declaredCallbacks [declaration]).map Prod.fst,
        (s.syncOne zones declaration nanoid now).1.HasCallback id := by
  obtain ⟨config, ownerId⟩ := declaration
  cases config with
  | timer config =>
    have hset : ∀ id, HasCallback (s.syncOne zones (.timer config, ownerId) nanoid now).1 id ↔
        id = config.id ∨ s.HasCallback id := fun _ => mem_setKey
    refine ⟨⟨fun id hid => (hset id).mpr (Or.inr hid), fun id hid => Or.inl hid⟩, ?_⟩
    intro id hid
    exact (hset id).mpr (Or.inl (mem_singleton.mp hid))
  | prompt config =>
    have hcallbacks : (s.syncOne zones (.prompt config, ownerId) nanoid now).1.callbacks =
        s.callbacks := syncRow_callbacks _ _ _ _
    refine ⟨⟨fun id hid => ?_, fun id hid => Or.inl ?_⟩, fun id hid => absurd hid not_mem_nil⟩
    · unfold HasCallback at hid ⊢
      rw [hcallbacks]
      exact hid
    · rcases syncRow_runs hid with hold | ⟨row, hrow, -, hhandler⟩
      · exact hold
      · exact absurd (promptRow_handler hrow) hhandler
  | callback config =>
    have hset : ∀ id, HasCallback (s.syncOne zones (.callback config, ownerId) nanoid now).1 id ↔
        id = config.id ∨ s.HasCallback id := by
      intro id
      have hcallbacks : (s.syncOne zones (.callback config, ownerId) nanoid now).1.callbacks =
          setKey s.callbacks config.id config.callback := syncRow_callbacks _ _ _ _
      unfold HasCallback
      rw [hcallbacks, mem_setKey]
    refine ⟨⟨fun id hid => (hset id).mpr (Or.inr hid), fun id hid => ?_⟩, fun id hid => ?_⟩
    · refine (syncRow_runs hid).imp_right fun ⟨row, hrow, hrowId, _⟩ => ?_
      rw [callbackRow_id hrow] at hrowId
      exact (hset id).mpr (Or.inl hrowId)
    · exact (hset id).mpr (Or.inl (mem_singleton.mp hid))

theorem declaredCallbacks_cons (declaration : ScheduleConfig × String)
    (rest : List (ScheduleConfig × String)) : declaredCallbacks (declaration :: rest) =
      declaredCallbacks [declaration] ++ declaredCallbacks rest :=
  filterMap_append (l := [declaration])

theorem syncAll_grows (declarations : List (ScheduleConfig × String)) :
    Grows s (s.syncAll zones nanoid now declarations).1 ∧
      ∀ id ∈ (declaredCallbacks (s.reached zones nanoid now declarations)).map Prod.fst,
        (s.syncAll zones nanoid now declarations).1.HasCallback id := by
  induction declarations generalizing s with
  | nil => exact ⟨⟨fun _ h => h, fun _ h => Or.inl h⟩, fun _ hid => absurd hid not_mem_nil⟩
  | cons declaration rest ih =>
    obtain ⟨hgrows, hdeclared⟩ : Grows s (s.syncOne zones declaration nanoid now).1 ∧
        ∀ id ∈ (declaredCallbacks [declaration]).map Prod.fst,
          (s.syncOne zones declaration nanoid now).1.HasCallback id := syncOne_grows declaration
    rw [syncAll, reached]
    cases hone : s.syncOne zones declaration nanoid now with
    | mk s₁ thrown =>
      rw [hone] at hgrows hdeclared
      cases thrown with
      | some e => exact ⟨hgrows, hdeclared⟩
      | none =>
        obtain ⟨hrest, hreached⟩ := ih (s := s₁)
        refine ⟨hgrows.trans hrest, fun id hid => ?_⟩
        simp only at hid
        rw [declaredCallbacks_cons, map_append, mem_append] at hid
        rcases hid with hfirst | hlater
        · exact hrest.has id (hdeclared id hfirst)
        · exact hreached id hlater

variable {declarations : List (ScheduleConfig × String)}

theorem syncAll_callbacks (h : declaredCallbacks (s.reached zones nanoid now declarations) = []) :
    (s.syncAll zones nanoid now declarations).1.callbacks = s.callbacks := by
  induction declarations generalizing s with
  | nil => rfl
  | cons declaration rest ih =>
    have hone : declaredCallbacks [declaration] = [] →
        (s.syncOne zones declaration nanoid now).1.callbacks = s.callbacks := by
      obtain ⟨config, ownerId⟩ := declaration
      intro hnone
      cases config with
      | prompt config => exact syncRow_callbacks _ _ _ _
      | callback config => cases hnone
      | timer config => cases hnone
    unfold reached at h
    rw [syncAll]
    cases hsync : s.syncOne zones declaration nanoid now with
    | mk s₁ thrown =>
      rw [hsync] at hone
      simp only [hsync] at h
      cases thrown with
      | some e => exact hone h
      | none =>
        simp only at h
        rw [declaredCallbacks_cons] at h
        obtain ⟨hfirst, hlater⟩ := append_eq_nil_iff.mp h
        exact (ih hlater).trans (hone hfirst)

theorem Covers.thenRefresh {outcome : ScheduleRuntime × Option String}
    (h : Covers declared pending outcome.1) : Covers declared pending (thenRefresh outcome).1 := by
  unfold ScheduleRuntime.thenRefresh
  split
  · exact h
  · exact h

theorem Covers.updateSchedule (h : Covers declared pending s) (id : String)
    (updates : ScheduleChanges) :
    Covers declared pending (s.updateSchedule zones id updates now).1 := by
  rw [ScheduleRuntime.updateSchedule]
  split_ifs
  · exact h
  · split
    · exact h
    · rename_i nextFireAt _
      have hruns : ∀ other,
          (s.store.update id (rowUpdates updates nextFireAt) now).1.RunsCallback other →
            s.store.RunsCallback other := fun _ => (ScheduleStore.runsCallback_update _).mp
      split
      · rename_i heq
        rw [heq] at hruns
        exact h.of_store rfl hruns
      · rename_i heq
        rw [heq] at hruns
        exact h.of_store rfl hruns

theorem Covers.deleteSchedule (h : Covers declared pending s) {nanoid : String} {now : Instant}
    (hsafe : CallSafe zones declared pending ⟨.deleteSchedule id, nanoid, now⟩ s) :
    Covers declared pending (s.deleteSchedule id).1 := by
  rw [ScheduleRuntime.deleteSchedule]
  split_ifs with howned
  · exact h
  · refine h.forget id rfl (fun other hruns => ?_) ?_
    · exact (ScheduleStore.runsCallback_delete.mp hruns).2
    · rcases hsafe with howner | hempty | hpending
      · exact absurd howner howned
      · exact Or.inl hempty
      · right
        rintro ⟨hdeclared, hmem | hruns⟩
        · exact hpending ⟨hdeclared, hmem⟩
        · exact (ScheduleStore.runsCallback_delete.mp hruns).1 rfl

theorem Covers.cancelTimer (h : Covers declared pending s) {nanoid : String} {now : Instant}
    (hsafe : CallSafe zones declared pending ⟨.cancelTimer id, nanoid, now⟩ s) :
    Covers declared pending (s.cancelTimer id).1 := by
  have hruns : ∀ other, (s.cancelTimer id).1.store.RunsCallback other →
      s.store.RunsCallback other := by
    intro other hother
    simp only [ScheduleRuntime.cancelTimer, refreshAlarm] at hother
    split_ifs at hother
    · exact (ScheduleStore.runsCallback_delete.mp hother).2
    · exact hother
  refine h.forget id ?_ hruns (hsafe.imp_right fun hneedless hneeds => ?_)
  · simp only [ScheduleRuntime.cancelTimer, refreshAlarm]
    split_ifs
    · rfl
    · rfl
  · obtain ⟨hdeclared, hmem | hrow⟩ := hneeds
    · exact hneedless ⟨hdeclared, Or.inl hmem⟩
    · obtain ⟨row, hget, hhandler⟩ := hruns id hrow
      refine hneedless ⟨hdeclared, Or.inr ⟨row, hget, ?_⟩⟩
      cases htype : row.handlerType with
      | prompt => exact absurd htype hhandler
      | callback => rfl
      | timer =>
        -- the row of a timer goes with its callback
        simp only [ScheduleRuntime.cancelTimer, refreshAlarm, hget, Option.any_some, htype,
          decide_true, if_true] at hrow
        exact absurd rfl (ScheduleStore.runsCallback_delete.mp hrow).1

theorem Covers.setTimer (h : Covers declared pending s) {delay : Option Int}
    {callback : Option Callback} {nanoid : String} {now : Instant}
    (hsafe : CallSafe zones declared pending ⟨.setTimer id delay callback, nanoid, now⟩ s) :
    Covers declared pending (s.setTimer id delay callback nanoid now).1 := by
  have hdelete : ∀ other, (s.store.delete id).RunsCallback other → s.store.RunsCallback other :=
    fun _ hother => (ScheduleStore.runsCallback_delete.mp hother).2
  have hdeleted : Covers declared pending { s with store := s.store.delete id } :=
    h.of_store rfl hdelete
  unfold ScheduleRuntime.setTimer
  simp only
  split
  · exact hdeleted
  · rename_i resolved hresolved
    split
    · exact hdeleted
    · rename_i delay
      have hcallbacks : (insert
          (.ok (timerRow { s with store := s.store.delete id } id (now + delay))) nanoid now
          { s with store := s.store.delete id }).1.callbacks = s.callbacks := insert_callbacks _
      have hruns : ∀ other, (insert
          (.ok (timerRow { s with store := s.store.delete id } id (now + delay))) nanoid now
          { s with store := s.store.delete id }).1.store.RunsCallback other →
          s.store.RunsCallback other ∨ other = id := by
        intro other hother
        refine (insert_runs hother).imp (hdelete other) fun ⟨row, hrow, hid, _⟩ => ?_
        cases hrow
        exact hid
      split
      · rename_i s₁ e heq
        rw [insert_thrown heq]
        exact hdeleted
      · rename_i s₁ heq
        rw [heq] at hcallbacks hruns
        have hset : ∀ other, HasCallback (refreshAlarm
            { s₁ with callbacks := setKey s₁.callbacks id resolved }) other ↔
            other = id ∨ s.HasCallback other := by
          intro other
          unfold HasCallback
          rw [← hcallbacks]
          exact mem_setKey
        by_cases hempty : s.callbacks = []
        · have honly : ∀ other, Needs declared pending s other → other = id := by
            rcases hsafe with hne | hnone | hnone | honly
            · exact absurd hempty hne
            · rw [hnone, hempty] at hresolved
              cases hresolved
            · cases hnone
            · exact honly
          refine Or.inr fun other ⟨hdeclared, hneeds⟩ => (hset other).mpr (Or.inl ?_)
          rcases hneeds with hmem | hrow
          · exact honly other ⟨hdeclared, Or.inl hmem⟩
          · rcases hruns other hrow with hold | hid
            · exact honly other ⟨hdeclared, Or.inr hold⟩
            · exact hid
        · refine h.grow hempty ⟨fun other hother => (hset other).mpr (Or.inr hother), ?_⟩
          intro other hother
          exact (hruns other hother).imp_right fun hid => (hset other).mpr (Or.inl hid)

theorem Covers.sync (h : Covers declared pending s) {nanoid : String} {now : Instant}
    (hsafe : CallSafe zones declared pending
      ⟨.syncCapabilitySchedules declarations, nanoid, now⟩ s) :
    Covers declared pending (s.syncAll zones nanoid now declarations).1 := by
  obtain ⟨hgrows, hreached⟩ : Grows s (s.syncAll zones nanoid now declarations).1 ∧
      ∀ id ∈ (declaredCallbacks (s.reached zones nanoid now declarations)).map Prod.fst,
        (s.syncAll zones nanoid now declarations).1.HasCallback id := syncAll_grows declarations
  by_cases hempty : s.callbacks = []
  · rcases hsafe with hne | hnone | hneeds
    · exact absurd hempty hne
    · exact Or.inl ((syncAll_callbacks hnone).trans hempty)
    · refine Or.inr fun id ⟨hdeclared, hneeded⟩ => ?_
      rcases hneeded with hmem | hrow
      · exact hreached id (hneeds id ⟨hdeclared, Or.inl hmem⟩)
      · rcases hgrows.runs id hrow with hold | hnew
        · exact hreached id (hneeds id ⟨hdeclared, Or.inr hold⟩)
        · exact hnew
  · exact h.grow hempty hgrows

theorem Covers.spineScheduleCreate (h : Covers declared pending s) {config : CreateConfig}
    {nanoid : String} {now : Instant}
    (hsafe : CallSafe zones declared pending ⟨.spineScheduleCreate config, nanoid, now⟩ s) :
    Covers declared pending (s.insert (.ok config) nanoid now).1 := by
  have hcallbacks : (s.insert (.ok config) nanoid now).1.callbacks = s.callbacks :=
    insert_callbacks _
  by_cases hempty : s.callbacks = []
  · exact Or.inl (hcallbacks.trans hempty)
  · have hall := h.resolve_left hempty
    refine Or.inr fun id ⟨hdeclared, hneeds⟩ => ?_
    rw [HasCallback]
    rw [hcallbacks]
    rcases hneeds with hmem | hrow
    · exact hall id ⟨hdeclared, Or.inl hmem⟩
    · rcases insert_runs hrow with hold | ⟨row, hconfig, hid, hhandler, hfree⟩
      · exact hall id ⟨hdeclared, Or.inr hold⟩
      · cases hconfig
        rw [hid] at hdeclared hfree ⊢
        rcases hsafe with hprompt | hundeclared | htaken | hnil | hhas
        · exact absurd hprompt hhandler
        · exact absurd hdeclared hundeclared
        · rw [hfree] at htaken
          cases htaken
        · exact absurd hnil hempty
        · exact hhas

theorem Covers.exec (h : Covers declared pending s) {c : ScheduleCall}
    (hsafe : CallSafe zones declared pending c s) : Covers declared pending (exec zones c s).1 := by
  obtain ⟨op, nanoid, now⟩ := c
  cases op with
  | createSchedule config =>
    refine Covers.thenRefresh (h.of_store (insert_callbacks _) fun id hrow => ?_)
    rcases insert_runs hrow with hold | ⟨row, hcomputed, -, hhandler, -⟩
    · exact hold
    · exact absurd (promptRow_handler hcomputed) hhandler
  | updateSchedule id updates => exact h.updateSchedule id updates
  | deleteSchedule id => exact h.deleteSchedule hsafe
  | setTimer id delay callback => exact h.setTimer hsafe
  | cancelTimer id => exact h.cancelTimer hsafe
  | syncCapabilitySchedules declarations => exact (h.sync hsafe).thenRefresh
  | spineScheduleCreate config => exact h.spineScheduleCreate hsafe
  | spineScheduleUpdate id patch =>
    exact h.of_store rfl fun _ => (ScheduleStore.runsCallback_update patch).mp
  | spineScheduleDelete id =>
    exact h.of_store rfl fun _ hrow => (ScheduleStore.runsCallback_delete.mp hrow).2
  | spineAlarmSet timestamp => exact h

end ScheduleRuntime

end CrabbyKit
