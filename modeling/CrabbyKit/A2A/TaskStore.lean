import CrabbyKit.A2A.Types
import CrabbyKit.Core.Table

/-!
# The task store of the A2A server

`TaskStore` of `server/task-store.ts` over its tables of tasks and of push configurations.
-/

namespace CrabbyKit.A2A

open List Option

/-- A row of `a2a_tasks`. -/
structure TaskRow where
  id : String
  contextId : String
  sessionId : String
  status : TaskStatus
  metadata : Option JsonObject
  createdAt : Instant
  updatedAt : Instant

/-- The tables, each in insertion order; nothing here adds an artifact. -/
structure TaskStore where
  tasks : List TaskRow := []
  pushConfigs : List (String × PushNotificationConfig) := []

namespace TaskStore

def row (store : TaskStore) (taskId : String) : Option TaskRow :=
  Table.lookup TaskRow.id store.tasks taskId

/-- `create`, unless the primary key is taken. -/
def create (store : TaskStore) (id contextId sessionId : String) (metadata : Option JsonObject)
    (now : Instant) : Option TaskStore :=
  if (store.row id).isSome then none
  else some { store with
    tasks := store.tasks ++
      [⟨id, contextId, sessionId, { state := .submitted, timestamp := now }, metadata, now, now⟩] }

def rowToTask (row : TaskRow) : Task := ⟨row.id, row.contextId, row.status, row.metadata⟩

def get (store : TaskStore) (taskId : String) : Option Task := (store.row taskId).map rowToTask

/-- `list`: a limit or an offset of zero is none. -/
def list (store : TaskStore) (contextId : Option String) (limit offset : Option Nat) : List Task :=
  let rows := store.tasks.filter fun row =>
    contextId.all fun contextId => contextId = "" ∨ row.contextId = contextId
  let sorted := rows.insertionSort fun a b => b.createdAt ≤ a.createdAt
  let rest := sorted.drop (offset.getD 0)
  (match limit with
    | none | some 0 => rest
    | some limit => rest.take limit).map rowToTask

/-- `updateStatus`: the row is written whatever its state is. -/
def updateStatus (store : TaskStore) (taskId : String) (status : TaskStatus) (now : Instant) :
    TaskStore :=
  { store with
    tasks := Table.modify TaskRow.id taskId
      (fun row => { row with status := status, updatedAt := now }) store.tasks }

def getSessionId (store : TaskStore) (taskId : String) : Option String :=
  (store.row taskId).map TaskRow.sessionId

/-- `getSessionIdForContext`: the latest row of the context. -/
def getSessionIdForContext (store : TaskStore) (contextId : String) : Option String :=
  let rows := store.tasks.filter fun row => row.contextId = contextId
  (rows.insertionSort fun a b => b.createdAt ≤ a.createdAt).head?.map TaskRow.sessionId

def setPushConfig (store : TaskStore) (taskId : String) (config : PushNotificationConfig) :
    TaskStore :=
  { store with
    pushConfigs := (store.pushConfigs.filter fun entry => entry.1 ≠ taskId) ++ [(taskId, config)] }

def getPushConfig (store : TaskStore) (taskId : String) : Option PushNotificationConfig :=
  (store.pushConfigs.find? fun entry => entry.1 = taskId).map Prod.snd

def stateOf (store : TaskStore) (taskId : String) : Option TaskState :=
  (store.row taskId).map fun row => row.status.state

variable {store store' : TaskStore} {id contextId sessionId : String}
  {metadata : Option JsonObject} {now : Instant}

theorem create_eq_some (h : store.create id contextId sessionId metadata now = some store') :
    store.row id = none ∧ store'.tasks = store.tasks ++
      [⟨id, contextId, sessionId, { state := .submitted, timestamp := now }, metadata, now, now⟩] ∧
      store'.pushConfigs = store.pushConfigs := by
  unfold create at h
  split at h
  · cases h
  · rename_i hnone
    obtain rfl := Option.some.inj h
    exact ⟨not_isSome_iff_eq_none.mp hnone, rfl, rfl⟩

theorem row_create (h : store.create id contextId sessionId metadata now = some store')
    (taskId : String) : store'.row taskId =
      if taskId = id then
        some ⟨id, contextId, sessionId, { state := .submitted, timestamp := now }, metadata, now,
          now⟩ else store.row taskId := by
  obtain ⟨hnone, htasks, -⟩ := create_eq_some h
  unfold row at hnone ⊢
  rw [htasks, Table.lookup_concat]
  by_cases heq : taskId = id
  · rw [if_pos heq, if_pos heq.symm, heq, hnone, none_or]
  · rw [if_neg heq, if_neg (Ne.symm heq), or_none]

theorem row_updateStatus (store : TaskStore) (id : String) (status : TaskStatus) (now : Instant)
    (taskId : String) : (store.updateStatus id status now).row taskId =
      (store.row taskId).map fun row =>
        if taskId = id then { row with status := status, updatedAt := now } else row := by
  have hkey : ∀ row : TaskRow, TaskRow.id { row with status := status, updatedAt := now } =
      row.id := fun _ => rfl
  exact Table.lookup_modify hkey taskId

@[simp] theorem row_setPushConfig (store : TaskStore) (id : String)
    (config : PushNotificationConfig) (taskId : String) :
    (store.setPushConfig id config).row taskId = store.row taskId := rfl

theorem stateOf_create (h : store.create id contextId sessionId metadata now = some store')
    (taskId : String) : store'.stateOf taskId =
      if taskId = id then some .submitted else store.stateOf taskId := by
  unfold stateOf
  rw [row_create h]
  split <;> rfl

theorem stateOf_updateStatus (store : TaskStore) (id : String) (status : TaskStatus)
    (now : Instant) (taskId : String) : (store.updateStatus id status now).stateOf taskId =
      (store.stateOf taskId).map fun state => if taskId = id then status.state else state := by
  unfold stateOf
  rw [row_updateStatus, Option.map_map, Option.map_map]
  congr 1
  funext row
  simp only [Function.comp_apply]
  split <;> rfl

theorem stateOf_updateStatus_known (hknown : store.stateOf id ≠ none) (status : TaskStatus)
    (now : Instant) (taskId : String) : (store.updateStatus id status now).stateOf taskId =
      if taskId = id then some status.state else store.stateOf taskId := by
  rw [stateOf_updateStatus]
  by_cases heq : taskId = id
  · obtain ⟨old, hold⟩ := ne_none_iff_exists'.mp hknown
    rw [if_pos heq, heq, hold, map_some, if_pos rfl]
  · simp only [if_neg heq, Option.map_id']

def Keyed (store : TaskStore) : Prop := (store.tasks.map TaskRow.id).Nodup

theorem keyed_create (h : store.create id contextId sessionId metadata now = some store')
    (hkeyed : store.Keyed) : store'.Keyed := by
  obtain ⟨hnone, htasks, -⟩ := create_eq_some h
  unfold Keyed
  rw [htasks, map_append]
  refine nodup_append.mpr ⟨hkeyed, nodup_singleton _, ?_⟩
  intro key hkey other hother heq
  obtain ⟨row, hrow, rfl⟩ := List.mem_map.mp hkey
  rw [map_singleton, mem_singleton] at hother
  exact Table.lookup_eq_none.mp hnone row hrow (heq.trans hother)

theorem keyed_updateStatus (hkeyed : store.Keyed) (id : String) (status : TaskStatus)
    (now : Instant) : (store.updateStatus id status now).Keyed := by
  have hkey : ∀ row : TaskRow, TaskRow.id { row with status := status, updatedAt := now } =
      row.id := fun _ => rfl
  unfold Keyed updateStatus
  rw [Table.map_key_modify hkey]
  exact hkeyed

theorem mem_of_sorted {rows : List TaskRow} {keep : TaskRow → Bool} {row : TaskRow}
    (h : row ∈ (rows.filter keep).insertionSort fun a b => b.createdAt ≤ a.createdAt) :
    row ∈ rows :=
  (mem_filter.mp ((mem_insertionSort _).mp h)).1

theorem stateOf_list (hkeyed : store.Keyed) {contextId : Option String} {limit offset : Option Nat}
    {task : Task} (h : task ∈ store.list contextId limit offset) :
    store.stateOf task.id = some task.status.state := by
  unfold list at h
  obtain ⟨row, hrow, rfl⟩ := List.mem_map.mp h
  have hmem : row ∈ store.tasks := by
    split at hrow
    · exact mem_of_sorted (mem_of_mem_drop hrow)
    · exact mem_of_sorted (mem_of_mem_drop hrow)
    · exact mem_of_sorted (mem_of_mem_drop (mem_of_mem_take hrow))
  have hlookup : store.row row.id = some row := (Table.lookup_eq_some hkeyed).mpr ⟨hmem, rfl⟩
  unfold stateOf rowToTask
  rw [hlookup]
  rfl

theorem getSessionId_updateStatus (store : TaskStore) (id : String) (status : TaskStatus)
    (now : Instant) (taskId : String) :
    (store.updateStatus id status now).getSessionId taskId = store.getSessionId taskId := by
  unfold getSessionId
  rw [row_updateStatus, Option.map_map]
  congr 1
  funext row
  simp only [Function.comp_apply]
  split <;> rfl

theorem getPushConfig_create (h : store.create id contextId sessionId metadata now = some store')
    (taskId : String) : store'.getPushConfig taskId = store.getPushConfig taskId := by
  unfold getPushConfig
  rw [(create_eq_some h).2.2]

@[simp] theorem getPushConfig_updateStatus (store : TaskStore) (id : String) (status : TaskStatus)
    (now : Instant) (taskId : String) :
    (store.updateStatus id status now).getPushConfig taskId = store.getPushConfig taskId := rfl

theorem getPushConfig_setPushConfig (store : TaskStore) (id : String)
    (config : PushNotificationConfig) (taskId : String) :
    (store.setPushConfig id config).getPushConfig taskId =
      if taskId = id then some config else store.getPushConfig taskId := by
  change (Table.lookup Prod.fst (store.pushConfigs.filter (fun entry => entry.1 ≠ id) ++
    [(id, config)]) taskId).map Prod.snd = _
  rw [Table.lookup_concat, Table.lookup_remove]
  by_cases heq : taskId = id
  · rw [if_pos heq, if_pos heq, if_pos heq.symm]
    rfl
  · rw [if_neg heq, if_neg heq, if_neg (Ne.symm heq), or_none]
    rfl

theorem stateOf_get {taskId : String} {task : Task} (h : store.get taskId = some task) :
    store.stateOf taskId = some task.status.state ∧ task.id = taskId := by
  unfold get at h
  obtain ⟨row, hrow, rfl⟩ := map_eq_some_iff.mp h
  exact ⟨congrArg (Option.map _) hrow, (Table.mem_of_lookup hrow).2⟩

def Placeholders (store : TaskStore) : Prop := ∀ row ∈ store.tasks, row.sessionId = row.contextId

theorem Placeholders.updateStatus (h : store.Placeholders) (id : String) (status : TaskStatus)
    (now : Instant) : (store.updateStatus id status now).Placeholders := by
  intro row hrow
  obtain ⟨old, hold, rfl⟩ := Table.mem_modify.mp hrow
  split
  · exact h old hold
  · exact h old hold

theorem Placeholders.getSessionIdForContext (h : store.Placeholders) {contextId found : String}
    (hfound : store.getSessionIdForContext contextId = some found) : found = contextId := by
  obtain ⟨row, hrow, rfl⟩ := map_eq_some_iff.mp hfound
  have hsorted := (mem_insertionSort _).mp (mem_of_head? hrow)
  obtain ⟨hmem, hcontext⟩ := mem_filter.mp hsorted
  rw [h row hmem]
  exact of_decide_eq_true hcontext

theorem Placeholders.getSessionIdForContext_of_mem (h : store.Placeholders) {row : TaskRow}
    (hrow : row ∈ store.tasks) :
    store.getSessionIdForContext row.contextId = some row.contextId := by
  have hmem : row ∈ (store.tasks.filter fun other => other.contextId = row.contextId).insertionSort
      fun a b => b.createdAt ≤ a.createdAt :=
    (mem_insertionSort _).mpr (mem_filter.mpr ⟨hrow, by simp⟩)
  cases hfound : store.getSessionIdForContext row.contextId with
  | some found => rw [h.getSessionIdForContext hfound]
  | none =>
    have hnil := head?_eq_none_iff.mp (map_eq_none_iff.mp hfound)
    rw [hnil] at hmem
    exact absurd hmem not_mem_nil

end TaskStore

end CrabbyKit.A2A
