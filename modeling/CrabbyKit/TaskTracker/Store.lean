import CrabbyKit.Core.Search
import CrabbyKit.Core.Table
import CrabbyKit.Session.Types

/-!
# The task store

`TaskStore` of `task-tracker/src/task-store.ts` over its tables `tasks` and `task_deps`. An
operation that throws keeps what it wrote before; the checker of write access and the id
that `nanoid()` draws come with each call.
-/

namespace CrabbyKit

/-- The status of a task; `opened` is `open`. -/
inductive TaskStatus
  | opened | inProgress | blocked | closed
  deriving DecidableEq, Repr

inductive TaskType
  | task | epic | bug
  deriving DecidableEq, Repr

inductive DepType
  | blocks | parentChild | related
  deriving DecidableEq, Repr

def TaskStatus.text : TaskStatus → String
  | .opened => "open"
  | .inProgress => "in_progress"
  | .blocked => "blocked"
  | .closed => "closed"

/-- `BLOCKING_DEP_TYPES`. -/
def DepType.blocking : DepType → Bool
  | .blocks => true
  | .parentChild => true
  | .related => false

/-- `VALID_TRANSITIONS`. -/
def TaskStatus.allowed : TaskStatus → List TaskStatus
  | .opened => [.inProgress, .closed]
  | .inProgress => [.closed, .blocked]
  | .blocked => [.inProgress, .closed]
  | .closed => []

/-- A row of `tasks`. -/
structure Task where
  id : String
  parentId : Option String
  ownerSession : String
  title : String
  description : String
  acceptance : String
  status : TaskStatus
  priority : Int
  type : TaskType
  createdAt : Stamp
  updatedAt : Stamp
  closedAt : Option Stamp
  closeReason : Option String
  deriving DecidableEq, Repr

/-- A row of `task_deps`: the source depends on the target. -/
structure TaskDep where
  sourceId : String
  targetId : String
  depType : DepType
  createdAt : Stamp
  deriving DecidableEq, Repr

/-- The rows of both tables in insertion order. -/
structure TaskStore where
  tasks : List Task := []
  deps : List TaskDep := []
  deriving DecidableEq, Repr

/-- The argument of `TaskStore.create`. -/
structure CreateTaskInput where
  title : String
  description : Option String := none
  acceptance : Option String := none
  type : Option TaskType := none
  priority : Option Int := none
  parentId : Option String := none
  dependsOn : List String := []
  deriving DecidableEq, Repr

/-- The argument of `TaskStore.update`. -/
structure UpdateTaskInput where
  status : Option TaskStatus := none
  priority : Option Int := none
  description : Option String := none
  acceptance : Option String := none
  deriving DecidableEq, Repr

/-- What an operation throws. -/
inductive TaskError
  | notFound (taskId : String)
  | auth (callerSession ownerSession : String)
  | cycle (path : List String)
  | invalidTransition (fromStatus toStatus : TaskStatus)
  | notRetrieved (taskId : String)
  | constraint (message : String)
  deriving DecidableEq, Repr

def TaskError.message : TaskError → String
  | .notFound taskId => s!"Task not found: {taskId}"
  | .auth callerSession ownerSession =>
    s!"Session \"{callerSession}\" does not have write access to tasks owned by " ++
      s!"\"{ownerSession}\""
  | .cycle path => "Adding dependency would create a cycle: " ++ " → ".intercalate path
  | .invalidTransition fromStatus toStatus =>
    "Invalid status transition: " ++ fromStatus.text ++ " → " ++ toStatus.text
  | .notRetrieved taskId => s!"Failed to retrieve task after creation: {taskId}"
  | .constraint message => message

inductive TaskTreeNode
  | node (task : Task) (depth : Nat) (children : List TaskTreeNode)

/-- An operation of the store. -/
inductive TaskOp
  | create (input : CreateTaskInput)
  | update (taskId : String) (input : UpdateTaskInput)
  | close (taskId reason : String)
  | deleteBySession
  | addDep (sourceId targetId : String) (depType : DepType)
  | removeDep (sourceId targetId : String)

/-- One call: the operation, the calling session, the checker of write access in force, the
id `nanoid()` yields to it, and the clock. -/
structure TaskCall where
  op : TaskOp
  callerSession : String
  authChecker : String → String → Bool := fun caller owner => caller = owner
  nanoid : String
  now : Instant

namespace TaskStore

/-- `SELECT * FROM tasks WHERE id = ?`. -/
def get (st : TaskStore) (taskId : String) : Option Task := Table.lookup Task.id st.tasks taskId

/-- The tasks that a blocking edge from a task names, in insertion order. -/
def blockers (st : TaskStore) (id : String) : List String :=
  (st.deps.filter fun d => d.sourceId = id && d.depType.blocking).map TaskDep.targetId

/-- `assertNoCycle`: walk from the target along blocking edges and meet the source. The fuel
covers every edge. -/
def closesCycle (st : TaskStore) (sourceId targetId : String) : Option Bool :=
  Search.search st.blockers sourceId (st.deps.length + 2) [targetId] []

/-- Insert an edge unless it closes a cycle; a taken pair violates the primary key. -/
def addDepInternal (sourceId targetId : String) (depType : DepType) (now : Instant)
    (st : TaskStore) : TaskStore × Except TaskError TaskDep :=
  if sourceId = targetId then (st, .error (.cycle [sourceId]))
  else if depType.blocking && st.closesCycle sourceId targetId ≠ some false then
    (st, .error (.cycle [sourceId, targetId]))
  else if st.deps.any fun d => d.sourceId = sourceId && d.targetId = targetId then
    (st, .error (.constraint
      "UNIQUE constraint failed: task_deps.source_id, task_deps.target_id"))
  else
    let dep : TaskDep := ⟨sourceId, targetId, depType, datetimeNow now⟩
    ({ st with deps := st.deps ++ [dep] }, .ok dep)

/-- Insert blocking edges in order, up to the first that throws. -/
def addDeps (sourceId : String) (now : Instant) :
    List String → TaskStore → TaskStore × Except TaskError Unit
  | [], st => (st, .ok ())
  | targetId :: rest, st =>
    match st.addDepInternal sourceId targetId .blocks now with
    | (st, .error e) => (st, .error e)
    | (st, .ok _) => addDeps sourceId now rest st

/-- The row a creation inserts. -/
def newTask (callerSession : String) (input : CreateTaskInput) (id : String) (now : Instant) :
    Task where
  id := id
  parentId := input.parentId
  ownerSession := callerSession
  title := input.title
  description := input.description.getD ""
  acceptance := input.acceptance.getD ""
  status := .opened
  priority := input.priority.getD 2
  type := input.type.getD .task
  createdAt := toISOString now
  updatedAt := toISOString now
  closedAt := none
  closeReason := none

def namedParent (input : CreateTaskInput) : Option String :=
  input.parentId.filter fun parentId => parentId ≠ ""

/-- Insert the edge to the parent, if one is named. -/
def addParentDep (id : String) (parent : Option String) (now : Instant) (st : TaskStore) :
    TaskStore × Except TaskError Unit :=
  match parent with
  | none => (st, .ok ())
  | some parentId =>
    match st.addDepInternal id parentId .parentChild now with
    | (st, .error e) => (st, .error e)
    | (st, .ok _) => (st, .ok ())

/-- Insert the row of a task, then its edges: to its parent first. -/
def insert (callerSession : String) (input : CreateTaskInput) (nanoid : String) (now : Instant)
    (st : TaskStore) : TaskStore × Except TaskError Task :=
  if (st.get nanoid).isSome then (st, .error (.constraint "UNIQUE constraint failed: tasks.id"))
  else
    let task := newTask callerSession input nanoid now
    match addParentDep nanoid (namedParent input) now { st with tasks := st.tasks ++ [task] } with
    | (st, .error e) => (st, .error e)
    | (st, .ok ()) =>
      match addDeps nanoid now input.dependsOn st with
      | (st, .error e) => (st, .error e)
      | (st, .ok ()) => (st, (st.get nanoid).elim (.error (.notRetrieved nanoid)) .ok)

variable (authChecker : String → String → Bool)

def create (callerSession : String) (input : CreateTaskInput) (nanoid : String) (now : Instant)
    (st : TaskStore) : TaskStore × Except TaskError Task :=
  match namedParent input with
  | none => st.insert callerSession input nanoid now
  | some parentId =>
    match st.get parentId with
    | none => (st, .error (.notFound parentId))
    | some parent =>
      if authChecker callerSession parent.ownerSession then
        st.insert callerSession input nanoid now
      else (st, .error (.auth callerSession parent.ownerSession))

def list (st : TaskStore) (ownerSession : Option String) : List Task :=
  (st.tasks.filter fun task =>
    ownerSession.all fun owner => owner = "" || task.ownerSession = owner).insertionSort
      fun a b => a.createdAt.le b.createdAt

/-- `UPDATE tasks SET ... WHERE id = ?`. -/
def updateRow (st : TaskStore) (taskId : String) (f : Task → Task) : TaskStore :=
  { st with tasks := Table.modify Task.id taskId f st.tasks }

/-- The row with the given fields set. -/
def applyUpdate (input : UpdateTaskInput) (now : Instant) (task : Task) : Task :=
  { task with
    status := input.status.getD task.status
    priority := input.priority.getD task.priority
    description := input.description.getD task.description
    acceptance := input.acceptance.getD task.acceptance
    updatedAt := datetimeNow now }

def update (callerSession taskId : String) (input : UpdateTaskInput) (now : Instant)
    (st : TaskStore) : TaskStore × Except TaskError Task :=
  match st.get taskId with
  | none => (st, .error (.notFound taskId))
  | some task =>
    if authChecker callerSession task.ownerSession then
      match input.status.filter fun status => status ∉ task.status.allowed with
      | some status => (st, .error (.invalidTransition task.status status))
      | none =>
        if input = {} then (st, .ok task)
        else (st.updateRow taskId (applyUpdate input now), .ok (applyUpdate input now task))
    else (st, .error (.auth callerSession task.ownerSession))

def closeTask (reason : String) (now : Instant) (task : Task) : Task :=
  { task with
    status := .closed
    closeReason := some reason
    closedAt := some (datetimeNow now)
    updatedAt := datetimeNow now }

def close (callerSession taskId reason : String) (now : Instant) (st : TaskStore) :
    TaskStore × Except TaskError Task :=
  match st.get taskId with
  | none => (st, .error (.notFound taskId))
  | some task =>
    if authChecker callerSession task.ownerSession then
      if .closed ∈ task.status.allowed then
        (st.updateRow taskId (closeTask reason now), .ok (closeTask reason now task))
      else (st, .error (.invalidTransition task.status .closed))
    else (st, .error (.auth callerSession task.ownerSession))

def deleteBySession (callerSession : String) (st : TaskStore) : TaskStore × Nat :=
  let listed := st.list (some callerSession)
  if listed.length = 0 then (st, 0)
  else
    let owned := (st.tasks.filter fun task => task.ownerSession = callerSession).map Task.id
    ({ tasks := st.tasks.filter fun task => task.ownerSession ≠ callerSession
       deps := st.deps.filter fun d => d.sourceId ∉ owned }, listed.length)

def addDep (callerSession sourceId targetId : String) (depType : DepType) (now : Instant)
    (st : TaskStore) : TaskStore × Except TaskError TaskDep :=
  match st.get sourceId with
  | none => (st, .error (.notFound sourceId))
  | some source =>
    if authChecker callerSession source.ownerSession then
      match st.get targetId with
      | none => (st, .error (.notFound targetId))
      | some _ => st.addDepInternal sourceId targetId depType now
    else (st, .error (.auth callerSession source.ownerSession))

def removeDep (callerSession sourceId targetId : String) (st : TaskStore) :
    TaskStore × Except TaskError Unit :=
  match st.get sourceId with
  | none => (st, .error (.notFound sourceId))
  | some source =>
    if authChecker callerSession source.ownerSession then
      ({ st with
          deps := st.deps.filter fun d => ¬ (d.sourceId = sourceId ∧ d.targetId = targetId) },
        .ok ())
    else (st, .error (.auth callerSession source.ownerSession))

/-- The state after a call; what it throws is its caller's. -/
def step (st : TaskStore) (c : TaskCall) : TaskStore :=
  match c.op with
  | .create input => (st.create c.authChecker c.callerSession input c.nanoid c.now).1
  | .update taskId input => (st.update c.authChecker c.callerSession taskId input c.now).1
  | .close taskId reason => (st.close c.authChecker c.callerSession taskId reason c.now).1
  | .deleteBySession => (st.deleteBySession c.callerSession).1
  | .addDep sourceId targetId depType =>
    (st.addDep c.authChecker c.callerSession sourceId targetId depType c.now).1
  | .removeDep sourceId targetId =>
    (st.removeDep c.authChecker c.callerSession sourceId targetId).1

/-- Open tasks none of whose blocking edges leads to an unclosed task, by priority, then
oldest first; optionally those of one session. -/
def ready (st : TaskStore) (ownerSession : Option String) : List Task :=
  let free := st.tasks.filter fun task =>
    task.status = .opened && ownerSession.all (fun owner => owner = "" || task.ownerSession = owner)
      && !(st.deps.any fun d => d.sourceId = task.id && d.depType.blocking &&
        st.tasks.any fun blocker => blocker.id = d.targetId && blocker.status ≠ .closed)
  (free.insertionSort fun a b => a.createdAt.le b.createdAt).insertionSort fun a b =>
    a.priority ≤ b.priority

def children (st : TaskStore) (id : String) : List Task :=
  (st.tasks.filter fun task => task.parentId = some id).insertionSort fun a b =>
    a.createdAt.le b.createdAt

/-- `buildTreeRecursive`; absent when the fuel runs out. -/
def buildTree (st : TaskStore) : Nat → Task → Nat → Option TaskTreeNode
  | 0, _, _ => none
  | fuel + 1, task, depth =>
    ((st.children task.id).mapM fun child => buildTree st fuel child (depth + 1)).map
      (.node task depth)

def tree (st : TaskStore) (fuel : Nat) (rootId : String) : Option (Option TaskTreeNode) :=
  match st.get rootId with
  | none => some none
  | some root => (st.buildTree fuel root 0).map some

/-- A row update that keeps the fields of the tree. -/
structure KeepsTree (f : Task → Task) : Prop where
  id : ∀ task, (f task).id = task.id
  parentId : ∀ task, (f task).parentId = task.parentId

inductive Effect (st : TaskStore) (c : TaskCall) : TaskStore → Prop
  | unchanged : Effect st c st
  | written (taskId : String) (f : Task → Task) (hf : KeepsTree f) :
    Effect st c (st.updateRow taskId f)
  | inserted (input : CreateTaskInput) (hop : c.op = .create input)
    (hparent : ∀ parentId, namedParent input = some parentId →
      ∃ parent ∈ st.tasks, parent.id = parentId) :
    Effect st c (st.insert c.callerSession input c.nanoid c.now).1
  | deleted (hop : c.op = .deleteBySession) : Effect st c
    { tasks := st.tasks.filter fun task => task.ownerSession ≠ c.callerSession
      deps := st.deps.filter fun d =>
        d.sourceId ∉ (st.tasks.filter fun task => task.ownerSession = c.callerSession).map Task.id }
  | linked (sourceId targetId : String) (depType : DepType)
    (hsource : ∃ source ∈ st.tasks, source.id = sourceId)
    (htarget : ∃ target ∈ st.tasks, target.id = targetId) :
    Effect st c (st.addDepInternal sourceId targetId depType c.now).1
  | unlinked (sourceId targetId : String) : Effect st c
    { st with deps := st.deps.filter fun d => ¬ (d.sourceId = sourceId ∧ d.targetId = targetId) }

section Effects

variable {st : TaskStore} {c : TaskCall}

theorem create_effect {input : CreateTaskInput} (hop : c.op = .create input) :
    Effect st c (st.create c.authChecker c.callerSession input c.nanoid c.now).1 := by
  unfold create
  cases hnamed : namedParent input with
  | none =>
    refine .inserted input hop fun parentId hparent => ?_
    rw [hnamed] at hparent
    cases hparent
  | some parentId =>
    simp only
    cases hget : st.get parentId with
    | none => exact .unchanged
    | some parent =>
      simp only
      split_ifs
      · refine .inserted input hop fun other hparent => ?_
        rw [hnamed] at hparent
        obtain rfl := Option.some.inj hparent
        exact ⟨parent, Table.mem_of_lookup hget⟩
      · exact .unchanged

theorem update_effect (taskId : String) (input : UpdateTaskInput) :
    Effect st c (st.update c.authChecker c.callerSession taskId input c.now).1 := by
  unfold update
  cases st.get taskId with
  | none => exact .unchanged
  | some task =>
    simp only
    by_cases hauth : c.authChecker c.callerSession task.ownerSession = true
    · rw [if_pos hauth]
      cases input.status.filter fun status => status ∉ task.status.allowed with
      | some status => exact .unchanged
      | none =>
        by_cases hempty : input = {}
        · rw [if_pos hempty]
          exact .unchanged
        · rw [if_neg hempty]
          exact .written taskId (applyUpdate input c.now) ⟨fun _ => rfl, fun _ => rfl⟩
    · rw [if_neg hauth]
      exact .unchanged

theorem close_effect (taskId reason : String) :
    Effect st c (st.close c.authChecker c.callerSession taskId reason c.now).1 := by
  unfold close
  cases st.get taskId with
  | none => exact .unchanged
  | some task =>
    simp only
    split_ifs
    · exact .written taskId (closeTask reason c.now) ⟨fun _ => rfl, fun _ => rfl⟩
    · exact .unchanged
    · exact .unchanged

theorem addDep_effect (sourceId targetId : String) (depType : DepType) :
    Effect st c (st.addDep c.authChecker c.callerSession sourceId targetId depType c.now).1 := by
  unfold addDep
  cases hsource : st.get sourceId with
  | none => exact .unchanged
  | some source =>
    simp only
    split_ifs
    · cases htarget : st.get targetId with
      | none => exact .unchanged
      | some target =>
        exact .linked sourceId targetId depType ⟨source, Table.mem_of_lookup hsource⟩
          ⟨target, Table.mem_of_lookup htarget⟩
    · exact .unchanged

theorem removeDep_effect (sourceId targetId : String) :
    Effect st c (st.removeDep c.authChecker c.callerSession sourceId targetId).1 := by
  unfold removeDep
  cases st.get sourceId with
  | none => exact .unchanged
  | some source =>
    simp only
    split_ifs
    · exact .unlinked sourceId targetId
    · exact .unchanged

theorem step_effect (st : TaskStore) (c : TaskCall) : Effect st c (st.step c) := by
  unfold step
  cases hop : c.op with
  | create input => exact create_effect hop
  | update taskId input => exact update_effect taskId input
  | close taskId reason => exact close_effect taskId reason
  | deleteBySession =>
    simp only [deleteBySession]
    split_ifs
    · exact .unchanged
    · exact .deleted hop
  | addDep sourceId targetId depType => exact addDep_effect sourceId targetId depType
  | removeDep sourceId targetId => exact removeDep_effect sourceId targetId

end Effects

end TaskStore

end CrabbyKit
