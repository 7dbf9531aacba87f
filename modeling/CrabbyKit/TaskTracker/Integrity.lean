import CrabbyKit.TaskTracker.Graph

/-!
# Referential integrity of the task store

Edges and parents name existing tasks as long as creations depend on existing tasks only and
no session is deleted on which tasks of another one depend.
-/

namespace CrabbyKit.TaskStore

open List

def HasTask (st : TaskStore) (id : String) : Prop := ∃ task ∈ st.tasks, task.id = id

/-- Both ends of every edge and the parent of every task exist. -/
structure Integral (st : TaskStore) : Prop where
  sources : ∀ d ∈ st.deps, st.HasTask d.sourceId
  targets : ∀ d ∈ st.deps, st.HasTask d.targetId
  parents : ∀ task ∈ st.tasks, ∀ parentId, task.parentId = some parentId → st.HasTask parentId

/-- Every blocking edge of a ready task leads to a closed task. -/
def ReadySound (st : TaskStore) : Prop :=
  ∀ ownerSession, ∀ task ∈ st.ready ownerSession, ∀ d ∈ st.deps, d.sourceId = task.id →
    d.depType.blocking = true →
      ∃ blocker ∈ st.tasks, blocker.id = d.targetId ∧ blocker.status = .closed

def Owned (st : TaskStore) (session id : String) : Prop :=
  ∃ task ∈ st.tasks, task.ownerSession = session ∧ task.id = id

/-- The calls that keep integrity: a creation names no empty parent and depends on existing
tasks, and a deleted session is not depended on from outside. -/
def IntegrityCovered (st : TaskStore) (c : TaskCall) : Prop :=
  match c.op with
  | .create input =>
    input.parentId ≠ some "" ∧ ∀ targetId ∈ input.dependsOn, st.HasTask targetId
  | .deleteBySession =>
    (∀ d ∈ st.deps, st.Owned c.callerSession d.targetId → st.Owned c.callerSession d.sourceId) ∧
      ∀ task ∈ st.tasks, ∀ parentId, task.parentId = some parentId →
        st.Owned c.callerSession parentId → task.ownerSession = c.callerSession
  | _ => True

section Steps

variable {st st' : TaskStore} {sourceId targetId : String} {depType : DepType} {now : Instant}

theorem integral_empty : Integral {} where
  sources := fun _ hd => absurd hd not_mem_nil
  targets := fun _ hd => absurd hd not_mem_nil
  parents := fun _ htask => absurd htask not_mem_nil

theorem Integral.readySound (h : st.Integral) : st.ReadySound := by
  intro ownerSession task htask d hd hsource hblocking
  unfold ready at htask
  simp only [mem_insertionSort, mem_filter, Bool.and_eq_true, Bool.not_eq_true'] at htask
  obtain ⟨-, -, hfree⟩ := htask
  obtain ⟨blocker, hblocker, hid⟩ := h.targets d hd
  refine ⟨blocker, hblocker, hid, ?_⟩
  by_contra hopen
  rw [any_eq_false] at hfree
  have hblocks := hfree d hd
  apply hblocks
  rw [Bool.and_eq_true, Bool.and_eq_true, decide_eq_true_eq, any_eq_true]
  refine ⟨⟨hsource, hblocking⟩, blocker, hblocker, ?_⟩
  rw [Bool.and_eq_true, decide_eq_true_eq, decide_eq_true_eq]
  exact ⟨hid, hopen⟩

theorem Integral.subset (h : st.Integral) {deps : List TaskDep} (hdeps : ∀ d ∈ deps, d ∈ st.deps) :
    Integral { st with deps := deps } where
  sources := fun d hd => h.sources d (hdeps d hd)
  targets := fun d hd => h.targets d (hdeps d hd)
  parents := h.parents

theorem Integral.updateRow (h : st.Integral) {f : Task → Task} (hf : KeepsTree f)
    (taskId : String) : (st.updateRow taskId f).Integral := by
  have hexists : ∀ {id : String}, st.HasTask id → (st.updateRow taskId f).HasTask id := by
    rintro id ⟨task, htask, hid⟩
    refine ⟨_, Table.mem_modify.mpr ⟨task, htask, rfl⟩, ?_⟩
    split_ifs
    · rw [hf.id]
      exact hid
    · exact hid
  refine ⟨fun d hd => hexists (h.sources d hd), fun d hd => hexists (h.targets d hd), ?_⟩
  intro task htask parentId hparent
  obtain ⟨old, hold, -, hsame⟩ := within_updateRow hf st taskId task htask
  exact hexists (h.parents old hold parentId (hsame.trans hparent))

theorem Integral.addDepInternal (h : st.Integral) (hsource : st.HasTask sourceId)
    (htarget : st.HasTask targetId) (depType : DepType) (now : Instant) :
    (st.addDepInternal sourceId targetId depType now).1.Integral ∧
      (st.addDepInternal sourceId targetId depType now).1.tasks = st.tasks := by
  rcases st.addDepInternal_cases sourceId targetId depType now with
    ⟨-, heq⟩ | ⟨-, -, -, heq⟩ | ⟨-, -, ⟨-, message, heq⟩ | ⟨-, heq⟩⟩
  · rw [heq]
    exact ⟨h, rfl⟩
  · rw [heq]
    exact ⟨h, rfl⟩
  · rw [heq]
    exact ⟨h, rfl⟩
  · rw [heq]
    refine ⟨⟨?_, ?_, h.parents⟩, rfl⟩
    · intro d hd
      rcases mem_append.mp hd with hd | hd
      · exact h.sources d hd
      · rw [mem_singleton.mp hd]
        exact hsource
    · intro d hd
      rcases mem_append.mp hd with hd | hd
      · exact h.targets d hd
      · rw [mem_singleton.mp hd]
        exact htarget

theorem Integral.addDeps (h : st.Integral) (hsource : st.HasTask sourceId) {targets : List String}
    (htargets : ∀ targetId ∈ targets, st.HasTask targetId) (now : Instant) :
    (st.addDeps sourceId now targets).1.Integral := by
  induction targets generalizing st with
  | nil => exact h
  | cons targetId rest ih =>
    obtain ⟨hone, htasks⟩ :=
      h.addDepInternal hsource (htargets targetId mem_cons_self) .blocks now
    unfold TaskStore.addDeps
    split
    · rename_i heq
      rw [heq] at hone
      exact hone
    · rename_i st' _ heq
      rw [heq] at hone htasks
      have hsame : ∀ {id : String}, st.HasTask id → st'.HasTask id := by
        intro id hid
        unfold HasTask
        rw [htasks]
        exact hid
      exact ih hone (hsame hsource) fun id hid =>
        hsame (htargets id (mem_cons_of_mem targetId hid))

theorem Integral.addParentDep (h : st.Integral) (hsource : st.HasTask sourceId)
    {parent : Option String} (hparent : ∀ parentId, parent = some parentId → st.HasTask parentId)
    (now : Instant) :
    (st.addParentDep sourceId parent now).1.Integral ∧
      (st.addParentDep sourceId parent now).1.tasks = st.tasks := by
  cases parent with
  | none => exact ⟨h, rfl⟩
  | some parentId =>
    rw [addParentDep_some]
    exact h.addDepInternal hsource (hparent parentId rfl) .parentChild now

theorem Integral.insert (h : st.Integral) (callerSession : String) {input : CreateTaskInput}
    (hempty : input.parentId ≠ some "")
    (hparent : ∀ parentId, namedParent input = some parentId → st.HasTask parentId)
    (htargets : ∀ targetId ∈ input.dependsOn, st.HasTask targetId) (nanoid : String)
    (now : Instant) : (st.insert callerSession input nanoid now).1.Integral := by
  unfold TaskStore.insert
  split_ifs
  · exact h
  · let new : Task := newTask callerSession input nanoid now
    have hmore : ∀ {id : String}, st.HasTask id →
        HasTask { st with tasks := st.tasks ++ [new] } id := by
      rintro id ⟨task, htask, hid⟩
      exact ⟨task, mem_append_left _ htask, hid⟩
    have hself : HasTask { st with tasks := st.tasks ++ [new] } nanoid :=
      ⟨new, mem_append_right _ (mem_singleton_self new), rfl⟩
    have hnew : Integral { st with tasks := st.tasks ++ [new] } := by
      refine ⟨fun d hd => hmore (h.sources d hd), fun d hd => hmore (h.targets d hd), ?_⟩
      intro task htask parentId hp
      rcases mem_append.mp htask with htask | htask
      · exact hmore (h.parents task htask parentId hp)
      · rw [mem_singleton.mp htask] at hp
        have hinput : input.parentId = some parentId := hp
        have hne : parentId ≠ "" := by
          rintro rfl
          exact hempty hinput
        refine hmore (hparent parentId ?_)
        unfold namedParent
        rw [hinput]
        simp [hne]
    obtain ⟨hlinked, htasks⟩ :=
      hnew.addParentDep hself (fun parentId hp => hmore (hparent parentId hp)) now
    simp only
    split
    · rename_i heq
      rw [heq] at hlinked
      exact hlinked
    · rename_i st' heq
      rw [heq] at hlinked htasks
      have hsame : ∀ {id : String}, HasTask { st with tasks := st.tasks ++ [new] } id →
          st'.HasTask id := by
        intro id hid
        unfold HasTask
        rw [htasks]
        exact hid
      have hdeps := hlinked.addDeps (hsame hself)
        (fun targetId htarget => hsame (hmore (htargets targetId htarget))) now
      split
      · rename_i heq
        rw [heq] at hdeps
        exact hdeps
      · rename_i heq
        rw [heq] at hdeps
        exact hdeps

theorem Integral.step (h : st.Integral) {c : TaskCall} (hc : IntegrityCovered st c) :
    (st.step c).Integral := by
  have heffect := step_effect st c
  generalize st.step c = st' at heffect ⊢
  unfold IntegrityCovered at hc
  cases heffect with
  | unchanged => exact h
  | written taskId f hf => exact h.updateRow hf taskId
  | inserted input hop hparent =>
    rw [hop] at hc
    exact h.insert c.callerSession hc.1 hparent hc.2 c.nanoid c.now
  | deleted hop =>
    rw [hop] at hc
    obtain ⟨hdeps, hparents⟩ := hc
    have howned : ∀ {id : String}, id ∈ (st.tasks.filter fun task =>
        task.ownerSession = c.callerSession).map Task.id ↔ st.Owned c.callerSession id := by
      intro id
      unfold Owned
      simp only [mem_map, mem_filter, decide_eq_true_eq, and_assoc]
    have hkept : ∀ {id : String}, st.HasTask id → ¬ st.Owned c.callerSession id →
        ∃ task ∈ st.tasks.filter fun task => task.ownerSession ≠ c.callerSession,
          task.id = id := by
      rintro id ⟨task, htask, hid⟩ hnot
      refine ⟨task, mem_filter.mpr ⟨htask, ?_⟩, hid⟩
      exact decide_eq_true fun howner => hnot ⟨task, htask, howner, hid⟩
    refine ⟨?_, ?_, ?_⟩
    · intro d hd
      rw [mem_filter, decide_eq_true_eq, howned] at hd
      exact hkept (h.sources d hd.1) hd.2
    · intro d hd
      rw [mem_filter, decide_eq_true_eq, howned] at hd
      exact hkept (h.targets d hd.1) fun htarget => hd.2 (hdeps d hd.1 htarget)
    · intro task htask parentId hp
      rw [mem_filter, decide_eq_true_eq] at htask
      exact hkept (h.parents task htask.1 parentId hp) fun hparent =>
        htask.2 (hparents task htask.1 parentId hp hparent)
  | linked sourceId targetId depType hsource htarget =>
    exact (h.addDepInternal hsource htarget depType c.now).1
  | unlinked => exact h.subset fun d hd => mem_of_mem_filter hd

end Steps

/-- In every run of covered calls the store is integral after every call, and what blocks a
ready task is closed. -/
theorem integral_run {calls : List TaskCall} (h : Run.Allowed IntegrityCovered step {} calls) :
    ∀ before after, calls = before ++ after →
      Integral (Run.run step {} before) ∧ ReadySound (Run.run step {} before) := by
  intro before after hsplit
  have hstep : ∀ st c, Integral st → IntegrityCovered st c → Integral (step st c) :=
    fun st c hst hc => hst.step hc
  have hintegral := Run.invariant_of_allowed integral_empty hstep h before after hsplit
  exact ⟨hintegral, hintegral.readySound⟩

/-- A session that plans a task, a part of it and a task that waits for it, and is
deleted. -/
def plannedCalls : List TaskCall :=
  [{ op := .create { title := "Plan" }, callerSession := "s", nanoid := "a", now := 0 },
    { op := .create { title := "Part", parentId := some "a" }, callerSession := "s",
      nanoid := "b", now := 1 },
    { op := .create { title := "Wait", dependsOn := ["a"] }, callerSession := "s",
      nanoid := "c", now := 2 },
    { op := .deleteBySession, callerSession := "s", nanoid := "", now := 3 }]

theorem plannedCalls_covered : Run.Allowed IntegrityCovered step {} plannedCalls := by
  refine Run.allowed_cons ⟨nofun, fun _ h => absurd h not_mem_nil⟩ ?_
  refine Run.allowed_cons ⟨nofun, fun _ h => absurd h not_mem_nil⟩ ?_
  refine Run.allowed_cons ⟨nofun, ?_⟩ (Run.allowed_cons ⟨?_, ?_⟩ (Run.allowed_nil _ _ _))
  · intro targetId htarget
    obtain rfl := mem_singleton.mp htarget
    exact ⟨_, mem_cons_self, rfl⟩
  · intro d hd _
    have howner : ∀ d ∈ (Run.run step {} (plannedCalls.take 3)).deps,
        ∃ task ∈ (Run.run step {} (plannedCalls.take 3)).tasks,
          task.ownerSession = "s" ∧ task.id = d.sourceId := by decide
    exact howner d hd
  · intro task htask _ _ _
    have howner : ∀ task ∈ (Run.run step {} (plannedCalls.take 3)).tasks,
        task.ownerSession = "s" := by decide
    exact howner task htask

/-- After them the store is integral. -/
theorem integral_run_planned :
    Integral (Run.run step {} plannedCalls) ∧ ReadySound (Run.run step {} plannedCalls) :=
  integral_run plannedCalls_covered plannedCalls [] (append_nil _).symm

/-- A task that depends on one that never existed. -/
def ghostCalls : List TaskCall :=
  [{ op := .create { title := "Wait", dependsOn := ["ghost"] }, callerSession := "s",
     nanoid := "c", now := 0 }]

def foreignCalls : List TaskCall :=
  [{ op := .create { title := "Plan" }, callerSession := "s", nanoid := "a", now := 0 },
    { op := .create { title := "Wait", dependsOn := ["a"] }, callerSession := "t",
      nanoid := "c", now := 1 },
    { op := .deleteBySession, callerSession := "s", nanoid := "", now := 2 }]

/-- Both leave an edge without a target, and a task ready that waits for nothing that is
closed. -/
theorem ghost_and_foreign_ready :
    (¬ Integral (Run.run step {} ghostCalls) ∧ ¬ ReadySound (Run.run step {} ghostCalls)) ∧
      ¬ Integral (Run.run step {} foreignCalls) ∧ ¬ ReadySound (Run.run step {} foreignCalls) := by
  have hghost : ¬ ReadySound (Run.run step {} ghostCalls) := by
    intro h
    obtain ⟨blocker, hblocker, hid, -⟩ := h none _ mem_cons_self _ mem_cons_self rfl rfl
    obtain rfl := mem_singleton.mp hblocker
    exact absurd hid (by decide)
  have hforeign : ¬ ReadySound (Run.run step {} foreignCalls) := by
    intro h
    obtain ⟨blocker, hblocker, hid, -⟩ := h none _ mem_cons_self _ mem_cons_self rfl rfl
    obtain rfl := mem_singleton.mp hblocker
    exact absurd hid (by decide)
  exact ⟨⟨fun h => hghost h.readySound, hghost⟩, fun h => hforeign h.readySound, hforeign⟩

end CrabbyKit.TaskStore
