import CrabbyKit.Core.Run
import CrabbyKit.TaskTracker.Store
import Mathlib.Algebra.BigOperators.Group.List.Lemmas

/-!
# The task graph

The blocking edges of a store never close a cycle, since every one of them passed the
check, and parents are older than their children, since a parent exists when its child is
created and ids are never drawn twice.
-/

namespace CrabbyKit.TaskStore

open Relation Search List

/-- A blocking edge leads from one task to another. -/
def Blocks (st : TaskStore) (a b : String) : Prop := b ∈ st.blockers a

def ParentOf (st : TaskStore) (child parent : String) : Prop :=
  ∃ task ∈ st.tasks, task.id = child ∧ task.parentId = some parent

/-- An edge of some type leads from one task to another. -/
def Linked (st : TaskStore) (a b : String) : Prop :=
  ∃ d ∈ st.deps, d.sourceId = a ∧ d.targetId = b

section Edges

variable {st st' : TaskStore} {sourceId targetId : String} {depType : DepType} {now : Instant}

theorem blocks_iff {a b : String} : st.Blocks a b ↔
    ∃ d ∈ st.deps, d.sourceId = a ∧ d.targetId = b ∧ d.depType.blocking = true := by
  unfold Blocks blockers
  rw [mem_map]
  constructor
  · rintro ⟨d, hd, hb⟩
    rw [mem_filter, Bool.and_eq_true, decide_eq_true_eq] at hd
    exact ⟨d, hd.1, hd.2.1, hb, hd.2.2⟩
  · rintro ⟨d, hd, ha, hb, hblocking⟩
    refine ⟨d, ?_, hb⟩
    rw [mem_filter, Bool.and_eq_true, decide_eq_true_eq]
    exact ⟨hd, ha, hblocking⟩

theorem blocks_mono (h : ∀ d ∈ st'.deps, d ∈ st.deps) (a b : String) (hab : st'.Blocks a b) :
    st.Blocks a b := by
  obtain ⟨d, hd, hedge⟩ := blocks_iff.mp hab
  exact blocks_iff.mpr ⟨d, h d hd, hedge⟩

theorem blockers_eq_nil {id : String} (h : id ∉ (st.deps.map TaskDep.sourceId).dedup) :
    st.blockers id = [] := by
  rw [mem_dedup, mem_map, not_exists] at h
  unfold blockers
  rw [map_eq_nil_iff, filter_eq_nil_iff]
  intro d hd
  have hne : d.sourceId ≠ id := fun heq => h d ⟨hd, heq⟩
  simp [hne]

theorem unwalked_le (st : TaskStore) :
    unwalked st.blockers (st.deps.map TaskDep.sourceId).dedup [] ≤ st.deps.length := by
  have hcount : ∀ id ∈ (st.deps.map TaskDep.sourceId).dedup, (st.blockers id).length ≤
      (st.deps.map TaskDep.sourceId).count id := by
    intro id _
    unfold blockers
    rw [length_map, ← countP_eq_length_filter, List.count, countP_map]
    refine countP_mono_left fun d _ hd => ?_
    rw [Bool.and_eq_true, decide_eq_true_eq] at hd
    simp [hd.1]
  calc unwalked st.blockers (st.deps.map TaskDep.sourceId).dedup []
      = ((st.deps.map TaskDep.sourceId).dedup.map fun id => (st.blockers id).length).sum := by
        unfold unwalked
        simp
    _ ≤ ((st.deps.map TaskDep.sourceId).dedup.map fun id =>
          (st.deps.map TaskDep.sourceId).count id).sum := sum_le_sum hcount
    _ = st.deps.length := by
        rw [sum_map_count_dedup_eq_length, length_map]

theorem closesCycle_returns (st : TaskStore) (sourceId targetId : String) :
    ∃ found, st.closesCycle sourceId targetId = some found := by
  have hedges := st.unwalked_le
  refine search_returns (fun v hv => blockers_eq_nil hv) ?_
  rw [length_singleton]
  omega

theorem closesCycle_eq_false :
    st.closesCycle sourceId targetId = some false ↔ ¬ ReflTransGen st.Blocks targetId sourceId := by
  obtain ⟨found, hfound⟩ := st.closesCycle_returns sourceId targetId
  have hiff : found = true ↔ ReflTransGen st.Blocks targetId sourceId := search_iff hfound
  rw [← hiff, hfound, Option.some.injEq, Bool.not_eq_true]

theorem addDepInternal_cases (st : TaskStore) (sourceId targetId : String) (depType : DepType)
    (now : Instant) :
    (sourceId = targetId ∧
        st.addDepInternal sourceId targetId depType now = (st, .error (.cycle [sourceId]))) ∨
      (sourceId ≠ targetId ∧ depType.blocking = true ∧ ReflTransGen st.Blocks targetId sourceId ∧
        st.addDepInternal sourceId targetId depType now =
          (st, .error (.cycle [sourceId, targetId]))) ∨
      (sourceId ≠ targetId ∧
        (depType.blocking = true → ¬ ReflTransGen st.Blocks targetId sourceId) ∧
        ((st.Linked sourceId targetId ∧ ∃ message,
            st.addDepInternal sourceId targetId depType now =
              (st, .error (.constraint message))) ∨
          (¬ st.Linked sourceId targetId ∧
            st.addDepInternal sourceId targetId depType now =
              ({ st with deps := st.deps ++ [⟨sourceId, targetId, depType, datetimeNow now⟩] },
                .ok ⟨sourceId, targetId, depType, datetimeNow now⟩)))) := by
  unfold addDepInternal
  by_cases hself : sourceId = targetId
  · exact Or.inl ⟨hself, if_pos hself⟩
  · rw [if_neg hself]
    right
    by_cases hcheck : depType.blocking = true ∧ st.closesCycle sourceId targetId ≠ some false
    · left
      refine ⟨hself, hcheck.1, ?_, ?_⟩
      · by_contra hreach
        exact hcheck.2 (closesCycle_eq_false.mpr hreach)
      · rw [if_pos (by simpa using hcheck)]
    · right
      refine ⟨hself, fun hblocking => ?_, ?_⟩
      · rw [← closesCycle_eq_false]
        by_contra hne
        exact hcheck ⟨hblocking, hne⟩
      · rw [if_neg (by simpa using hcheck)]
        have hlinked : (st.deps.any fun d => d.sourceId = sourceId && d.targetId = targetId) =
            true ↔ st.Linked sourceId targetId := by
          unfold Linked
          simp
        by_cases hpair : st.Linked sourceId targetId
        · exact Or.inl ⟨hpair, _, if_pos (hlinked.mpr hpair)⟩
        · exact Or.inr ⟨hpair, if_neg fun h => hpair (hlinked.mp h)⟩

theorem addDepInternal_tasks (st : TaskStore) (sourceId targetId : String) (depType : DepType)
    (now : Instant) : (st.addDepInternal sourceId targetId depType now).1.tasks = st.tasks := by
  rcases st.addDepInternal_cases sourceId targetId depType now with
    ⟨-, heq⟩ | ⟨-, -, -, heq⟩ | ⟨-, -, ⟨-, message, heq⟩ | ⟨-, heq⟩⟩
  · rw [heq]
  · rw [heq]
  · rw [heq]
  · rw [heq]

theorem blocks_append {d : TaskDep} {a b : String} :
    Blocks { st with deps := st.deps ++ [d] } a b ↔
      st.Blocks a b ∨ (d.sourceId = a ∧ d.targetId = b ∧ d.depType.blocking = true) := by
  rw [blocks_iff, blocks_iff]
  simp only [mem_append, mem_singleton]
  constructor
  · rintro ⟨q, hq | rfl, hedge⟩
    · exact Or.inl ⟨q, hq, hedge⟩
    · exact Or.inr hedge
  · rintro (⟨q, hq, hedge⟩ | hedge)
    · exact ⟨q, Or.inl hq, hedge⟩
    · exact ⟨d, Or.inr rfl, hedge⟩

theorem addDepInternal_keeps (h : Acyclic st.Blocks) (sourceId targetId : String)
    (depType : DepType) (now : Instant) :
    (st.addDepInternal sourceId targetId depType now).1.tasks = st.tasks ∧
      Acyclic (st.addDepInternal sourceId targetId depType now).1.Blocks := by
  refine ⟨st.addDepInternal_tasks sourceId targetId depType now, ?_⟩
  rcases st.addDepInternal_cases sourceId targetId depType now with
    ⟨-, heq⟩ | ⟨-, -, -, heq⟩ | ⟨-, hreach, ⟨-, message, heq⟩ | ⟨-, heq⟩⟩
  · rw [heq]
    exact h
  · rw [heq]
    exact h
  · rw [heq]
    exact h
  · rw [heq]
    by_cases hblocking : depType.blocking = true
    · refine Acyclic.mono ((acyclic_insertEdge h).mpr (hreach hblocking)) fun a b hab => ?_
      rcases blocks_append.mp hab with hab | ⟨ha, hb, -⟩
      · exact Or.inl hab
      · exact Or.inr ⟨ha.symm, hb.symm⟩
    · refine Acyclic.mono h fun a b hab => ?_
      rcases blocks_append.mp hab with hab | ⟨-, -, hd⟩
      · exact hab
      · exact absurd hd hblocking

theorem addDeps_keeps (h : Acyclic st.Blocks) (sourceId : String) (now : Instant)
    (targets : List String) :
    (st.addDeps sourceId now targets).1.tasks = st.tasks ∧
      Acyclic (st.addDeps sourceId now targets).1.Blocks := by
  induction targets generalizing st with
  | nil => exact ⟨rfl, h⟩
  | cons targetId rest ih =>
    have hone := addDepInternal_keeps h sourceId targetId .blocks now
    unfold addDeps
    split
    · rename_i heq
      rw [heq] at hone
      exact hone
    · rename_i heq
      rw [heq] at hone
      obtain ⟨htasks, hacyclic⟩ := ih hone.2
      exact ⟨htasks.trans hone.1, hacyclic⟩

theorem addParentDep_some (st : TaskStore) (id parentId : String) (now : Instant) :
    (st.addParentDep id (some parentId) now).1 =
      (st.addDepInternal id parentId .parentChild now).1 := by
  simp only [addParentDep]
  split
  · rename_i heq
    rw [heq]
  · rename_i heq
    rw [heq]

theorem addParentDep_keeps (h : Acyclic st.Blocks) (id : String) (parent : Option String)
    (now : Instant) :
    (st.addParentDep id parent now).1.tasks = st.tasks ∧
      Acyclic (st.addParentDep id parent now).1.Blocks := by
  cases parent with
  | none => exact ⟨rfl, h⟩
  | some parentId =>
    rw [addParentDep_some]
    exact addDepInternal_keeps h id parentId .parentChild now

theorem insert_keeps (h : Acyclic st.Blocks) (callerSession : String) (input : CreateTaskInput)
    (nanoid : String) (now : Instant) :
    ((st.insert callerSession input nanoid now).1.tasks = st.tasks ∨
        (st.insert callerSession input nanoid now).1.tasks =
          st.tasks ++ [newTask callerSession input nanoid now]) ∧
      Acyclic (st.insert callerSession input nanoid now).1.Blocks := by
  unfold insert
  split_ifs
  · exact ⟨Or.inl rfl, h⟩
  · have hnew : Acyclic (Blocks
        { st with tasks := st.tasks ++ [newTask callerSession input nanoid now] }) := h
    have hparent := addParentDep_keeps hnew nanoid (namedParent input) now
    simp only
    split
    · rename_i heq
      rw [heq] at hparent
      exact ⟨Or.inr hparent.1, hparent.2⟩
    · rename_i st' heq
      rw [heq] at hparent
      have hdeps := addDeps_keeps hparent.2 nanoid now input.dependsOn
      split
      · rename_i heq
        rw [heq] at hdeps
        exact ⟨Or.inr (hdeps.1.trans hparent.1), hdeps.2⟩
      · rename_i heq
        rw [heq] at hdeps
        exact ⟨Or.inr (hdeps.1.trans hparent.1), hdeps.2⟩

/-- Tasks of the first table stand, up to the fields of the tree, in the second. -/
def Within (tasks tasks' : List Task) : Prop :=
  ∀ task ∈ tasks, ∃ old ∈ tasks', old.id = task.id ∧ old.parentId = task.parentId

theorem within_refl (tasks : List Task) : Within tasks tasks :=
  fun task htask => ⟨task, htask, rfl, rfl⟩

theorem within_updateRow {f : Task → Task} (hf : KeepsTree f) (st : TaskStore) (taskId : String) :
    Within (st.updateRow taskId f).tasks st.tasks := by
  intro task htask
  obtain ⟨old, hold, rfl⟩ := Table.mem_modify.mp htask
  refine ⟨old, hold, ?_⟩
  split_ifs
  · exact ⟨(hf.id old).symm, (hf.parentId old).symm⟩
  · exact ⟨rfl, rfl⟩

theorem step_tasks (h : Acyclic st.Blocks) (c : TaskCall) :
    Within (st.step c).tasks st.tasks ∨
      ∃ input, c.op = .create input ∧
        (st.step c).tasks = st.tasks ++ [newTask c.callerSession input c.nanoid c.now] ∧
        ∀ parentId, namedParent input = some parentId →
          ∃ parent ∈ st.tasks, parent.id = parentId := by
  have heffect := step_effect st c
  generalize st.step c = st' at heffect ⊢
  cases heffect with
  | unchanged => exact Or.inl (within_refl st.tasks)
  | written taskId f hf => exact Or.inl (within_updateRow hf st taskId)
  | inserted input hop hparent =>
    rcases (insert_keeps h c.callerSession input c.nanoid c.now).1 with hsame | hnew
    · exact Or.inl (hsame ▸ within_refl st.tasks)
    · exact Or.inr ⟨input, hop, hnew, hparent⟩
  | deleted =>
    exact Or.inl fun task htask => ⟨task, mem_of_mem_filter htask, rfl, rfl⟩
  | linked sourceId targetId depType =>
    left
    rw [(addDepInternal_keeps h sourceId targetId depType c.now).1]
    exact within_refl st.tasks
  | unlinked => exact Or.inl (within_refl st.tasks)

theorem step_acyclic (h : Acyclic st.Blocks) (c : TaskCall) : Acyclic (st.step c).Blocks := by
  have heffect := step_effect st c
  generalize st.step c = st' at heffect ⊢
  cases heffect with
  | unchanged => exact h
  | written => exact h
  | inserted input => exact (insert_keeps h c.callerSession input c.nanoid c.now).2
  | deleted => exact Acyclic.mono h (blocks_mono fun d hd => mem_of_mem_filter hd)
  | linked sourceId targetId depType =>
    exact (addDepInternal_keeps h sourceId targetId depType c.now).2
  | unlinked => exact Acyclic.mono h (blocks_mono fun d hd => mem_of_mem_filter hd)

end Edges

end CrabbyKit.TaskStore
