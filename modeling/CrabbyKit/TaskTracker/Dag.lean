import CrabbyKit.TaskTracker.Graph

/-!
# The task graph along runs

A rank that falls from every task to its parent shows parents acyclic and tree walks
finite. It survives a creation because the new id is not the parent of anything yet.
-/

namespace CrabbyKit

open List Option Function

def TaskCall.drawn (c : TaskCall) : Option String :=
  match c.op with
  | .create _ => some c.nanoid
  | _ => none

namespace TaskStore

open Relation Search

/-- The ids drawn by calls: nonempty, and none drawn twice. -/
structure FreshIds (calls : List TaskCall) : Prop where
  nodup : (calls.filterMap TaskCall.drawn).Nodup
  nonempty : "" ∉ calls.filterMap TaskCall.drawn

/-- Ids and named parents are among the given ids, and a rank falls from every task to its
parent. -/
structure Ranked (drawn : List String) (tasks : List Task) : Prop where
  ids : ∀ task ∈ tasks, task.id ∈ drawn
  parents : ∀ task ∈ tasks, ∀ parentId, task.parentId = some parentId → parentId ∈ "" :: drawn
  rank : ∃ rank : String → Nat, ∀ task ∈ tasks, ∀ parentId, task.parentId = some parentId →
    rank parentId < rank task.id

section Parents

variable {drawn : List String} {tasks tasks' : List Task} {st : TaskStore}

theorem Ranked.within (h : Ranked drawn tasks) (hw : Within tasks' tasks) :
    Ranked drawn tasks' where
  ids := by
    intro task htask
    obtain ⟨old, hold, hid, -⟩ := hw task htask
    exact hid ▸ h.ids old hold
  parents := by
    intro task htask parentId hparent
    obtain ⟨old, hold, -, hsame⟩ := hw task htask
    exact h.parents old hold parentId (hsame.trans hparent)
  rank := by
    obtain ⟨rank, hrank⟩ := h.rank
    refine ⟨rank, fun task htask parentId hparent => ?_⟩
    obtain ⟨old, hold, hid, hsame⟩ := hw task htask
    exact hid ▸ hrank old hold parentId (hsame.trans hparent)

theorem Ranked.mono (h : Ranked drawn tasks) (more : List String) :
    Ranked (drawn ++ more) tasks where
  ids := fun task htask => mem_append_left _ (h.ids task htask)
  parents := by
    intro task htask parentId hparent
    rcases mem_cons.mp (h.parents task htask parentId hparent) with rfl | hmem
    · exact mem_cons_self
    · exact mem_cons_of_mem _ (mem_append_left _ hmem)
  rank := h.rank

theorem Ranked.append (h : Ranked drawn tasks) {new : Task} (hfresh : new.id ∉ "" :: drawn)
    (hparent : ∀ parentId, new.parentId = some parentId → parentId ∈ "" :: drawn) :
    Ranked (drawn ++ [new.id]) (tasks ++ [new]) where
  ids := by
    intro task htask
    rcases mem_append.mp htask with htask | htask
    · exact mem_append_left _ (h.ids task htask)
    · rw [mem_singleton.mp htask]
      exact mem_append_right _ (mem_singleton_self _)
  parents := by
    intro task htask parentId hp
    have hold : parentId ∈ "" :: drawn := by
      rcases mem_append.mp htask with htask | htask
      · exact h.parents task htask parentId hp
      · rw [mem_singleton.mp htask] at hp
        exact hparent parentId hp
    rcases mem_cons.mp hold with rfl | hmem
    · exact mem_cons_self
    · exact mem_cons_of_mem _ (mem_append_left _ hmem)
  rank := by
    obtain ⟨rank, hrank⟩ := h.rank
    refine ⟨Function.update rank new.id (rank (new.parentId.getD "") + 1),
      fun task htask parentId hp => ?_⟩
    have hne : ∀ id ∈ "" :: drawn, id ≠ new.id := fun id hid heq => hfresh (heq ▸ hid)
    rcases mem_append.mp htask with htask | htask
    · have hid := hne task.id (mem_cons_of_mem _ (h.ids task htask))
      have hpid := hne parentId (h.parents task htask parentId hp)
      rw [update_of_ne hid, update_of_ne hpid]
      exact hrank task htask parentId hp
    · obtain rfl := mem_singleton.mp htask
      have hpid := hne parentId (hparent parentId hp)
      rw [update_self, update_of_ne hpid, hp]
      exact Nat.lt_succ_self _

theorem Ranked.acyclic (h : Ranked drawn st.tasks) : Acyclic st.ParentOf := by
  obtain ⟨rank, hrank⟩ := h.rank
  refine acyclic_of_rank rank fun child parent hedge => ?_
  obtain ⟨task, htask, rfl, hparent⟩ := hedge
  exact hrank task htask parent hparent

theorem mapM_isSome {α β : Type} {f : α → Option β} {l : List α}
    (h : ∀ a ∈ l, (f a).isSome = true) : (l.mapM f).isSome = true := by
  induction l with
  | nil => rfl
  | cons a l ih =>
    obtain ⟨b, hb⟩ := isSome_iff_exists.mp (h a mem_cons_self)
    obtain ⟨bs, hbs⟩ := isSome_iff_exists.mp (ih fun c hc => h c (mem_cons_of_mem a hc))
    rw [mapM_cons, hb, hbs]
    rfl

theorem mem_children {id : String} {task : Task} :
    task ∈ st.children id ↔ task ∈ st.tasks ∧ task.parentId = some id := by
  unfold children
  rw [mem_insertionSort, mem_filter, decide_eq_true_eq]

theorem buildTree_returns {rank : String → Nat} {bound : Nat}
    (hrank : ∀ task ∈ st.tasks, ∀ parentId, task.parentId = some parentId →
      rank parentId < rank task.id)
    (hbound : ∀ task ∈ st.tasks, rank task.id < bound) {fuel : Nat} {task : Task}
    (htask : task ∈ st.tasks) (hfuel : bound ≤ rank task.id + fuel) (depth : Nat) :
    (st.buildTree fuel task depth).isSome = true := by
  induction fuel generalizing task depth with
  | zero =>
    have hlt := hbound task htask
    omega
  | succ fuel ih =>
    have hchildren : ((st.children task.id).mapM fun child =>
        st.buildTree fuel child (depth + 1)).isSome = true := by
      refine mapM_isSome fun child hchild => ?_
      obtain ⟨hmem, hparent⟩ := mem_children.mp hchild
      have hlt := hrank child hmem task.id hparent
      apply ih hmem
      omega
    unfold buildTree
    rw [isSome_map]
    exact hchildren

theorem Ranked.trees (h : Ranked drawn st.tasks) :
    ∃ n, ∀ fuel, n ≤ fuel → ∀ rootId, (st.tree fuel rootId).isSome = true := by
  obtain ⟨rank, hrank⟩ := h.rank
  have hbound : ∃ bound, ∀ task ∈ st.tasks, rank task.id < bound := by
    induction st.tasks with
    | nil => exact ⟨0, fun task htask => absurd htask not_mem_nil⟩
    | cons first rest ih =>
      obtain ⟨bound, hrest⟩ := ih
      refine ⟨max bound (rank first.id + 1), fun task htask => ?_⟩
      rcases mem_cons.mp htask with rfl | htask
      · omega
      · have hlt := hrest task htask
        omega
  obtain ⟨bound, hbound⟩ := hbound
  refine ⟨bound, fun fuel hfuel rootId => ?_⟩
  unfold tree
  cases hget : st.get rootId with
  | none => rfl
  | some root =>
    have hroot := (Table.mem_of_lookup hget).1
    rw [isSome_map]
    apply buildTree_returns hrank hbound hroot
    omega

theorem ranked_run {calls : List TaskCall} (h : FreshIds calls) :
    Acyclic (Run.run step {} calls).Blocks ∧
      Ranked (calls.filterMap TaskCall.drawn) (Run.run step {} calls).tasks := by
  refine Run.run_induction (P := fun calls (st : TaskStore) => FreshIds calls →
    Acyclic st.Blocks ∧ Ranked (calls.filterMap TaskCall.drawn) st.tasks) ?_ ?_ calls h
  · intro _
    refine ⟨acyclic_of_rank (fun _ => 0) fun a b hab => ?_, ?_, ?_, fun _ => 0, ?_⟩
    · obtain ⟨d, hd, -⟩ := blocks_iff.mp hab
      exact absurd hd not_mem_nil
    · exact fun task htask => absurd htask not_mem_nil
    · exact fun task htask => absurd htask not_mem_nil
    · exact fun task htask => absurd htask not_mem_nil
  · intro calls c st ih hfresh
    have hsplit : (calls ++ [c]).filterMap TaskCall.drawn =
        calls.filterMap TaskCall.drawn ++ c.drawn.toList := by
      rw [filterMap_append]
      cases hdrawn : c.drawn with
      | none => simp [hdrawn]
      | some id => simp [hdrawn]
    obtain ⟨hnodup, hnonempty⟩ := hfresh
    rw [hsplit] at hnodup hnonempty ⊢
    obtain ⟨hacyclic, hranked⟩ := ih
      ⟨(nodup_append.mp hnodup).1, fun hmem => hnonempty (mem_append_left _ hmem)⟩
    refine ⟨step_acyclic hacyclic c, ?_⟩
    rcases step_tasks hacyclic c with hwithin | ⟨input, hop, htasks, hparent⟩
    · exact (hranked.within hwithin).mono _
    · have hdrawn : c.drawn = some c.nanoid := by
        unfold TaskCall.drawn
        rw [hop]
      rw [hdrawn] at hnodup hnonempty ⊢
      rw [htasks]
      let new : Task := newTask c.callerSession input c.nanoid c.now
      have hfresh : new.id ∉ "" :: calls.filterMap TaskCall.drawn := by
        intro hmem
        rcases mem_cons.mp hmem with hempty | hmem
        · exact hnonempty (mem_append_right _ (hempty ▸ mem_singleton_self _))
        · exact (nodup_append.mp hnodup).2.2 _ hmem _ (mem_singleton_self _) rfl
      have hold : ∀ parentId, new.parentId = some parentId →
          parentId ∈ "" :: calls.filterMap TaskCall.drawn := by
        intro parentId hp
        by_cases hempty : parentId = ""
        · rw [hempty]
          exact mem_cons_self
        · have hnamed : namedParent input = some parentId := by
            have hinput : input.parentId = some parentId := hp
            unfold namedParent
            rw [hinput]
            simp [hempty]
          obtain ⟨parent, hmem, rfl⟩ := hparent parentId hnamed
          exact mem_cons_of_mem _ (hranked.ids parent hmem)
      exact hranked.append hfresh hold

end Parents

/-- Both tasks of an edge exist, and the caller may write its source. -/
def Admits (st : TaskStore) (authChecker : String → String → Bool)
    (callerSession sourceId targetId : String) : Prop :=
  (∃ source, st.get sourceId = some source ∧
    authChecker callerSession source.ownerSession = true) ∧ (st.get targetId).isSome = true

section AddDep

variable {st : TaskStore} {authChecker : String → String → Bool}
  {callerSession sourceId targetId : String}

theorem addDep_of_admits (h : st.Admits authChecker callerSession sourceId targetId)
    (depType : DepType) (now : Instant) :
    st.addDep authChecker callerSession sourceId targetId depType now =
      st.addDepInternal sourceId targetId depType now := by
  obtain ⟨⟨source, hsource, hauth⟩, htarget⟩ := h
  obtain ⟨target, htarget⟩ := isSome_iff_exists.mp htarget
  unfold addDep
  simp only [hsource, hauth, htarget, if_true]

theorem addDep_of_not_admits (h : ¬ st.Admits authChecker callerSession sourceId targetId)
    (depType : DepType) (now : Instant) :
    ∃ e, (st.addDep authChecker callerSession sourceId targetId depType now).2 = .error e ∧
      ∀ path, e ≠ .cycle path := by
  unfold addDep
  cases hsource : st.get sourceId with
  | none => exact ⟨.notFound sourceId, rfl, nofun⟩
  | some source =>
    simp only
    by_cases hauth : authChecker callerSession source.ownerSession = true
    · rw [if_pos hauth]
      cases htarget : st.get targetId with
      | none => exact ⟨.notFound targetId, rfl, nofun⟩
      | some target => exact absurd ⟨⟨source, hsource, hauth⟩, htarget ▸ rfl⟩ h
    · rw [if_neg hauth]
      exact ⟨.auth callerSession source.ownerSession, rfl, nofun⟩

theorem not_acyclic_iff (h : Acyclic st.Blocks) :
    ¬ Acyclic (insertEdge st.Blocks sourceId targetId) ↔
      ReflTransGen st.Blocks targetId sourceId := by
  rw [acyclic_insertEdge h, not_not]

theorem addDepInternal_error (h : Acyclic st.Blocks) (sourceId targetId : String)
    {depType : DepType} (hblocking : depType.blocking = true) (now : Instant) :
    ((∃ path, (st.addDepInternal sourceId targetId depType now).2 = .error (.cycle path)) ↔
        ¬ Acyclic (insertEdge st.Blocks sourceId targetId)) ∧
      ((∃ e, (st.addDepInternal sourceId targetId depType now).2 = .error e) ↔
        ¬ Acyclic (insertEdge st.Blocks sourceId targetId) ∨ st.Linked sourceId targetId) := by
  rw [not_acyclic_iff h]
  rcases st.addDepInternal_cases sourceId targetId depType now with
    ⟨rfl, heq⟩ | ⟨-, -, hreach, heq⟩ | ⟨-, hreach, ⟨hlinked, message, heq⟩ | ⟨hlinked, heq⟩⟩
  · rw [heq]
    exact ⟨⟨fun _ => ReflTransGen.refl, fun _ => ⟨_, rfl⟩⟩,
      fun _ => Or.inl ReflTransGen.refl, fun _ => ⟨_, rfl⟩⟩
  · rw [heq]
    exact ⟨⟨fun _ => hreach, fun _ => ⟨_, rfl⟩⟩, fun _ => Or.inl hreach, fun _ => ⟨_, rfl⟩⟩
  · rw [heq]
    refine ⟨⟨?_, fun hr => absurd hr (hreach hblocking)⟩, fun _ => Or.inr hlinked,
      fun _ => ⟨_, rfl⟩⟩
    rintro ⟨path, hpath⟩
    cases hpath
  · rw [heq]
    refine ⟨⟨?_, fun hr => absurd hr (hreach hblocking)⟩, ?_, ?_⟩
    · rintro ⟨path, hpath⟩
      cases hpath
    · rintro ⟨e, he⟩
      cases he
    · rintro (hr | hr)
      · exact absurd hr (hreach hblocking)
      · exact absurd hr hlinked

theorem addDep_error (h : Acyclic st.Blocks) {depType : DepType}
    (hblocking : depType.blocking = true) (now : Instant) :
    ((∃ path, (st.addDep authChecker callerSession sourceId targetId depType now).2 =
          .error (.cycle path)) ↔
        st.Admits authChecker callerSession sourceId targetId ∧
          ¬ Acyclic (insertEdge st.Blocks sourceId targetId)) ∧
      ((∃ e, (st.addDep authChecker callerSession sourceId targetId depType now).2 = .error e) ↔
        ¬ st.Admits authChecker callerSession sourceId targetId ∨
          ¬ Acyclic (insertEdge st.Blocks sourceId targetId) ∨ st.Linked sourceId targetId) := by
  by_cases hadmits : st.Admits authChecker callerSession sourceId targetId
  · rw [addDep_of_admits hadmits]
    have herror := addDepInternal_error h sourceId targetId hblocking now
    simp only [hadmits, true_and, not_true_eq_false, false_or]
    exact herror
  · obtain ⟨e, he, hcycle⟩ := addDep_of_not_admits hadmits depType now
    rw [he]
    refine ⟨⟨?_, fun hp => absurd hp.1 hadmits⟩, fun _ => Or.inl hadmits, fun _ => ⟨e, rfl⟩⟩
    rintro ⟨path, hpath⟩
    exact absurd (Except.error.inj hpath) (hcycle path)

end AddDep

/-- What holds of the task graph in a state. -/
structure Dag (st : TaskStore) : Prop where
  blocks : Acyclic st.Blocks
  parents : Acyclic st.ParentOf
  checks : ∀ sourceId targetId, ∃ found, st.closesCycle sourceId targetId = some found
  trees : ∃ n, ∀ fuel, n ≤ fuel → ∀ rootId, (st.tree fuel rootId).isSome = true
  cycles : ∀ authChecker callerSession sourceId targetId depType now, depType.blocking = true →
    ((∃ path, (st.addDep authChecker callerSession sourceId targetId depType now).2 =
        .error (.cycle path)) ↔
      st.Admits authChecker callerSession sourceId targetId ∧
        ¬ Acyclic (insertEdge st.Blocks sourceId targetId))
  refusals : ∀ authChecker callerSession sourceId targetId depType now, depType.blocking = true →
    ((∃ e, (st.addDep authChecker callerSession sourceId targetId depType now).2 = .error e) ↔
      ¬ st.Admits authChecker callerSession sourceId targetId ∨
        ¬ Acyclic (insertEdge st.Blocks sourceId targetId) ∨ st.Linked sourceId targetId)

/-- In every run of calls with fresh ids the task graph is acyclic, its walks end, and an
added blocking edge is refused as a cycle exactly when it closes one. -/
theorem dag_run {calls : List TaskCall} (h : FreshIds calls) : Dag (Run.run step {} calls) := by
  obtain ⟨hacyclic, hranked⟩ := ranked_run h
  refine ⟨hacyclic, hranked.acyclic, closesCycle_returns _, hranked.trees, ?_, ?_⟩
  · intro authChecker callerSession sourceId targetId depType now hblocking
    exact (addDep_error hacyclic hblocking now).1
  · intro authChecker callerSession sourceId targetId depType now hblocking
    exact (addDep_error hacyclic hblocking now).2

def relatedCalls : List TaskCall :=
  [{ op := .create { title := "A" }, callerSession := "s", nanoid := "a", now := 0 },
    { op := .create { title := "B" }, callerSession := "s", nanoid := "b", now := 0 },
    { op := .addDep "a" "b" .related, callerSession := "s", nanoid := "", now := 0 }]

/-- Their graph. -/
theorem dag_run_related : Dag (Run.run step {} relatedCalls) :=
  dag_run ⟨by decide, by decide⟩

/-- A blocking edge between related tasks is refused, though it closes no cycle. -/
theorem related_edge_refused :
    ((Run.run step {} relatedCalls).addDep (fun _ _ => true) "s" "a" "b" .blocks 0).2 =
        .error (.constraint
          "UNIQUE constraint failed: task_deps.source_id, task_deps.target_id") ∧
      Acyclic (insertEdge (Run.run step {} relatedCalls).Blocks "a" "b") := by
  refine ⟨by decide, ?_⟩
  have hnone : ∀ a b, ¬ (Run.run step {} relatedCalls).Blocks a b := by
    intro a b hab
    obtain ⟨d, hd, -, -, hblocking⟩ := blocks_iff.mp hab
    have hrelated : ∀ d ∈ (Run.run step {} relatedCalls).deps, d.depType.blocking = false := by
      decide
    rw [hrelated d hd] at hblocking
    cases hblocking
  refine acyclic_of_rank (fun id => if id = "a" then 1 else 0) fun a b hab => ?_
  rcases hab with hab | ⟨rfl, rfl⟩
  · exact absurd hab (hnone a b)
  · decide

/-- A task waits for another one that is not closed. -/
def WaitsFor (st : TaskStore) (id blockerId : String) : Prop :=
  st.Blocks id blockerId ∧ ∃ task ∈ st.tasks, task.id = blockerId ∧ task.status ≠ .closed

/-- Whatever is not closed waits, if for anything, in the end for a task that is offered as ready
or that someone has taken up. -/
def NeverDeadlocked (st : TaskStore) : Prop :=
  ∀ task ∈ st.tasks, task.status ≠ .closed →
    ∃ next ∈ st.tasks, ReflTransGen st.WaitsFor task.id next.id ∧
      (next ∈ st.ready none ∨ next.status = .inProgress ∨ next.status = .blocked)

theorem mem_ready_none {st : TaskStore} {task : Task} (htask : task ∈ st.tasks)
    (hopened : task.status = .opened) (hfree : ∀ id, ¬ st.WaitsFor task.id id) :
    task ∈ st.ready none := by
  unfold ready
  simp only [mem_insertionSort, mem_filter, hopened, decide_true, Option.all_none, Bool.true_and,
    Bool.not_eq_true', List.any_eq_false, Bool.and_eq_true, List.any_eq_true, decide_eq_true_eq]
  refine ⟨htask, ?_⟩
  rintro d hd ⟨⟨hsource, hblocking⟩, blocker, hblocker, hid, hclosed⟩
  exact hfree _ ⟨blocks_iff.mpr ⟨d, hd, hsource, rfl, hblocking⟩, blocker, hblocker, hid, hclosed⟩

theorem never_deadlocked (calls : List TaskCall) : NeverDeadlocked (Run.run step {} calls) := by
  have hacyclic : Acyclic (Run.run step {} calls).Blocks := by
    refine Run.run_induction (P := fun _ (st : TaskStore) => Acyclic st.Blocks) ?_
      (fun _ c _ h => step_acyclic h c) calls
    refine acyclic_of_rank (fun _ => 0) fun a b hab => ?_
    obtain ⟨d, hd, -⟩ := blocks_iff.mp hab
    exact absurd hd not_mem_nil
  generalize Run.run step {} calls = st at hacyclic ⊢
  intro task htask hclosed
  have hwaits : Acyclic st.WaitsFor := hacyclic.mono fun _ _ h => h.1
  obtain ⟨id, hreach, hend⟩ := hwaits.exists_end _ (st.tasks.map Task.id) le_rfl task.id
    fun w hw => by
      obtain ⟨-, -, -, blocker, hblocker, rfl, -⟩ := TransGen.tail'_iff.mp hw
      exact mem_map_of_mem hblocker
  have hnext : ∃ next ∈ st.tasks, next.id = id ∧ next.status ≠ .closed := by
    rcases hreach.cases_tail with rfl | ⟨_, -, -, hlast⟩
    · exact ⟨task, htask, rfl, hclosed⟩
    · exact hlast
  obtain ⟨next, hmem, rfl, hopen⟩ := hnext
  refine ⟨next, hmem, hreach, ?_⟩
  cases hstatus : next.status with
  | opened => exact .inl (mem_ready_none hmem hstatus hend)
  | inProgress => exact .inr (.inl rfl)
  | blocked => exact .inr (.inr rfl)
  | closed => exact absurd hstatus hopen

end TaskStore

end CrabbyKit
