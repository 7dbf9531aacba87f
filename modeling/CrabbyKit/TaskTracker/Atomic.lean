import CrabbyKit.TaskTracker.Graph

/-!
# Creation in one piece

A creation inserts its row before its edges, and nothing takes the row back when an edge is
refused. It is all or nothing exactly when no edge can be refused after the row is written.
-/

namespace CrabbyKit.TaskStore

open Relation Search List

def edges (st : TaskStore) (sourceId targetId : String) (depType : DepType) : List TaskDep :=
  st.deps.filter fun d => d.sourceId = sourceId && d.targetId = targetId && d.depType = depType

/-- A created task stands in the store with one edge to its parent and one blocking edge for
every target it was created with. -/
structure Created (st : TaskStore) (input : CreateTaskInput) (id : String) (task : Task) :
    Prop where
  found : st.get id = some task
  parent : ∀ parentId, namedParent input = some parentId →
    (st.edges id parentId .parentChild).length = 1
  targets : ∀ targetId ∈ input.dependsOn, (st.edges id targetId .blocks).length = 1

/-- A creation that throws leaves both tables as they were, and one that returns leaves the
task with all its edges. -/
def CreatesInOnePiece (st : TaskStore) (authChecker : String → String → Bool)
    (callerSession : String) (input : CreateTaskInput) (nanoid : String) (now : Instant) : Prop :=
  (∀ e, (st.create authChecker callerSession input nanoid now).2 = .error e →
      (st.create authChecker callerSession input nanoid now).1 = st) ∧
    ∀ task, (st.create authChecker callerSession input nanoid now).2 = .ok task →
      (st.create authChecker callerSession input nanoid now).1.Created input nanoid task

/-- The caller names a parent that is unknown or not its to write, or the drawn id is
taken: nothing is written yet. -/
def RefusedFirst (st : TaskStore) (authChecker : String → String → Bool) (callerSession : String)
    (input : CreateTaskInput) (nanoid : String) : Prop :=
  (∃ parentId, namedParent input = some parentId ∧ ∀ parent, st.get parentId = some parent →
      authChecker callerSession parent.ownerSession = false) ∨
    (st.get nanoid).isSome = true

/-- Everything a new task points to, the parent first. -/
def pointsTo (input : CreateTaskInput) : List String :=
  (namedParent input).toList ++ input.dependsOn

/-- A blocking edge from one task to another would be accepted: it closes no cycle and no edge
joins the two yet. -/
def Accepts (st : TaskStore) (sourceId targetId : String) : Prop :=
  ¬ ReflTransGen st.Blocks targetId sourceId ∧ ¬ st.Linked sourceId targetId

/-- The parent and the targets are told apart, and an edge to each would be accepted. -/
def AcceptsAll (st : TaskStore) (input : CreateTaskInput) (nanoid : String) : Prop :=
  (pointsTo input).Nodup ∧ ∀ targetId ∈ pointsTo input, st.Accepts nanoid targetId

section Edges

variable {st : TaskStore} {sourceId targetId : String} {depType : DepType} {now : Instant}

theorem addDepInternal_of_accepts (h : st.Accepts sourceId targetId) :
    st.addDepInternal sourceId targetId depType now =
      ({ st with deps := st.deps ++ [⟨sourceId, targetId, depType, datetimeNow now⟩] },
        .ok ⟨sourceId, targetId, depType, datetimeNow now⟩) := by
  rcases st.addDepInternal_cases sourceId targetId depType now with
    ⟨rfl, -⟩ | ⟨-, -, hreach, -⟩ | ⟨-, -, ⟨hlinked, -⟩ | ⟨-, heq⟩⟩
  · exact absurd ReflTransGen.refl h.1
  · exact absurd hreach h.1
  · exact absurd hlinked h.2
  · exact heq

theorem addDepInternal_of_not_accepts (hblocking : depType.blocking = true)
    (h : ¬ st.Accepts sourceId targetId) (now : Instant) :
    ∃ e, st.addDepInternal sourceId targetId depType now = (st, .error e) := by
  rcases st.addDepInternal_cases sourceId targetId depType now with
    ⟨-, heq⟩ | ⟨-, -, -, heq⟩ | ⟨-, hreach, ⟨-, message, heq⟩ | ⟨hlinked, -⟩⟩
  · exact ⟨_, heq⟩
  · exact ⟨_, heq⟩
  · exact ⟨_, heq⟩
  · exact absurd ⟨hreach hblocking, hlinked⟩ h

theorem accepts_append {d : TaskDep} (hsource : d.sourceId = sourceId)
    (hblocking : d.depType.blocking = true) :
    Accepts { st with deps := st.deps ++ [d] } sourceId targetId ↔
      st.Accepts sourceId targetId ∧ targetId ≠ d.targetId := by
  have hblocks : Blocks { st with deps := st.deps ++ [d] } =
      insertEdge st.Blocks sourceId d.targetId := by
    ext a b
    rw [blocks_append, hsource]
    simp only [insertEdge, hblocking, and_true, eq_comm]
  have hlinked : Linked { st with deps := st.deps ++ [d] } sourceId targetId ↔
      st.Linked sourceId targetId ∨ targetId = d.targetId := by
    unfold Linked
    simp only [mem_append, mem_singleton]
    constructor
    · rintro ⟨q, hq | rfl, hsourceId, htargetId⟩
      · exact Or.inl ⟨q, hq, hsourceId, htargetId⟩
      · exact Or.inr htargetId.symm
    · rintro (⟨q, hq, hedge⟩ | rfl)
      · exact ⟨q, Or.inl hq, hedge⟩
      · exact ⟨d, Or.inr rfl, hsource, rfl⟩
  unfold Accepts
  rw [hblocks, reflTransGen_insertEdge, hlinked, not_or, and_assoc]

/-- The edges that insertions in order append. -/
def newDeps (sourceId : String) (depType : DepType) (now : Instant) (targets : List String) :
    List TaskDep :=
  targets.map fun targetId => ⟨sourceId, targetId, depType, datetimeNow now⟩

theorem addDeps_tasks (st : TaskStore) (sourceId : String) (now : Instant) (targets : List String) :
    (st.addDeps sourceId now targets).1.tasks = st.tasks := by
  induction targets generalizing st with
  | nil => rfl
  | cons targetId rest ih =>
    unfold addDeps
    by_cases h : st.Accepts sourceId targetId
    · rw [addDepInternal_of_accepts h]
      exact ih _
    · obtain ⟨e, he⟩ := addDepInternal_of_not_accepts (rfl : DepType.blocks.blocking = true) h now
      rw [he]

theorem addDeps_cases (st : TaskStore) (sourceId : String) (now : Instant) (targets : List String) :
    (targets.Nodup ∧ (∀ targetId ∈ targets, st.Accepts sourceId targetId) ∧
        st.addDeps sourceId now targets =
          ({ st with deps := st.deps ++ newDeps sourceId .blocks now targets }, .ok ())) ∨
      (¬ (targets.Nodup ∧ ∀ targetId ∈ targets, st.Accepts sourceId targetId) ∧
        ∃ e, (st.addDeps sourceId now targets).2 = .error e) := by
  induction targets generalizing st with
  | nil =>
    left
    refine ⟨nodup_nil, fun targetId h => absurd h not_mem_nil, ?_⟩
    simp [addDeps, newDeps]
  | cons targetId rest ih =>
    unfold addDeps
    by_cases h : st.Accepts sourceId targetId
    · rw [addDepInternal_of_accepts h]
      -- the rest is inserted after an edge to this target, which it may not name again
      have hrest : ∀ target, Accepts { st with
          deps := st.deps ++ [⟨sourceId, targetId, .blocks, datetimeNow now⟩] } sourceId target ↔
          st.Accepts sourceId target ∧ target ≠ targetId :=
        fun target => accepts_append rfl rfl
      simp only
      rcases ih { st with
          deps := st.deps ++ [⟨sourceId, targetId, .blocks, datetimeNow now⟩] } with
        ⟨hnodup, hall, heq⟩ | ⟨hnot, he⟩
      · left
        refine ⟨nodup_cons.mpr ⟨fun hmem => ((hrest _).mp (hall _ hmem)).2 rfl, hnodup⟩,
          ?_, ?_⟩
        · intro target htarget
          rcases mem_cons.mp htarget with rfl | htarget
          · exact h
          · exact ((hrest target).mp (hall target htarget)).1
        · rw [heq]
          simp [newDeps]
      · right
        refine ⟨fun hgood => hnot ⟨(nodup_cons.mp hgood.1).2, ?_⟩, he⟩
        intro target htarget
        refine (hrest target).mpr ⟨hgood.2 target (mem_cons_of_mem _ htarget), ?_⟩
        rintro rfl
        exact (nodup_cons.mp hgood.1).1 htarget
    · right
      obtain ⟨e, he⟩ := addDepInternal_of_not_accepts (rfl : DepType.blocks.blocking = true) h now
      refine ⟨fun hall => h (hall.2 targetId mem_cons_self), e, ?_⟩
      rw [he]

theorem newDeps_edges {targets : List String} (hnodup : targets.Nodup) (h : targetId ∈ targets) :
    ((newDeps sourceId depType now targets).filter fun d =>
      d.sourceId = sourceId && d.targetId = targetId && d.depType = depType).length = 1 := by
  unfold newDeps
  rw [filter_map, length_map, ← countP_eq_length_filter]
  have hcount : targets.count targetId = 1 := count_eq_one_of_mem hnodup h
  rw [← hcount, List.count]
  apply countP_congr
  intro target _
  simp

theorem newDeps_other {depType other : DepType} (h : other ≠ depType) (targets : List String) :
    ((newDeps sourceId depType now targets).filter fun d =>
      d.sourceId = sourceId && d.targetId = targetId && d.depType = other) = [] := by
  rw [filter_eq_nil_iff]
  intro d hd
  obtain ⟨target, -, rfl⟩ := mem_map.mp hd
  simp [Ne.symm h]

theorem edges_eq_nil (h : ¬ st.Linked sourceId targetId) (depType : DepType) :
    st.edges sourceId targetId depType = [] := by
  unfold edges
  rw [filter_eq_nil_iff]
  intro d hd hedge
  simp only [Bool.and_eq_true, decide_eq_true_eq] at hedge
  exact h ⟨d, hd, hedge.1⟩

end Edges

section Creation

variable {st : TaskStore} {authChecker : String → String → Bool} {callerSession nanoid : String}
  {input : CreateTaskInput} {now : Instant}

/-- The store after a creation that nothing refused. -/
def created (st : TaskStore) (callerSession : String) (input : CreateTaskInput) (nanoid : String)
    (now : Instant) : TaskStore where
  tasks := st.tasks ++ [newTask callerSession input nanoid now]
  deps := st.deps ++ newDeps nanoid .parentChild now (namedParent input).toList ++
    newDeps nanoid .blocks now input.dependsOn

theorem addParentDep_cases (st : TaskStore) (id : String) (parent : Option String) (now : Instant) :
    ((∀ parentId ∈ parent.toList, st.Accepts id parentId) ∧
        st.addParentDep id parent now =
          ({ st with deps := st.deps ++ newDeps id .parentChild now parent.toList }, .ok ())) ∨
      (¬ (∀ parentId ∈ parent.toList, st.Accepts id parentId) ∧
        ∃ e, st.addParentDep id parent now = (st, .error e)) := by
  unfold addParentDep
  cases parent with
  | none =>
    left
    refine ⟨fun parentId h => absurd h not_mem_nil, ?_⟩
    simp [newDeps]
  | some parentId =>
    simp only [Option.toList_some, mem_singleton, forall_eq]
    by_cases h : st.Accepts id parentId
    · left
      rw [addDepInternal_of_accepts h]
      exact ⟨h, rfl⟩
    · right
      obtain ⟨e, he⟩ :=
        addDepInternal_of_not_accepts (rfl : DepType.parentChild.blocking = true) h now
      rw [he]
      exact ⟨h, e, rfl⟩

theorem accepts_after_parent (parent : Option String) (id targetId : String) :
    Accepts { st with deps := st.deps ++ newDeps id .parentChild now parent.toList } id targetId ↔
      st.Accepts id targetId ∧ targetId ∉ parent.toList := by
  cases parent with
  | none => simp [newDeps]
  | some parentId =>
    rw [Option.toList_some, mem_singleton]
    exact accepts_append rfl rfl

theorem get_created (hfree : st.get nanoid = none) (callerSession : String)
    (input : CreateTaskInput) (now : Instant) :
    (st.created callerSession input nanoid now).get nanoid =
      some (newTask callerSession input nanoid now) := by
  have hkey : (newTask callerSession input nanoid now).id = nanoid := rfl
  unfold get created at *
  rw [Table.lookup_concat, hfree, if_pos hkey]
  rfl

theorem acceptsAll_iff : st.AcceptsAll input nanoid ↔
    (∀ parentId ∈ (namedParent input).toList, st.Accepts nanoid parentId) ∧
      input.dependsOn.Nodup ∧ ∀ targetId ∈ input.dependsOn, Accepts
        { st with deps := st.deps ++ newDeps nanoid .parentChild now (namedParent input).toList }
        nanoid targetId := by
  have hparent : (namedParent input).toList.Nodup := by cases namedParent input <;> simp
  unfold AcceptsAll pointsTo
  simp only [accepts_after_parent, nodup_append, mem_append]
  constructor
  · rintro ⟨⟨-, hnodup, hapart⟩, hall⟩
    exact ⟨fun p hp => hall p (Or.inl hp), hnodup,
      fun t ht => ⟨hall t (Or.inr ht), fun hp => hapart t hp t ht rfl⟩⟩
  · rintro ⟨hone, hnodup, hall⟩
    refine ⟨⟨hparent, hnodup, ?_⟩, ?_⟩
    · rintro p hp t ht rfl
      exact (hall p ht).2 hp
    · rintro t (ht | ht)
      · exact hone t ht
      · exact (hall t ht).1

theorem insert_cases (hfree : st.get nanoid = none) (callerSession : String)
    (input : CreateTaskInput) (now : Instant) :
    (st.AcceptsAll input nanoid ∧ st.insert callerSession input nanoid now =
        (st.created callerSession input nanoid now,
          .ok (newTask callerSession input nanoid now))) ∨
      (¬ st.AcceptsAll input nanoid ∧
        (st.insert callerSession input nanoid now).1.tasks =
          st.tasks ++ [newTask callerSession input nanoid now] ∧
        ∃ e, (st.insert callerSession input nanoid now).2 = .error e) := by
  let st₁ : TaskStore := { st with tasks := st.tasks ++ [newTask callerSession input nanoid now] }
  let st₂ : TaskStore :=
    { st₁ with deps := st.deps ++ newDeps nanoid .parentChild now (namedParent input).toList }
  have hsplit : st.AcceptsAll input nanoid ↔
      (∀ parentId ∈ (namedParent input).toList, st₁.Accepts nanoid parentId) ∧
        input.dependsOn.Nodup ∧ ∀ targetId ∈ input.dependsOn, st₂.Accepts nanoid targetId :=
    acceptsAll_iff
  unfold insert
  rw [hfree, if_neg (by simp)]
  simp only
  rcases addParentDep_cases st₁ nanoid (namedParent input) now with ⟨hone, heq⟩ | ⟨hnot, e, heq⟩
  · rw [heq]
    simp only
    rcases addDeps_cases st₂ nanoid now input.dependsOn with ⟨hnodup, hall, heq⟩ | ⟨hnot, e, he⟩
    · left
      refine ⟨hsplit.mpr ⟨hone, hnodup, hall⟩, ?_⟩
      have hstore : (⟨st₂.tasks, st₂.deps ++ newDeps nanoid .blocks now input.dependsOn⟩ :
          TaskStore) = st.created callerSession input nanoid now := rfl
      rw [heq]
      simp only
      rw [hstore, get_created hfree]
      rfl
    · right
      have htasks : (st₂.addDeps nanoid now input.dependsOn).1.tasks = st₂.tasks :=
        addDeps_tasks st₂ nanoid now input.dependsOn
      refine ⟨fun hall => hnot (hsplit.mp hall).2, ?_⟩
      generalize hrun : st₂.addDeps nanoid now input.dependsOn = out at he htasks
      obtain ⟨st₃, answer⟩ := out
      simp only at he htasks
      rw [he]
      exact ⟨htasks, e, rfl⟩
  · right
    rw [heq]
    exact ⟨fun hall => hnot (hsplit.mp hall).1, rfl, e, rfl⟩

theorem create_of_refusedFirst (h : st.RefusedFirst authChecker callerSession input nanoid)
    (now : Instant) :
    ∃ e, st.create authChecker callerSession input nanoid now = (st, .error e) := by
  have hinsert (htaken : (st.get nanoid).isSome = true) :
      ∃ e, st.insert callerSession input nanoid now = (st, .error e) := by
    unfold insert
    rw [if_pos htaken]
    exact ⟨_, rfl⟩
  unfold create
  cases hparent : namedParent input with
  | none =>
    rcases h with ⟨parentId, hnamed, -⟩ | htaken
    · rw [hparent] at hnamed
      cases hnamed
    · exact hinsert htaken
  | some parentId =>
    simp only
    cases hget : st.get parentId with
    | none => exact ⟨_, rfl⟩
    | some parent =>
      simp only
      by_cases hauth : authChecker callerSession parent.ownerSession = true
      · rw [if_pos hauth]
        rcases h with ⟨named, hnamed, hrefused⟩ | htaken
        · rw [hparent, Option.some.injEq] at hnamed
          subst hnamed
          rw [hrefused parent hget] at hauth
          cases hauth
        · exact hinsert htaken
      · rw [if_neg hauth]
        exact ⟨_, rfl⟩

theorem create_of_not_refusedFirst
    (h : ¬ st.RefusedFirst authChecker callerSession input nanoid) (now : Instant) :
    st.get nanoid = none ∧ st.create authChecker callerSession input nanoid now =
      st.insert callerSession input nanoid now := by
  unfold RefusedFirst at h
  rw [not_or, Bool.not_eq_true, Option.isSome_eq_false_iff, Option.isNone_iff_eq_none] at h
  obtain ⟨hparent, hfree⟩ := h
  refine ⟨hfree, ?_⟩
  unfold create
  cases hnamed : namedParent input with
  | none => rfl
  | some parentId =>
    -- the parent exists and is the caller's to write, or the caller would be refused first
    have hexists : ∃ parent, st.get parentId = some parent ∧
        authChecker callerSession parent.ownerSession = true := by
      by_contra hnone
      refine hparent ⟨parentId, hnamed, fun parent hget => ?_⟩
      rw [← Bool.not_eq_true]
      exact fun hauth => hnone ⟨parent, hget, hauth⟩
    obtain ⟨parent, hget, hauth⟩ := hexists
    simp only [hget, hauth, if_true]

theorem created_of_acceptsAll (hfree : st.get nanoid = none) (h : st.AcceptsAll input nanoid) :
    (st.created callerSession input nanoid now).Created input nanoid
      (newTask callerSession input nanoid now) := by
  obtain ⟨hnodup, haccepts⟩ := h
  obtain ⟨hparents, htargets, -⟩ := nodup_append.mp hnodup
  constructor
  · exact get_created hfree callerSession input now
  · intro parentId hparent
    have hmem : parentId ∈ (namedParent input).toList := by simp [hparent]
    have hold := edges_eq_nil (haccepts parentId (mem_append_left _ hmem)).2 .parentChild
    unfold edges at hold ⊢
    unfold created
    rw [filter_append, filter_append, hold, newDeps_other (by decide) input.dependsOn,
      nil_append, append_nil]
    exact newDeps_edges hparents hmem
  · intro targetId hmem
    have hold := edges_eq_nil (haccepts targetId (mem_append_right _ hmem)).2 .blocks
    unfold edges at hold ⊢
    unfold created
    rw [filter_append, filter_append, hold,
      newDeps_other (by decide) (namedParent input).toList, nil_append, nil_append]
    exact newDeps_edges htargets hmem

/-- A creation is all or nothing exactly when it is refused before its row is written or every
one of its edges is accepted. -/
theorem create_in_one_piece_iff (st : TaskStore) (authChecker : String → String → Bool)
    (callerSession : String) (input : CreateTaskInput) (nanoid : String) (now : Instant) :
    st.CreatesInOnePiece authChecker callerSession input nanoid now ↔
      st.RefusedFirst authChecker callerSession input nanoid ∨ st.AcceptsAll input nanoid := by
  unfold CreatesInOnePiece
  by_cases hrefused : st.RefusedFirst authChecker callerSession input nanoid
  · obtain ⟨e, he⟩ := create_of_refusedFirst hrefused now
    rw [he]
    refine iff_of_true ⟨fun _ _ => rfl, ?_⟩ (Or.inl hrefused)
    intro task h
    cases h
  · obtain ⟨hfree, hinsert⟩ := create_of_not_refusedFirst hrefused now
    rw [hinsert]
    rcases insert_cases hfree callerSession input now with ⟨hall, heq⟩ | ⟨hnot, htasks, e, he⟩
    · rw [heq]
      refine iff_of_true ⟨?_, ?_⟩ (Or.inr hall)
      · intro e h
        cases h
      · intro task h
        cases h
        exact created_of_acceptsAll hfree hall
    · refine iff_of_false ?_ (not_or.mpr ⟨hrefused, hnot⟩)
      -- the row stays behind when an edge throws
      rintro ⟨herror, -⟩
      rw [herror e he] at htasks
      have hlength := congrArg List.length htasks
      rw [length_append, length_singleton] at hlength
      omega

def oneTask : TaskStore := { tasks := [newTask "s" { title := "Plan" } "a" 0] }

/-- A target named twice is refused the second time, with the new task already stored and one
edge already written. -/
theorem repeated_target_half_created :
    ¬ oneTask.CreatesInOnePiece (fun caller owner => caller = owner) "s"
        { title := "Wait", dependsOn := ["a", "a"] } "b" 1 ∧
      (∃ e, (oneTask.create (fun caller owner => caller = owner) "s"
        { title := "Wait", dependsOn := ["a", "a"] } "b" 1).2 = .error e) ∧
      (oneTask.create (fun caller owner => caller = owner) "s"
        { title := "Wait", dependsOn := ["a", "a"] } "b" 1).1.tasks.length = 2 := by
  have herror : (oneTask.create (fun caller owner => caller = owner) "s"
      { title := "Wait", dependsOn := ["a", "a"] } "b" 1).2 = .error (.constraint
        "UNIQUE constraint failed: task_deps.source_id, task_deps.target_id") := by decide
  have hlength : (oneTask.create (fun caller owner => caller = owner) "s"
      { title := "Wait", dependsOn := ["a", "a"] } "b" 1).1.tasks.length = 2 := by decide
  refine ⟨fun h => ?_, ⟨_, herror⟩, hlength⟩
  rw [h.1 _ herror] at hlength
  exact absurd hlength (by decide)

end Creation

end CrabbyKit.TaskStore
