import CrabbyKit.Runtime.AgentConfig
import Mathlib.Data.List.Perm.Basic

/-!
# The snapshot of the agent-level configuration agrees with the storage

The snapshot is filled once, and what fills it or sets it works with a schema and with values that
it has taken earlier. When no step of a run comes too late for what its task has taken, the
snapshot settles on the storage and hooks are told what their set has changed.
-/

namespace CrabbyKit.AgentConfig

open List

/-- The persisted value if it conforms to the schema, and the schema's default otherwise. -/
def TypeBox.valueFor (typeBox : TypeBox) (schema : Bundle.SchemaValue) : Option Json → Json
  | none => typeBox.create schema
  | some stored => if typeBox.check schema stored then stored else typeBox.create schema

namespace Task

/-- The set that a task has not yet published. -/
def change : Task → Option Change
  | reading _ _ _ change _ => change
  | readingOrphans _ _ _ change _ => change
  | writingOrphans _ _ change _ => change
  | loadReturned change => some change
  | persisting change _ _ => some change
  | calling .. => none

/-- The entries that a load has not yet put into the snapshot. -/
def remaining : Task → Option Schemas
  | reading ns nsSchema rest _ _ => some ((ns, nsSchema) :: rest)
  | readingOrphans _ _ rest _ _ => some rest
  | writingOrphans _ rest _ _ => some rest
  | _ => none

/-- The dispatch whose hooks a task calls. -/
def dispatch : Task → Option Dispatch
  | calling dispatch _ _ => some dispatch
  | _ => none

end Task

namespace AgentRuntime

variable (typeBox : TypeBox) (capabilities : List Capability)

/-- The snapshot holds for a namespace what its schema makes of the persisted value. -/
def Settled (s : AgentRuntime) (ns : String) (schema : Bundle.SchemaValue) : Prop :=
  s.agentConfigSnapshot.get ns = some (typeBox.valueFor schema (s.stored ns))

/-- While nothing is in progress after a load, every namespace is settled. -/
def Agrees (s : AgentRuntime) : Prop :=
  s.agentConfigLoaded = true → s.tasks = [] →
    ∀ ns schema, s.mergedSchema.lookup ns = some schema → s.Settled typeBox ns schema

/-- Hooks were called with their slices before and after the set. -/
def HooksTold (s : AgentRuntime) : Prop :=
  ∀ call ∈ s.calls, call.oldSlice = call.hook.slice call.dispatch.before ∧
    call.newSlice = call.hook.slice call.dispatch.after

/-- What a set persists conforms to the schema of its namespace. -/
def SetsConform (s : AgentRuntime) (e : Event) : Prop :=
  ∀ i change oldValue, e = .serve i → s.tasks[i]? = some (.persisting change oldValue false) →
    ∃ schema, s.mergedSchema.lookup change.ns = some schema ∧
      typeBox.check schema change.value = true

/-- Only sets change persisted values; a load writes to its notes, which are no namespace. -/
def KeepsPersisted (s : AgentRuntime) (e : Event) : Prop :=
  ∀ ns, (s.step typeBox capabilities e).stored ns ≠ s.stored ns →
    (ns = orphansKey ∧ s.mergedSchema.lookup ns = none) ∨
      ∃ i change oldValue, e = .serve i ∧
        s.tasks[i]? = some (.persisting change oldValue false) ∧ change.ns = ns

def pending (s : AgentRuntime) : Set Change := {change | ∃ task ∈ s.tasks, change ∈ task.change}

/-- No load has namespaces left. -/
def NoLoad (s : AgentRuntime) : Prop := ∀ task ∈ s.tasks, task.remaining = none

/-- The snapshot holds the value already, or no hooks are being called but by the task itself. -/
def Undisturbed (s : AgentRuntime) (i : Nat) (ns : String) (value : Json) : Prop :=
  s.agentConfigSnapshot.get ns = some value ∨ ∀ task ∈ s.tasks.eraseIdx i, task.dispatch = none

/-- A load that writes to the snapshot, and a set that publishes its value, do so under the schema
that the namespace still has and with the value that is still the stored one, unless another set
is on its way; the set finds the old value as it has read it. -/
def Timely (s : AgentRuntime) (i : Nat) : Task → Prop
  | .reading ns nsSchema _ _ (some stored) =>
    (∀ schema, s.mergedSchema.lookup ns = some schema → schema = nsSchema ∧
      (s.stored ns = stored ∨ ∃ change ∈ s.pending, change.ns = ns)) ∧
    s.Undisturbed i ns (typeBox.valueFor nsSchema stored)
  | .persisting change oldValue true =>
    (∀ schema, s.mergedSchema.lookup change.ns = some schema → schema = change.schema ∧
      (s.stored change.ns = some change.value ∨
        ∃ other ∈ (s.detach i).pending, other.ns = change.ns)) ∧
    s.agentConfigSnapshot.get change.ns = some oldValue ∧ s.Undisturbed i change.ns change.value
  | _ => True

/-- A set is persisted while its namespace has the schema it was checked against, and orphans are
noted while no namespace has the name of the notes. -/
def Servable (s : AgentRuntime) : Task → Prop
  | .writingOrphans _ _ _ false => s.mergedSchema.lookup orphansKey = none
  | .persisting change _ false => s.mergedSchema.lookup change.ns = some change.schema
  | _ => True

/-- A bundle is installed before the configuration is loaded, or it gives no namespace a new
schema for which the snapshot is not settled already. -/
def Installable (s : AgentRuntime) (loaded : Option DispatchHost.BundleConfigMetadata) : Prop :=
  (s.agentConfigLoaded = false ∧ s.NoLoad) ∨
    ∀ ns schema, (s.install loaded).mergedSchema.lookup ns = some schema →
      s.mergedSchema.lookup ns = some schema ∨ (s.Settled typeBox ns schema ∧ s.NoLoad)

def Careful (s : AgentRuntime) : Event → Prop
  | .serve i => ∀ task, s.tasks[i]? = some task → s.Servable task
  | .resume i _ => ∀ task, s.tasks[i]? = some task → s.Timely typeBox i task
  | .install loaded => s.Installable typeBox loaded
  | _ => True

/-- A namespace is settled, or a set will publish its value. -/
def Current (s : AgentRuntime) (pending : Set Change) (ns : String)
    (schema : Bundle.SchemaValue) : Prop :=
  s.Settled typeBox ns schema ∨ ∃ change ∈ pending, change.ns = ns

/-- Every namespace is current but for the entries that a load has left. -/
def CurrentBut (s : AgentRuntime) (pending : Set Change) (entries : Schemas) : Prop :=
  ∀ ns schema, s.mergedSchema.lookup ns = some schema →
    (ns, schema) ∈ entries ∨ s.Current typeBox pending ns schema

/-- What holds at any point of a careful run, with the sets that are on their way. -/
structure Kept (s : AgentRuntime) (pending : Set Change) : Prop where
  cache : s.getCachedAgentConfigSchema = s.mergedSchema
  checked : ∀ change ∈ pending, typeBox.check change.schema change.value = true
  loading : ∀ task ∈ s.tasks, ∀ entries ∈ task.remaining, s.CurrentBut typeBox pending entries
  loaded : s.agentConfigLoaded = true → s.CurrentBut typeBox pending []
  calling : ∀ task ∈ s.tasks, ∀ dispatch ∈ task.dispatch,
    dispatch.priorSnapshot = dispatch.before ∧ dispatch.after = s.agentConfigSnapshot
  told : s.HooksTold

/-- The invariant of careful runs. -/
def Coherent (s : AgentRuntime) : Prop := s.Kept typeBox s.pending

def changeSet (change : Option Change) : Set Change := {c | c ∈ change}

variable {typeBox capabilities} {s : AgentRuntime} {pending : Set Change}

variable {change : Option Change}

@[simp] theorem mem_changeSet {c : Change} :
    c ∈ changeSet change ↔ change = some c := Iff.rfl

theorem mem_pending {c : Change} : c ∈ s.pending ↔ ∃ task ∈ s.tasks, task.change = some c := Iff.rfl

@[simp] theorem union_changeSet_none : pending ∪ changeSet none = pending := by
  ext c
  simp

theorem pending_suspend (task : Task) (s : AgentRuntime) :
    (s.suspend task).pending = s.pending ∪ changeSet task.change := by
  ext change
  simp only [Set.mem_union, mem_changeSet, mem_pending, suspend, mem_append, mem_singleton]
  constructor
  · rintro ⟨t, ht | rfl, hchange⟩
    · exact .inl ⟨t, ht, hchange⟩
    · exact .inr hchange
  · rintro (⟨t, ht, hchange⟩ | hchange)
    · exact ⟨t, .inl ht, hchange⟩
    · exact ⟨task, .inr rfl, hchange⟩

variable {task : Task}

variable {i : Nat}

theorem pending_detach (h : s.tasks[i]? = some task) :
    s.pending = (s.detach i).pending ∪ changeSet task.change := by
  have hmem : ∀ t, t ∈ s.tasks ↔ t = task ∨ t ∈ s.tasks.eraseIdx i := by
    intro t
    obtain ⟨hi, rfl⟩ := List.getElem?_eq_some_iff.mp h
    rw [(getElem_cons_eraseIdx_perm hi).symm.mem_iff, mem_cons]
  ext change
  simp only [Set.mem_union, mem_changeSet, mem_pending, detach, hmem]
  constructor
  · rintro ⟨t, rfl | ht, hchange⟩
    · exact .inr hchange
    · exact .inl ⟨t, ht, hchange⟩
  · rintro (⟨t, ht, hchange⟩ | hchange)
    · exact ⟨t, .inr ht, hchange⟩
    · exact ⟨task, .inl rfl, hchange⟩

variable {entries : Schemas}

theorem CurrentBut.mono {s' : AgentRuntime} {pending' : Set Change}
    (h : s.CurrentBut typeBox pending entries) (hmerged : s'.mergedSchema = s.mergedSchema)
    (hcurrent : ∀ ns schema, s.mergedSchema.lookup ns = some schema →
      s.Current typeBox pending ns schema → s'.Current typeBox pending' ns schema) :
    s'.CurrentBut typeBox pending' entries := by
  intro ns schema hschema
  rw [hmerged] at hschema
  exact (h ns schema hschema).imp_right (hcurrent ns schema hschema)

theorem Kept.suspend (h : s.Kept typeBox (s.pending ∪ changeSet task.change))
    (hloading : ∀ entries ∈ task.remaining,
      s.CurrentBut typeBox (s.pending ∪ changeSet task.change) entries)
    (hcalling : ∀ dispatch ∈ task.dispatch,
      dispatch.priorSnapshot = dispatch.before ∧ dispatch.after = s.agentConfigSnapshot) :
    (s.suspend task).Coherent typeBox := by
  unfold Coherent
  rw [pending_suspend]
  refine { h with loading := ?_, calling := ?_ }
  · intro t ht
    rcases mem_append.mp ht with ht | ht
    · exact h.loading t ht
    · rw [mem_singleton.mp ht]
      exact hloading
  · intro t ht
    rcases mem_append.mp ht with ht | ht
    · exact h.calling t ht
    · rw [mem_singleton.mp ht]
      exact hcalling

theorem Coherent.detach (h : s.Coherent typeBox) (htask : s.tasks[i]? = some task) :
    (s.detach i).Kept typeBox ((s.detach i).pending ∪ changeSet task.change) := by
  unfold Coherent at h
  rw [← pending_detach htask]
  have hsub : ∀ t ∈ s.tasks.eraseIdx i, t ∈ s.tasks := fun t ht => mem_of_mem_eraseIdx ht
  exact { h with
    loading := fun t ht => h.loading t (hsub t ht)
    calling := fun t ht => h.calling t (hsub t ht) }

theorem Kept.cacheSchema (h : s.Kept typeBox pending) : s.cacheSchema.Kept typeBox pending :=
  { h with cache := h.cache }

variable {ns : String}

theorem Kept.setSnapshot (h : s.Kept typeBox pending) {value : Json}
    (hns : ∀ schema, s.mergedSchema.lookup ns = some schema →
      (s.setSnapshot ns value).Current typeBox pending ns schema)
    (hfree : s.agentConfigSnapshot.get ns = some value ∨ ∀ task ∈ s.tasks, task.dispatch = none) :
    (s.setSnapshot ns value).Kept typeBox pending := by
  have hcurrent : ∀ other schema, s.mergedSchema.lookup other = some schema →
      s.Current typeBox pending other schema →
        (s.setSnapshot ns value).Current typeBox pending other schema := by
    intro other schema hschema hother
    by_cases heq : other = ns
    · subst heq
      exact hns schema hschema
    · refine hother.imp_left fun hsettled => ?_
      exact ((JsonObject.get_set ..).trans (if_neg heq)).trans hsettled
  refine { h with loading := ?_, loaded := ?_, calling := ?_ }
  · exact fun t ht entries hentries => (h.loading t ht entries hentries).mono rfl hcurrent
  · exact fun hloaded => (h.loaded hloaded).mono rfl hcurrent
  · intro t ht dispatch hdispatch
    obtain ⟨hprior, hafter⟩ := h.calling t ht dispatch hdispatch
    refine ⟨hprior, hafter.trans ?_⟩
    rcases hfree with hsame | hnone
    · exact (JsonObject.set_eq_self hsame).symm
    · rw [Option.mem_def, hnone t ht] at hdispatch
      cases hdispatch

theorem Kept.drop {change : Change} (h : s.Kept typeBox (pending ∪ changeSet (some change)))
    (hns : ∀ schema, s.mergedSchema.lookup change.ns = some schema →
      s.Current typeBox pending change.ns schema) : s.Kept typeBox pending := by
  have hcurrent : ∀ ns schema, s.mergedSchema.lookup ns = some schema →
      s.Current typeBox (pending ∪ changeSet (some change)) ns schema →
        s.Current typeBox pending ns schema := by
    rintro ns schema hschema (hsettled | ⟨c, hc | hc, rfl⟩)
    · exact .inl hsettled
    · exact .inr ⟨c, hc, rfl⟩
    · cases mem_changeSet.mp hc
      exact hns schema hschema
  refine { h with checked := ?_, loading := ?_, loaded := ?_ }
  · exact fun c hc => h.checked c (.inl hc)
  · exact fun t ht entries hentries => (h.loading t ht entries hentries).mono rfl hcurrent
  · exact fun hloaded => (h.loaded hloaded).mono rfl hcurrent

theorem Coherent.carry (h : s.Coherent typeBox) {change : Change}
    (hchecked : typeBox.check change.schema change.value = true) :
    s.Kept typeBox (s.pending ∪ changeSet (some change)) := by
  have hcurrent : ∀ ns schema, s.mergedSchema.lookup ns = some schema →
      s.Current typeBox s.pending ns schema →
        s.Current typeBox (s.pending ∪ changeSet (some change)) ns schema :=
    fun ns schema _ => Or.imp_right fun ⟨c, hc, hns⟩ => ⟨c, .inl hc, hns⟩
  refine { h with checked := ?_, loading := ?_, loaded := ?_ }
  · rintro c (hc | hc)
    · exact h.checked c hc
    · cases mem_changeSet.mp hc
      exact hchecked
  · exact fun t ht entries hentries => (h.loading t ht entries hentries).mono rfl hcurrent
  · exact fun hloaded => (h.loaded hloaded).mono rfl hcurrent

theorem Kept.returned (h : s.Kept typeBox (s.pending ∪ changeSet change)) :
    (s.returned change).Coherent typeBox := by
  cases change with
  | none =>
    rw [union_changeSet_none] at h
    exact h
  | some change => exact h.suspend (by rintro _ ⟨⟩) (by rintro _ ⟨⟩)

theorem Kept.loadEntries (h : s.Kept typeBox (s.pending ∪ changeSet change))
    (hentries : s.CurrentBut typeBox (s.pending ∪ changeSet change) entries) :
    (s.loadEntries entries change).Coherent typeBox := by
  cases entries with
  | nil =>
    refine Kept.returned (s := { s with agentConfigLoaded := true }) { h with loaded := ?_ }
    exact fun _ => hentries
  | cons entry rest =>
    refine h.suspend ?_ (by rintro _ ⟨⟩)
    rintro entries ⟨⟩
    exact hentries

theorem Kept.ensureAgentConfigLoaded (h : s.Kept typeBox (s.pending ∪ changeSet change)) :
    (s.ensureAgentConfigLoaded change).Coherent typeBox := by
  unfold AgentRuntime.ensureAgentConfigLoaded
  split
  · exact h.returned
  · rw [h.cache]
    refine h.cacheSchema.loadEntries fun ns schema hschema => .inl ?_
    change s.mergedSchema.lookup ns = some schema at hschema
    obtain ⟨front, back, hsplit, -⟩ := lookup_eq_some_iff.mp hschema
    rw [hsplit]
    exact mem_append_right front (mem_cons_self ..)

theorem Kept.entryRead {nsSchema : Bundle.SchemaValue} {rest : Schemas} {stored : Option Json}
    (h : s.Kept typeBox (s.pending ∪ changeSet change))
    (hrest : s.CurrentBut typeBox (s.pending ∪ changeSet change) ((ns, nsSchema) :: rest))
    (hns : ∀ schema, s.mergedSchema.lookup ns = some schema → schema = nsSchema ∧
      (s.stored ns = stored ∨ ∃ c ∈ s.pending ∪ changeSet change, c.ns = ns))
    (hfree : s.agentConfigSnapshot.get ns = some (typeBox.valueFor nsSchema stored) ∨
      ∀ task ∈ s.tasks, task.dispatch = none) :
    (s.entryRead typeBox ns nsSchema rest change stored).Coherent typeBox := by
  -- every branch writes the value that the schema makes of what was read
  have hcurrent : ∀ schema, s.mergedSchema.lookup ns = some schema →
      (s.setSnapshot ns (typeBox.valueFor nsSchema stored)).Current typeBox
        (s.pending ∪ changeSet change) ns schema := by
    intro schema hschema
    obtain ⟨rfl, hstored | hset⟩ := hns schema hschema
    · left
      refine ((JsonObject.get_set ..).trans (if_pos rfl)).trans ?_
      exact congrArg (fun v => some (typeBox.valueFor schema v)) hstored.symm
    · exact .inr hset
  have hwritten := h.setSnapshot hcurrent hfree
  have hleft : (s.setSnapshot ns (typeBox.valueFor nsSchema stored)).CurrentBut typeBox
      (s.pending ∪ changeSet change) rest := by
    intro ns' schema hschema
    by_cases heq : ns' = ns
    · subst heq
      exact .inr (hcurrent schema hschema)
    · rcases hrest ns' schema hschema with hmem | hold
      · refine .inl ((mem_cons.mp hmem).resolve_left fun hhead => heq ?_)
        exact congrArg Prod.fst hhead
      · refine .inr (hold.imp_left fun hsettled => ?_)
        exact ((JsonObject.get_set ..).trans (if_neg heq)).trans hsettled
  unfold AgentRuntime.entryRead
  cases stored with
  | none => exact hwritten.loadEntries hleft
  | some stored =>
    unfold TypeBox.valueFor at hwritten hleft
    by_cases hcheck : typeBox.check nsSchema stored = true
    · simp only [hcheck, if_true] at hwritten hleft ⊢
      exact hwritten.loadEntries hleft
    · simp only [hcheck, Bool.false_eq_true, if_false] at hwritten hleft ⊢
      refine hwritten.suspend ?_ (by rintro _ ⟨⟩)
      rintro entries ⟨⟩
      exact hleft

theorem checkedChange_checked {schemas : Schemas} {value : Json} {change : Change}
    (h : checkedChange typeBox schemas ns value = some change) :
    typeBox.check change.schema change.value = true := by
  obtain ⟨schema, -, hcheck⟩ := Option.bind_eq_some_iff.mp h
  split at hcheck
  · cases hcheck
    assumption
  · cases hcheck

theorem Kept.persist {change : Change} (h : s.Kept typeBox (s.pending ∪ changeSet (some change))) :
    (s.persist typeBox change).Coherent typeBox :=
  h.suspend (by rintro _ ⟨⟩) (by rintro _ ⟨⟩)

variable {dispatch : Dispatch}

variable {hooks : List Hook}

theorem nextCall_spec {live : JsonObject} {rest : List Hook}
    {call : HookCall} (h : nextCall dispatch live hooks = some (call, rest)) :
    call.dispatch = dispatch ∧ call.oldSlice = call.hook.slice dispatch.priorSnapshot ∧
      call.newSlice = call.hook.slice live := by
  induction hooks with
  | nil => cases h
  | cons hook hooks ih =>
    rw [nextCall] at h
    split at h
    · exact ih h
    · cases h
      exact ⟨rfl, rfl, rfl⟩

theorem Coherent.callHook (h : s.Coherent typeBox) {rest : List Hook}
    {call : HookCall} {isStatic : Bool}
    (hdispatch : dispatch.priorSnapshot = dispatch.before ∧
      dispatch.after = s.agentConfigSnapshot)
    (hcall : nextCall dispatch s.agentConfigSnapshot hooks = some (call, rest)) :
    (s.callHook call rest isStatic).Coherent typeBox := by
  obtain ⟨rfl, hold, hnew⟩ := nextCall_spec hcall
  have hlogged : Kept typeBox { s with calls := s.calls ++ [call] } s.pending := by
    refine { h with told := ?_ }
    intro c hc
    rcases mem_append.mp hc with hc | hc
    · exact h.told c hc
    · rw [mem_singleton.mp hc, hold, hnew, hdispatch.1, hdispatch.2]
      exact ⟨rfl, rfl⟩
  rw [← @union_changeSet_none s.pending] at hlogged
  refine hlogged.suspend (by rintro _ ⟨⟩) ?_
  rintro d ⟨⟩
  exact hdispatch

theorem Coherent.callBundleHooks (h : s.Coherent typeBox)
    (hooks : List Hook) (hdispatch : dispatch.priorSnapshot = dispatch.before ∧
      dispatch.after = s.agentConfigSnapshot) :
    (s.callBundleHooks dispatch hooks).Coherent typeBox := by
  unfold AgentRuntime.callBundleHooks
  cases hcall : nextCall dispatch s.agentConfigSnapshot hooks with
  | none => exact h
  | some next => exact h.callHook hdispatch hcall

theorem Coherent.callStaticHooks (h : s.Coherent typeBox)
    (hooks : List Hook) (hdispatch : dispatch.priorSnapshot = dispatch.before ∧
      dispatch.after = s.agentConfigSnapshot) :
    (s.callStaticHooks dispatch hooks).Coherent typeBox := by
  unfold AgentRuntime.callStaticHooks
  cases hcall : nextCall dispatch s.agentConfigSnapshot hooks with
  | none => exact h.callBundleHooks _ hdispatch
  | some next => exact h.callHook hdispatch hcall

theorem Kept.publish {change : Change} {oldValue : Json}
    (h : s.Kept typeBox (s.pending ∪ changeSet (some change)))
    (hns : ∀ schema, s.mergedSchema.lookup change.ns = some schema → schema = change.schema ∧
      (s.stored change.ns = some change.value ∨ ∃ other ∈ s.pending, other.ns = change.ns))
    (hold : s.agentConfigSnapshot.get change.ns = some oldValue)
    (hfree : s.agentConfigSnapshot.get change.ns = some change.value ∨
      ∀ task ∈ s.tasks, task.dispatch = none) :
    (s.publish capabilities change oldValue).Coherent typeBox := by
  have hchecked := h.checked change (.inr (mem_changeSet.mpr rfl))
  have hcurrent : ∀ schema, s.mergedSchema.lookup change.ns = some schema →
      (s.setSnapshot change.ns change.value).Current typeBox s.pending change.ns schema := by
    intro schema hschema
    obtain ⟨rfl, hstored | hset⟩ := hns schema hschema
    · left
      refine ((JsonObject.get_set ..).trans (if_pos rfl)).trans ?_
      change _ = some (typeBox.valueFor change.schema (s.stored change.ns))
      rw [hstored, TypeBox.valueFor, if_pos hchecked]
    · exact .inr hset
  have hwritten := h.setSnapshot (fun schema hschema => (hcurrent schema hschema).imp_right
    fun ⟨c, hc, hcns⟩ => ⟨c, .inl hc, hcns⟩) hfree
  refine Coherent.callStaticHooks (hwritten.drop hcurrent) _ ⟨?_, rfl⟩
  -- the old value put back into the new snapshot gives the snapshot before the set
  exact (JsonObject.set_set ..).trans (JsonObject.set_eq_self hold)

theorem served_spec (s : AgentRuntime) (task : Task) :
    (s.served task).1.change = task.change ∧ (s.served task).1.remaining = task.remaining ∧
      (s.served task).1.dispatch = task.dispatch ∧
      (s.served task).2 = { s with stored := (s.served task).2.stored } := by
  cases task with
  | reading _ _ _ _ answer => cases answer <;> exact ⟨rfl, rfl, rfl, rfl⟩
  | readingOrphans _ _ _ _ answer => cases answer <;> exact ⟨rfl, rfl, rfl, rfl⟩
  | writingOrphans _ _ _ done => cases done <;> exact ⟨rfl, rfl, rfl, rfl⟩
  | loadReturned => exact ⟨rfl, rfl, rfl, rfl⟩
  | persisting _ _ done => cases done <;> exact ⟨rfl, rfl, rfl, rfl⟩
  | calling => exact ⟨rfl, rfl, rfl, rfl⟩

theorem stored_served (h : (s.served task).2.stored ns ≠ s.stored ns) :
    (∃ orphans rest change, task = .writingOrphans orphans rest change false ∧ ns = orphansKey) ∨
      ∃ change oldValue, task = .persisting change oldValue false ∧ change.ns = ns := by
  have hupdate : ∀ key value, (s.store key value).stored ns ≠ s.stored ns → ns = key := by
    intro key value hne
    by_contra hother
    exact hne (Function.update_of_ne hother ..)
  cases task with
  | reading _ _ _ _ answer => cases answer <;> exact absurd rfl h
  | readingOrphans _ _ _ _ answer => cases answer <;> exact absurd rfl h
  | writingOrphans orphans rest change done =>
    cases done with
    | false => exact .inl ⟨orphans, rest, change, rfl, hupdate _ _ h⟩
    | true => exact absurd rfl h
  | loadReturned => exact absurd rfl h
  | persisting change oldValue done =>
    cases done with
    | false => exact .inr ⟨change, oldValue, rfl, (hupdate _ _ h).symm⟩
    | true => exact absurd rfl h
  | calling => exact absurd rfl h

theorem serve_eq (htask : s.tasks[i]? = some task) :
    s.serve i = { s with
      stored := (s.served task).2.stored
      tasks := s.tasks.set i (s.served task).1 } := by
  have hrest := (served_spec s task).2.2.2
  unfold serve
  rw [htask]
  simp only
  rw [hrest]

theorem Kept.write (h : s.Kept typeBox pending) {stored : String → Option Json}
    (hns : ∀ ns schema, s.mergedSchema.lookup ns = some schema →
      stored ns = s.stored ns ∨ ∃ change ∈ pending, change.ns = ns) :
    Kept typeBox { s with stored := stored } pending := by
  have hcurrent : ∀ ns schema, s.mergedSchema.lookup ns = some schema →
      s.Current typeBox pending ns schema →
        Current typeBox { s with stored := stored } pending ns schema := by
    intro ns schema hschema hold
    rcases hns ns schema hschema with hsame | hset
    · refine hold.imp_left fun hsettled => hsettled.trans ?_
      exact congrArg (fun v => some (typeBox.valueFor schema v)) hsame.symm
    · exact .inr hset
  refine { h with loading := ?_, loaded := ?_ }
  · exact fun t ht entries hentries => (h.loading t ht entries hentries).mono rfl hcurrent
  · exact fun hloaded => (h.loaded hloaded).mono rfl hcurrent

theorem Coherent.serve (h : s.Coherent typeBox)
    (hserve : ∀ task, s.tasks[i]? = some task → s.Servable task) :
    (s.serve i).Coherent typeBox := by
  cases htask : s.tasks[i]? with
  | none =>
    unfold AgentRuntime.serve
    rw [htask]
    exact h
  | some task =>
    obtain ⟨hchange, hremaining, hdispatch, -⟩ := served_spec s task
    have hin : task ∈ s.tasks := mem_of_getElem? htask
    have hset : (s.tasks.set i (s.served task).1).Perm
        ((s.served task).1 :: s.tasks.eraseIdx i) :=
      set_perm_cons_eraseIdx (List.getElem?_eq_some_iff.mp htask).choose _
    have hpending : (s.serve i).pending = s.pending := by
      rw [pending_detach htask, serve_eq htask]
      ext c
      simp only [Set.mem_union, mem_changeSet, mem_pending, hset.mem_iff, mem_cons]
      constructor
      · rintro ⟨t, rfl | ht, hc⟩
        · exact .inr (hchange ▸ hc)
        · exact .inl ⟨t, ht, hc⟩
      · rintro (⟨t, ht, hc⟩ | hc)
        · exact ⟨t, .inr ht, hc⟩
        · exact ⟨_, .inl rfl, hchange.trans hc⟩
    -- only a set that is served leaves its namespace behind, and it is on its way
    have hwrite : ∀ ns schema, s.mergedSchema.lookup ns = some schema →
        (s.served task).2.stored ns = s.stored ns ∨ ∃ change ∈ s.pending, change.ns = ns := by
      intro ns schema hschema
      by_contra hne
      obtain ⟨hstored, hnone⟩ := not_or.mp hne
      rcases stored_served hstored with ⟨orphans, rest, change, rfl, rfl⟩ | ⟨change, old, rfl, hns⟩
      · have hfree : s.mergedSchema.lookup orphansKey = none := hserve _ htask
        rw [hfree] at hschema
        cases hschema
      · exact hnone ⟨change, ⟨_, hin, rfl⟩, hns⟩
    have hwritten := Kept.write h hwrite
    unfold Coherent
    rw [hpending, serve_eq htask]
    refine { hwritten with loading := ?_, calling := ?_ }
    · intro t ht
      rcases mem_or_eq_of_mem_set ht with ht | rfl
      · exact hwritten.loading t ht
      · rw [hremaining]
        exact hwritten.loading task hin
    · intro t ht
      rcases mem_or_eq_of_mem_set ht with ht | rfl
      · exact hwritten.calling t ht
      · rw [hdispatch]
        exact hwritten.calling task hin

theorem Coherent.resume (h : s.Coherent typeBox) {now : String}
    (htimely : ∀ task, s.tasks[i]? = some task → s.Timely typeBox i task) :
    (s.resume typeBox capabilities i now).Coherent typeBox := by
  unfold AgentRuntime.resume
  cases htask : s.tasks[i]? with
  | none => exact h
  | some task =>
    have hdetached := h.detach htask
    have hin : task ∈ s.tasks := mem_of_getElem? htask
    have hrest := h.loading task hin
    have hcalling := h.calling task hin
    have hintime := htimely task htask
    rw [pending_detach htask] at hrest
    have hwaits : ((s.detach i).suspend task).Coherent typeBox := hdetached.suspend hrest hcalling
    cases task with
    | reading ns nsSchema rest change answer =>
      cases answer with
      | none => exact hwaits
      | some stored =>
        obtain ⟨hns, hfree⟩ := hintime
        rw [pending_detach htask] at hns
        exact hdetached.entryRead (hrest _ rfl) hns hfree
    | readingOrphans ns stored rest change answer =>
      cases answer with
      | none => exact hwaits
      | some existing =>
        refine Kept.suspend ?_ ?_ ?_
        · exact hdetached
        · exact hrest
        · rintro _ ⟨⟩
    | writingOrphans orphans rest change done =>
      cases done with
      | false => exact hwaits
      | true => exact hdetached.loadEntries (hrest _ rfl)
    | loadReturned change => exact hdetached.persist
    | persisting change oldValue done =>
      cases done with
      | false => exact hwaits
      | true =>
        obtain ⟨hns, hold, hfree⟩ := hintime
        exact hdetached.publish hns hold hfree
    | calling dispatch hooks isStatic =>
      have hfree : (s.detach i).Coherent typeBox := by
        unfold Coherent
        rw [← @union_changeSet_none (s.detach i).pending]
        exact hdetached
      cases isStatic with
      | false => exact hfree.callBundleHooks hooks (hcalling _ rfl)
      | true => exact hfree.callStaticHooks hooks (hcalling _ rfl)

theorem Coherent.install (h : s.Coherent typeBox)
    {loaded : Option DispatchHost.BundleConfigMetadata} (hinstall : s.Installable typeBox loaded) :
    (s.install loaded).Coherent typeBox := by
  refine { h with cache := rfl, loading := ?_, loaded := ?_ }
  · intro t ht entries hentries ns schema hschema
    rcases hinstall with ⟨-, hnone⟩ | hsame
    · rw [hnone t ht] at hentries
      cases hentries
    · rcases hsame ns schema hschema with hold | ⟨-, hnone⟩
      · exact h.loading t ht entries hentries ns schema hold
      · rw [hnone t ht] at hentries
        cases hentries
  · intro (hloaded : s.agentConfigLoaded = true) ns schema hschema
    rcases hinstall with ⟨hfalse, -⟩ | hsame
    · rw [hfalse] at hloaded
      cases hloaded
    · rcases hsame ns schema hschema with hold | ⟨hsettled, -⟩
      · exact h.loaded hloaded ns schema hold
      · exact .inr (.inl hsettled)

theorem Coherent.applyAgentConfigSet (h : s.Coherent typeBox) (ns : String) (value : Json) :
    (s.applyAgentConfigSet typeBox ns value).Coherent typeBox := by
  have hcached : s.cacheSchema.Coherent typeBox := Kept.cacheSchema h
  unfold AgentRuntime.applyAgentConfigSet
  simp only
  cases hchange : checkedChange typeBox s.cacheSchema.getCachedAgentConfigSchema ns value with
  | none => exact hcached
  | some change =>
    exact (hcached.carry (checkedChange_checked hchange)).ensureAgentConfigLoaded

theorem Coherent.configSet (h : s.Coherent typeBox) (context : Nat) (ns : String) (value : Json) :
    (s.configSet typeBox context ns value).Coherent typeBox := by
  unfold AgentRuntime.configSet
  cases hchange : (s.contexts[context]?).bind
      fun schemas => checkedChange typeBox schemas ns value with
  | none => exact h
  | some change =>
    obtain ⟨schemas, -, hchecked⟩ := Option.bind_eq_some_iff.mp hchange
    exact (h.carry (checkedChange_checked hchecked)).persist

theorem Coherent.collectTools (h : s.Coherent typeBox) : s.collectTools.Coherent typeBox := by
  unfold AgentRuntime.collectTools
  split
  · exact { Kept.cacheSchema h with }
  · exact h

variable {e : Event}

theorem Coherent.step (h : s.Coherent typeBox) (he : s.Careful typeBox e) :
    (s.step typeBox capabilities e).Coherent typeBox := by
  cases e with
  | load =>
    refine Kept.ensureAgentConfigLoaded ?_
    rw [union_changeSet_none]
    exact h
  | collectTools => exact h.collectTools
  | applyAgentConfigSet ns value => exact h.applyAgentConfigSet ns value
  | configSet context ns value => exact h.configSet context ns value
  | serve i => exact h.serve he
  | resume i now => exact h.resume he
  | install loaded => exact h.install he
  | hibernate =>
    have hempty : s.hibernate.pending = ∅ := by
      ext c
      simp [mem_pending, hibernate]
    change s.hibernate.Kept typeBox s.hibernate.pending
    rw [hempty]
    exact ⟨rfl, by simp, by rintro t ⟨⟩, by rintro ⟨⟩, by rintro t ⟨⟩, h.told⟩

/-- A new instance over what is stored. -/
def start (stored : String → Option Json) (hostSchema : Schemas) : AgentRuntime :=
  { stored := stored, hostSchema := hostSchema }

theorem coherent_start (stored : String → Option Json) (hostSchema : Schemas) :
    (start stored hostSchema).Coherent typeBox := by
  have hempty : (start stored hostSchema).pending = ∅ := by
    ext c
    simp [mem_pending, start]
  unfold Coherent
  rw [hempty]
  exact ⟨rfl, by simp, by rintro t ⟨⟩, by rintro ⟨⟩, by rintro t ⟨⟩, by rintro call ⟨⟩⟩

theorem Coherent.agrees (h : s.Coherent typeBox) : s.Agrees typeBox := by
  intro hloaded hidle ns schema hschema
  rcases h.loaded hloaded ns schema hschema with hleft | hsettled | ⟨change, ⟨task, htask, -⟩, -⟩
  · cases hleft
  · exact hsettled
  · rw [hidle] at htask
    cases htask

theorem Coherent.setsConform (h : s.Coherent typeBox) (he : s.Careful typeBox e) :
    s.SetsConform typeBox e := by
  rintro i change oldValue rfl htask
  exact ⟨change.schema, he _ htask, h.checked change ⟨_, mem_of_getElem? htask, rfl⟩⟩

/-! ### Only the storage writes -/

@[simp] theorem stored_suspend (task : Task) (s : AgentRuntime) :
    (s.suspend task).stored = s.stored := rfl

@[simp] theorem stored_setSnapshot (ns : String) (value : Json) (s : AgentRuntime) :
    (s.setSnapshot ns value).stored = s.stored := rfl

@[simp] theorem stored_detach (i : Nat) (s : AgentRuntime) : (s.detach i).stored = s.stored := rfl

@[simp] theorem stored_cacheSchema (s : AgentRuntime) : s.cacheSchema.stored = s.stored := rfl

@[simp] theorem stored_persist (change : Change) (s : AgentRuntime) :
    (s.persist typeBox change).stored = s.stored := rfl

@[simp] theorem stored_returned (change : Option Change) (s : AgentRuntime) :
    (s.returned change).stored = s.stored := by
  cases change <;> rfl

@[simp] theorem stored_loadEntries (entries : Schemas) (change : Option Change)
    (s : AgentRuntime) : (s.loadEntries entries change).stored = s.stored := by
  cases entries with
  | nil => exact stored_returned ..
  | cons => rfl

@[simp] theorem stored_ensureAgentConfigLoaded (change : Option Change) (s : AgentRuntime) :
    (s.ensureAgentConfigLoaded change).stored = s.stored := by
  unfold AgentRuntime.ensureAgentConfigLoaded
  split <;> simp

@[simp] theorem stored_entryRead (ns : String) (nsSchema : Bundle.SchemaValue) (rest : Schemas)
    (change : Option Change) (stored : Option Json) (s : AgentRuntime) :
    (s.entryRead typeBox ns nsSchema rest change stored).stored = s.stored := by
  unfold AgentRuntime.entryRead
  cases stored with
  | none => simp
  | some stored => simp only; split <;> simp

@[simp] theorem stored_callBundleHooks (dispatch : Dispatch) (hooks : List Hook)
    (s : AgentRuntime) : (s.callBundleHooks dispatch hooks).stored = s.stored := by
  unfold AgentRuntime.callBundleHooks
  split <;> rfl

@[simp] theorem stored_callStaticHooks (dispatch : Dispatch) (hooks : List Hook)
    (s : AgentRuntime) : (s.callStaticHooks dispatch hooks).stored = s.stored := by
  unfold AgentRuntime.callStaticHooks
  split
  · simp
  · rfl

theorem stored_goOn (now : String) (task : Task) (s : AgentRuntime) :
    (s.goOn typeBox capabilities now task).stored = s.stored := by
  cases task with
  | reading _ _ _ _ answer => cases answer <;> simp [goOn]
  | readingOrphans _ _ _ _ answer => cases answer <;> rfl
  | writingOrphans _ _ _ done => cases done <;> simp [goOn]
  | loadReturned => rfl
  | persisting _ _ done => cases done <;> simp [goOn, publish]
  | calling _ _ isStatic => cases isStatic <;> simp [goOn]

theorem stored_step (he : ∀ i, e ≠ .serve i) :
    (s.step typeBox capabilities e).stored = s.stored := by
  cases e with
  | load => exact stored_ensureAgentConfigLoaded ..
  | collectTools =>
    change s.collectTools.stored = s.stored
    unfold AgentRuntime.collectTools
    split <;> rfl
  | applyAgentConfigSet ns value =>
    change (s.applyAgentConfigSet typeBox ns value).stored = s.stored
    unfold AgentRuntime.applyAgentConfigSet
    simp only
    split <;> simp
  | configSet context ns value =>
    change (s.configSet typeBox context ns value).stored = s.stored
    unfold AgentRuntime.configSet
    split <;> simp
  | serve i => exact absurd rfl (he i)
  | resume i now =>
    change (s.resume typeBox capabilities i now).stored = s.stored
    unfold AgentRuntime.resume
    split
    · rfl
    · simp [stored_goOn]
  | install => rfl
  | hibernate => rfl

theorem keepsPersisted_of_careful (he : s.Careful typeBox e) :
    s.KeepsPersisted typeBox capabilities e := by
  intro ns hne
  by_cases hserve : ∃ i, e = .serve i
  · obtain ⟨i, rfl⟩ := hserve
    change (s.serve i).stored ns ≠ s.stored ns at hne
    cases htask : s.tasks[i]? with
    | none =>
      unfold AgentRuntime.serve at hne
      rw [htask] at hne
      exact absurd rfl hne
    | some task =>
      rw [serve_eq htask] at hne
      rcases stored_served hne with ⟨orphans, rest, change, rfl, rfl⟩ | ⟨change, old, rfl, hns⟩
      · exact .inl ⟨rfl, he _ htask⟩
      · exact .inr ⟨i, change, old, rfl, htask, hns⟩
  · rw [stored_step fun i heq => hserve ⟨i, heq⟩] at hne
    exact absurd rfl hne

/-- In a run whose steps all come in time, the snapshot agrees with the storage and hooks are told
what their set has changed, and no step persists what does not conform or changes a persisted
value but by a set. -/
theorem snapshot_agrees (typeBox : TypeBox) (capabilities : List Capability)
    (stored : String → Option Json) (hostSchema : Schemas) (events : List Event)
    (h : Run.Allowed (Careful typeBox) (step typeBox capabilities) (start stored hostSchema)
      events) :
    (∀ before after, events = before ++ after →
      (Run.run (step typeBox capabilities) (start stored hostSchema) before).Agrees typeBox ∧
        (Run.run (step typeBox capabilities) (start stored hostSchema) before).HooksTold) ∧
    ∀ before e after, events = before ++ e :: after →
      (Run.run (step typeBox capabilities) (start stored hostSchema) before).SetsConform typeBox e ∧
        (Run.run (step typeBox capabilities) (start stored hostSchema) before).KeepsPersisted
          typeBox capabilities e := by
  have hcoherent := Run.invariant_of_allowed (I := Coherent typeBox)
    (coherent_start stored hostSchema) (fun _ _ hs he => hs.step he) h
  refine ⟨fun before after hsplit => ?_, fun before e after hsplit => ?_⟩
  · have hs := hcoherent before after hsplit
    exact ⟨hs.agrees, hs.told⟩
  · have hs := hcoherent before (e :: after) hsplit
    have he := h before e after hsplit
    exact ⟨hs.setsConform he, keepsPersisted_of_careful he⟩

/-- `Type.Object({ limit: Type.Number() })`. -/
def limitSchema : Bundle.SchemaValue :=
  .obj [("type", .str "object"), ("required", .arr [.str "limit"]),
    ("properties", .obj [("limit", .obj [("type", .str "number")] (some "Number"))] none)]
    (some "Object")

/-- TypeBox on that schema. -/
def limitBox : TypeBox where
  check _ value := ((Json.field "limit" value).bind Json.asNumber).isSome
  create _ := .obj [("limit", .num 0)]

/-- The UI sets a limit, and the hook of a capability is told. -/
theorem snapshot_agrees_limitSet :
    let events : List Event := [.load, .serve 0, .resume 0 "", .applyAgentConfigSet "billing"
      (.obj [("limit", .num 5)]), .resume 0 "", .serve 0, .resume 0 "", .resume 0 ""]
    let capabilities : List Capability :=
      [⟨"budget", some fun snapshot => snapshot.get "billing", true⟩]
    let s := Run.run (step limitBox capabilities) (start (fun _ => none) [("billing", limitSchema)])
      events
    s.Agrees limitBox ∧ s.HooksTold := by
  refine (snapshot_agrees limitBox _ _ _ _ ?_).1 _ [] (append_nil _).symm
  refine Run.allowed_cons trivial (Run.allowed_cons ?_ (Run.allowed_cons ?_
    (Run.allowed_cons trivial (Run.allowed_cons ?_ (Run.allowed_cons ?_ (Run.allowed_cons ?_
      (Run.allowed_cons ?_ (Run.allowed_nil _ _ _))))))))
  · rintro task ⟨⟩
    trivial
  · rintro task ⟨⟩
    refine ⟨?_, .inr (by rintro t ⟨⟩)⟩
    rintro schema ⟨⟩
    exact ⟨rfl, .inl rfl⟩
  · rintro task ⟨⟩
    trivial
  · rintro task ⟨⟩
    rfl
  · rintro task ⟨⟩
    refine ⟨?_, rfl, .inr (by rintro t ⟨⟩)⟩
    rintro schema ⟨⟩
    exact ⟨rfl, .inl rfl⟩
  · rintro task ⟨⟩
    trivial

/-- A bundle brings a namespace back after the configuration was loaded: the snapshot lacks the
value that was persisted for it, and no load will read it. -/
theorem snapshot_stale_after_install :
    let loaded : DispatchHost.BundleConfigMetadata := ⟨[], [("billing", limitSchema)], [], []⟩
    let stored : String → Option Json :=
      fun ns => if ns = "billing" then some (.obj [("limit", .num 5)]) else none
    ¬ (Run.run (step limitBox []) (start stored []) [.load, .install (some loaded), .load]).Agrees
      limitBox := by
  intro loaded stored h
  have hsettled := h rfl rfl "billing" limitSchema rfl
  cases hsettled

end AgentRuntime

end CrabbyKit.AgentConfig
