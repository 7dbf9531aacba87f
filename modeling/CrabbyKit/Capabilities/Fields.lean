import CrabbyKit.Capabilities.Runtime

/-!
# What the fields of a runtime hold

The hook fields belong to the run that was started last. The disposers are those of the
capability instances in the cache; those of all earlier instances have been invoked.
-/

namespace CrabbyKit.Capabilities.AgentRuntime

open List

def disposedOf (s : AgentRuntime) (generation : Nat) : List Disposer :=
  s.disposed.filter fun d => d.generation = generation

/-- A hook of the run that was started last, with its session. -/
def Latest (s : AgentRuntime) (hook : Hook) : Prop :=
  hook.run + 1 = s.runs.length ∧
    ∃ run, s.runs[hook.run]? = some run ∧ hook.sessionId = run.sessionId

/-- What the fields of the runtime hold at any time. -/
structure Kept (getCapabilities : Nat → List Capability) (s : AgentRuntime) : Prop where
  beforeInference : ∀ hook ∈ s.beforeInferenceHooks, s.Latest hook
  beforeToolExecution : ∀ hook ∈ s.beforeToolExecutionHooks, s.Latest hook
  afterToolExecution : ∀ hook ∈ s.afterToolExecutionHooks, s.Latest hook
  cached : ∀ generation, s.capabilitiesCache = some generation →
    generation < s.generations ∧ s.disposedOf generation = []
  started : ∀ run ∈ s.runs, run.generation < s.generations
  past : ∀ d ∈ s.disposed, d.generation < s.generations
  pending : ∀ d ∈ s.capabilityDisposers, s.capabilitiesCache = some d.generation
  current : ∀ run ∈ s.runs, s.capabilitiesCache = some run.generation →
    run.stage ≠ .ended ∧
      s.capabilityDisposers = disposersOf (getCapabilities run.generation) run.generation
  left : ∀ run ∈ s.runs, s.capabilitiesCache ≠ some run.generation →
    s.disposedOf run.generation =
      disposersOf (getCapabilities run.generation) run.generation

section Lemmas

variable {getCapabilities : Nat → List Capability} {s : AgentRuntime}

theorem kept_start : Kept getCapabilities {} where
  beforeInference _ h := absurd h not_mem_nil
  beforeToolExecution _ h := absurd h not_mem_nil
  afterToolExecution _ h := absurd h not_mem_nil
  cached _ h := by cases h
  started _ h := absurd h not_mem_nil
  past _ h := absurd h not_mem_nil
  pending _ h := absurd h not_mem_nil
  current _ h := absurd h not_mem_nil
  left _ h := absurd h not_mem_nil

variable {capabilities : List Capability}

theorem mem_hooksOf {has : Capability → Bool}
    {sessionId : String} {r : Nat} {hook : Hook} (h : hook ∈ hooksOf has capabilities sessionId r) :
    hook.run = r ∧ hook.sessionId = sessionId := by
  obtain ⟨cap, -, rfl⟩ := mem_map.mp h
  exact ⟨rfl, rfl⟩

variable {generation : Nat}

theorem mem_disposersOf {d : Disposer}
    (h : d ∈ disposersOf capabilities generation) : d.generation = generation := by
  obtain ⟨cap, -, rfl⟩ := mem_map.mp h
  rfl

theorem filter_disposers {l : List Disposer}
    (h : ∀ d ∈ l, d.generation = generation) (generation' : Nat) :
    l.filter (fun d => d.generation = generation') =
      if generation = generation' then l else [] := by
  by_cases heq : generation = generation'
  · rw [if_pos heq]
    exact List.filter_eq_self.mpr fun d hd => by simp [h d hd, heq]
  · rw [if_neg heq]
    exact filter_eq_nil_iff.mpr fun d hd => by simp [h d hd, heq]

theorem getCachedCapabilities_spec (hs : Kept getCapabilities s) :
    Kept getCapabilities s.getCachedCapabilities.1 ∧
      s.getCachedCapabilities.1.capabilitiesCache = some s.getCachedCapabilities.2 ∧
      s.getCachedCapabilities.1.runs = s.runs ∧
      s.getCachedCapabilities.1.executed = s.executed ∧
      s.getCachedCapabilities.1.beforeInferenceHooks = s.beforeInferenceHooks ∧
      s.getCachedCapabilities.1.beforeToolExecutionHooks = s.beforeToolExecutionHooks ∧
      s.getCachedCapabilities.1.afterToolExecutionHooks = s.afterToolExecutionHooks := by
  unfold getCachedCapabilities
  cases hcache : s.capabilitiesCache with
  | some generation => exact ⟨hs, hcache, rfl, rfl, rfl, rfl, rfl⟩
  | none =>
    refine ⟨?_, rfl, rfl, rfl, rfl, rfl, rfl⟩
    -- no run has resolved the new generation and nothing of it was disposed
    exact
      { beforeInference := hs.beforeInference
        beforeToolExecution := hs.beforeToolExecution
        afterToolExecution := hs.afterToolExecution
        cached := by
          intro generation h
          obtain rfl := Option.some.inj h
          refine ⟨Nat.lt_succ_self _, filter_eq_nil_iff.mpr fun d hd => ?_⟩
          have hlt := hs.past d hd
          simpa using Nat.ne_of_lt hlt
        started := fun run hrun => Nat.lt_succ_of_lt (hs.started run hrun)
        past := fun d hd => Nat.lt_succ_of_lt (hs.past d hd)
        pending := by
          intro d hd
          have hnone := hs.pending d hd
          rw [hcache] at hnone
          cases hnone
        current := by
          intro run hrun h
          have hlt := hs.started run hrun
          have heq := Option.some.inj h
          omega
        left := by
          intro run hrun _
          refine hs.left run hrun ?_
          rw [hcache]
          exact (Option.some_ne_none _).symm }

theorem Kept.execute (hs : Kept getCapabilities s) (r : Nat) (hooks : List Hook) :
    Kept getCapabilities (s.execute r hooks) :=
  ⟨hs.beforeInference, hs.beforeToolExecution, hs.afterToolExecution, hs.cached, hs.started,
    hs.past, hs.pending, hs.current, hs.left⟩

section SetRun

variable {r : Nat} {run run' : AgentRun}

theorem getElem?_setRun (hr : s.runs[r]? = some run) (j : Nat) :
    (s.setRun r run').runs[j]? = if r = j then some run' else s.runs[j]? := by
  rw [setRun, getElem?_set']
  by_cases hrj : r = j
  · subst hrj
    rw [if_pos rfl, if_pos rfl, hr]
    rfl
  · rw [if_neg hrj, if_neg hrj]

theorem mem_setRun {other : AgentRun} (hother : other ∈ (s.setRun r run').runs) :
    other = run' ∨ other ∈ s.runs :=
  (mem_or_eq_of_mem_set hother).symm

theorem session_setRun (hr : s.runs[r]? = some run) (hsession : run'.sessionId = run.sessionId)
    {j : Nat} {sessionId : String}
    (h : ∃ found, s.runs[j]? = some found ∧ sessionId = found.sessionId) :
    ∃ found, (s.setRun r run').runs[j]? = some found ∧ sessionId = found.sessionId := by
  obtain ⟨found, hfound, rfl⟩ := h
  rw [getElem?_setRun hr]
  by_cases hrj : r = j
  · subst hrj
    obtain rfl := Option.some.inj (hr.symm.trans hfound)
    exact ⟨run', if_pos rfl, hsession.symm⟩
  · exact ⟨found, by rw [if_neg hrj, hfound], rfl⟩

theorem Latest.setRun (hr : s.runs[r]? = some run) (hsession : run'.sessionId = run.sessionId)
    {hook : Hook} (h : s.Latest hook) : (s.setRun r run').Latest hook := by
  refine ⟨?_, session_setRun hr hsession h.2⟩
  rw [AgentRuntime.setRun, length_set]
  exact h.1

theorem Kept.setRun (hs : Kept getCapabilities s) (hr : s.runs[r]? = some run)
    (hsession : run'.sessionId = run.sessionId) (hgeneration : run'.generation = run.generation)
    (hstage : run'.stage ≠ .ended) : Kept getCapabilities (s.setRun r run') where
  beforeInference hook h := (hs.beforeInference hook h).setRun hr hsession
  beforeToolExecution hook h := (hs.beforeToolExecution hook h).setRun hr hsession
  afterToolExecution hook h := (hs.afterToolExecution hook h).setRun hr hsession
  cached := hs.cached
  started := by
    intro other hother
    rcases mem_setRun hother with rfl | hold
    · rw [hgeneration]
      exact hs.started run (mem_of_getElem? hr)
    · exact hs.started other hold
  past := hs.past
  pending := hs.pending
  current := by
    intro other hother hcache
    rcases mem_setRun hother with rfl | hold
    · rw [hgeneration] at hcache ⊢
      exact ⟨hstage, (hs.current run (mem_of_getElem? hr) hcache).2⟩
    · exact hs.current other hold hcache
  left := by
    intro other hother hcache
    rcases mem_setRun hother with rfl | hold
    · rw [hgeneration] at hcache ⊢
      exact hs.left run (mem_of_getElem? hr) hcache
    · exact hs.left other hold hcache

theorem Kept.buildAgent (hs : Kept getCapabilities s) (hr : s.runs[r]? = some run) :
    Kept getCapabilities (s.buildAgent r run) := by
  refine hs.setRun hr ?_ ?_ ?_
  · rfl
  · rfl
  · exact Stage.noConfusion

theorem Kept.disposeCached (hs : Kept getCapabilities s) (hr : run ∈ s.runs) :
    (s.disposed ++ s.capabilityDisposers).filter (fun d => d.generation = run.generation) =
      disposersOf (getCapabilities run.generation) run.generation := by
  rw [filter_append]
  by_cases hcache : s.capabilitiesCache = some run.generation
  · have hall : ∀ d ∈ s.capabilityDisposers, d.generation = run.generation :=
      fun d hd => Option.some.inj ((hs.pending d hd).symm.trans hcache)
    rw [filter_disposers hall, if_pos rfl, (hs.current run hr hcache).2]
    exact congrArg (· ++ _) (hs.cached _ hcache).2
  · have hnone : s.capabilityDisposers.filter (fun d => d.generation = run.generation) = [] := by
      refine filter_eq_nil_iff.mpr fun d hd => ?_
      have hne : d.generation ≠ run.generation := by
        intro heq
        exact hcache (heq ▸ hs.pending d hd)
      simpa using hne
    rw [hnone, append_nil]
    exact hs.left run hr hcache

theorem Kept.agentEnd (hs : Kept getCapabilities s) (hr : s.runs[r]? = some run) :
    Kept getCapabilities (s.agentEnd r run) := by
  have hsession : ({ run with stage := .ended } : AgentRun).sessionId = run.sessionId := rfl
  have hlatest : ∀ hook, s.Latest hook → (s.agentEnd r run).Latest hook :=
    fun hook h => h.setRun hr hsession
  have hrun : run ∈ s.runs := mem_of_getElem? hr
  have hdisposed := hs.disposeCached hrun
  exact
    { beforeInference := fun hook h => hlatest hook (hs.beforeInference hook h)
      beforeToolExecution := fun hook h => hlatest hook (hs.beforeToolExecution hook h)
      afterToolExecution := fun hook h => hlatest hook (hs.afterToolExecution hook h)
      cached := fun _ h => by cases h
      started := by
        intro other hother
        rcases mem_setRun hother with rfl | hold
        · exact hs.started run hrun
        · exact hs.started other hold
      past := by
        intro d hd
        rcases mem_append.mp hd with hold | hnew
        · exact hs.past d hold
        · exact (hs.cached _ (hs.pending d hnew)).1
      pending := fun _ h => absurd h not_mem_nil
      current := fun _ _ h => by cases h
      left := by
        intro other hother _
        rcases mem_setRun hother with rfl | hold
        · exact hdisposed
        · exact hs.disposeCached hold }

end SetRun

theorem getElem?_setResolved (s : AgentRuntime) (generation : Nat) (sessionId : String)
    (resolved : ResolvedCapabilities) :
    (s.setResolved generation sessionId resolved).runs[s.runs.length]? =
      some (.start sessionId generation) := by
  rw [setResolved, getElem?_concat_length]

theorem Kept.setResolved (hs : Kept getCapabilities s)
    (hcache : s.capabilitiesCache = some generation) (sessionId : String) :
    Kept getCapabilities (s.setResolved generation sessionId
      (resolveCapabilities (getCapabilities generation) generation sessionId s.runs.length)) := by
  generalize hresolved : resolveCapabilities (getCapabilities generation) generation sessionId
    s.runs.length = resolved
  have hlatest : ∀ has hook, hook ∈ hooksOf has (getCapabilities generation) sessionId
      s.runs.length → (s.setResolved generation sessionId resolved).Latest hook := by
    intro has hook hhook
    obtain ⟨hrun, hsession⟩ := mem_hooksOf hhook
    refine ⟨?_, AgentRun.start sessionId generation, ?_, hsession⟩
    · rw [hrun, AgentRuntime.setResolved, length_append, length_singleton]
    · rw [hrun]
      exact getElem?_setResolved s generation sessionId resolved
  have hruns : ∀ run ∈ (s.setResolved generation sessionId resolved).runs,
      run ∈ s.runs ∨ run = .start sessionId generation :=
    fun run hrun => (mem_append.mp hrun).imp_right mem_singleton.mp
  subst hresolved
  exact
    { beforeInference := hlatest _
      beforeToolExecution := hlatest _
      afterToolExecution := hlatest _
      cached := hs.cached
      started := by
        intro run hrun
        rcases hruns run hrun with hold | rfl
        · exact hs.started run hold
        · exact (hs.cached generation hcache).1
      past := hs.past
      pending := by
        intro d hd
        rw [mem_disposersOf hd]
        exact hcache
      current := by
        intro run hrun h
        have hgeneration : generation = run.generation := Option.some.inj (hcache.symm.trans h)
        refine ⟨?_, hgeneration ▸ rfl⟩
        rcases hruns run hrun with hold | rfl
        · exact (hs.current run hold h).1
        · exact Stage.noConfusion
      left := by
        intro run hrun h
        rcases hruns run hrun with hold | rfl
        · exact hs.left run hold h
        · exact absurd hcache h }

section Guarded

variable {s : AgentRuntime} {P : AgentRuntime → Prop} {r : Nat} {guard : AgentRun → Prop}
  [DecidablePred guard] {next : AgentRun → AgentRuntime}

/-- An event of a run that changes something when the run allows it holds on to `P` exactly when
the change does. -/
theorem guarded_iff {Q : AgentRun → Prop} (h : P s)
    (hnext : ∀ run, s.runs[r]? = some run → guard run → (P (next run) ↔ Q run)) :
    P (match s.runs[r]? with
      | some run => if guard run then next run else s
      | none => s) ↔ ∀ run, s.runs[r]? = some run → guard run → Q run := by
  cases hr : s.runs[r]? with
  | none => exact iff_of_true h fun _ hrun => by cases hrun
  | some run =>
    simp only [Option.some.injEq, forall_eq']
    by_cases hguard : guard run
    · rw [if_pos hguard, hnext run hr hguard, forall_prop_of_true hguard]
    · rw [if_neg hguard]
      exact iff_of_true h fun hallowed => absurd hallowed hguard

theorem guarded (h : P s) (hnext : ∀ run, s.runs[r]? = some run → guard run → P (next run)) :
    P (match s.runs[r]? with
      | some run => if guard run then next run else s
      | none => s) :=
  (guarded_iff (Q := fun _ => True) h fun run hr hguard =>
    iff_true_intro (hnext run hr hguard)).mpr fun _ _ _ => trivial

end Guarded

theorem step_kept (hs : Kept getCapabilities s) (e : RunEvent) :
    Kept getCapabilities (s.step getCapabilities e) := by
  obtain ⟨hcached, hcache, -⟩ := getCachedCapabilities_spec hs
  cases e with
  | readCapabilities => exact hcached
  | ensureAgent sessionId =>
    have hresolved := hcached.setResolved hcache sessionId
    simp only [step, ensureAgent]
    split
    · exact hresolved
    · exact hresolved.buildAgent (getElem?_setResolved _ _ _ _)
  | schedulesSynced r => exact guarded hs fun _ hr _ => hs.buildAgent hr
  | modelCall r => exact guarded hs fun _ _ _ => hcached.execute r _
  | beforeToolCall r blocker =>
    refine guarded hs fun _ _ _ => ?_
    cases blocker with
    | none => exact hcached.execute r _
    | some place => exact hcached.execute r _
  | afterToolCall r => exact guarded hs fun _ _ _ => hcached.execute r _
  | agentEnd r => exact guarded hs fun _ hr _ => hs.agentEnd hr

end Lemmas

end CrabbyKit.Capabilities.AgentRuntime
