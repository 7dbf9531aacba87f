import CrabbyKit.Capabilities.Fields

/-!
# Whose hooks and disposers run

A run executes its own hooks exactly when no later run has replaced them, and its end disposes
of the right instances exactly when no other run uses them.
-/

namespace CrabbyKit.Capabilities.AgentRuntime

open List

/-- Every hook executed for a run was resolved for that run, with its session. -/
def HooksOwn (s : AgentRuntime) : Prop :=
  ∀ entry ∈ s.executed, entry.2.run = entry.1 ∧
    ∃ run, s.runs[entry.1]? = some run ∧ entry.2.sessionId = run.sessionId

/-- Whether a run that has resolved a generation of capabilities is in progress. -/
def inUse (s : AgentRuntime) (generation : Nat) : Bool :=
  s.runs.any fun run => run.generation = generation && run.stage ≠ .ended

/-- The disposers that a run has resolved have each been invoked once when all runs that have
resolved them are over, and not before. -/
def DisposedOnce (getCapabilities : Nat → List Capability) (s : AgentRuntime) : Prop :=
  ∀ run ∈ s.runs, s.disposedOf run.generation =
    if s.inUse run.generation then []
    else disposersOf (getCapabilities run.generation) run.generation

/-- A run executes hooks only when no run was started after it, unless there are none, and when
it ends with disposers left, no other run in progress has resolved the cached capabilities. -/
def OwnFields (s : AgentRuntime) : RunEvent → Prop
  | .modelCall r => ∀ run : AgentRun, s.runs[r]? = some run → run.stage = .running →
      s.beforeInferenceHooks = [] ∨ r + 1 = s.runs.length
  | .beforeToolCall r _ => ∀ run : AgentRun, s.runs[r]? = some run → run.stage = .running →
      run.hasBeforeToolCall → s.beforeToolExecutionHooks = [] ∨ r + 1 = s.runs.length
  | .afterToolCall r => ∀ run : AgentRun, s.runs[r]? = some run → run.stage = .running →
      run.hasAfterToolCall → s.afterToolExecutionHooks = [] ∨ r + 1 = s.runs.length
  | .agentEnd r => ∀ run : AgentRun, s.runs[r]? = some run → run.stage = .running →
      s.capabilityDisposers = [] ∨ ∀ j (other : AgentRun), s.runs[j]? = some other → j ≠ r →
        other.stage ≠ .ended → s.capabilitiesCache ≠ some other.generation
  | _ => True

/-- The disposers of a run in progress that has resolved other capabilities than the cached ones
have been invoked already: there must not be any. -/
def NoneEarly (getCapabilities : Nat → List Capability) (s : AgentRuntime) : Prop :=
  ∀ run ∈ s.runs, run.stage ≠ .ended → s.capabilitiesCache ≠ some run.generation →
    disposersOf (getCapabilities run.generation) run.generation = []

section Disposers

variable {getCapabilities : Nat → List Capability} {s : AgentRuntime}

theorem inUse_iff (s : AgentRuntime) (generation : Nat) :
    s.inUse generation = true ↔
      ∃ run ∈ s.runs, run.generation = generation ∧ run.stage ≠ .ended := by
  simp [inUse]

theorem disposedOnce_iff (hs : Kept getCapabilities s) :
    DisposedOnce getCapabilities s ↔ NoneEarly getCapabilities s := by
  constructor
  · intro h run hrun hstage hcache
    have hused := (inUse_iff s run.generation).mpr ⟨run, hrun, rfl, hstage⟩
    have honce := h run hrun
    rw [if_pos hused] at honce
    exact (hs.left run hrun hcache).symm.trans honce
  · intro h run hrun
    by_cases hcache : s.capabilitiesCache = some run.generation
    · have hused := (inUse_iff s run.generation).mpr
        ⟨run, hrun, rfl, (hs.current run hrun hcache).1⟩
      rw [if_pos hused]
      exact (hs.cached _ hcache).2
    · rw [hs.left run hrun hcache]
      by_cases hused : s.inUse run.generation = true
      · obtain ⟨other, hother, hgeneration, hstage⟩ := (inUse_iff s run.generation).mp hused
        rw [if_pos hused, ← hgeneration]
        exact h other hother hstage (by rw [hgeneration]; exact hcache)
      · rw [if_neg hused]

theorem NoneEarly.getCached (h : NoneEarly getCapabilities s) :
    NoneEarly getCapabilities s.getCachedCapabilities.1 := by
  unfold getCachedCapabilities
  cases hcache : s.capabilitiesCache with
  | some generation => exact h
  | none =>
    intro run hrun hstage _
    exact h run hrun hstage (by rw [hcache]; exact (Option.some_ne_none _).symm)

theorem NoneEarly.buildAgent (h : NoneEarly getCapabilities s) {r : Nat} {run : AgentRun}
    (hr : s.runs[r]? = some run) (hstage : run.stage ≠ .ended) :
    NoneEarly getCapabilities (s.buildAgent r run) := by
  intro other hother hopen hcache
  rcases mem_setRun hother with rfl | hold
  · exact h run (mem_of_getElem? hr) hstage hcache
  · exact h other hold hopen hcache

theorem NoneEarly.setResolved (h : NoneEarly getCapabilities s) {generation : Nat}
    (hcache : s.capabilitiesCache = some generation) (sessionId : String)
    (resolved : ResolvedCapabilities) :
    NoneEarly getCapabilities (s.setResolved generation sessionId resolved) := by
  intro run hrun hstage hne
  rcases mem_append.mp hrun with hold | hnew
  · exact h run hold hstage hne
  · obtain rfl := mem_singleton.mp hnew
    exact absurd hcache hne

theorem noneEarly_agentEnd (hs : Kept getCapabilities s) (h : NoneEarly getCapabilities s) {r : Nat}
    {run : AgentRun} (hr : s.runs[r]? = some run) :
    NoneEarly getCapabilities (s.agentEnd r run) ↔
      s.capabilityDisposers = [] ∨ ∀ j (other : AgentRun), s.runs[j]? = some other → j ≠ r →
        other.stage ≠ .ended → s.capabilitiesCache ≠ some other.generation := by
  constructor
  · intro hafter
    by_cases hnone : s.capabilityDisposers = []
    · exact Or.inl hnone
    · right
      intro j other hj hjr hstage hcache
      have hmem : other ∈ (s.agentEnd r run).runs := by
        refine mem_of_getElem? (i := j) ((getElem?_setRun hr j).trans ?_)
        rw [if_neg hjr.symm, hj]
      have hempty := hafter other hmem hstage (Option.some_ne_none _).symm
      rw [← (hs.current other (mem_of_getElem? hj) hcache).2] at hempty
      exact hnone hempty
  · intro hcase other hother hstage _
    obtain ⟨j, hj⟩ := mem_iff_getElem?.mp hother
    have hj' := (getElem?_setRun hr j).symm.trans hj
    by_cases hrj : r = j
    · rw [if_pos hrj] at hj'
      obtain rfl := Option.some.inj hj'
      exact absurd rfl hstage
    · rw [if_neg hrj] at hj'
      have hold := mem_of_getElem? hj'
      by_cases hcache : s.capabilitiesCache = some other.generation
      · rcases hcase with hnone | halone
        · rw [← (hs.current other hold hcache).2]
          exact hnone
        · exact absurd hcache (halone j other hj' (Ne.symm hrj) hstage)
      · exact h other hold hstage hcache

end Disposers

section Hooks

variable {getCapabilities : Nat → List Capability} {s : AgentRuntime}

theorem HooksOwn.mono {s' : AgentRuntime} (h : s.HooksOwn) (hexecuted : s'.executed = s.executed)
    (hsession : ∀ (j : Nat) (sessionId : String),
      (∃ run, s.runs[j]? = some run ∧ sessionId = run.sessionId) →
        ∃ run, s'.runs[j]? = some run ∧ sessionId = run.sessionId) : s'.HooksOwn := by
  intro entry hentry
  rw [hexecuted] at hentry
  exact ⟨(h entry hentry).1, hsession _ _ (h entry hentry).2⟩

theorem hooksOwn_execute (h : s.HooksOwn) (r : Nat) {hooks : List Hook}
    (hlatest : ∀ hook ∈ hooks, s.Latest hook) :
    (s.execute r hooks).HooksOwn ↔ hooks = [] ∨ r + 1 = s.runs.length := by
  constructor
  · intro hafter
    cases hooks with
    | nil => exact Or.inl rfl
    | cons hook rest =>
      right
      have hown := (hafter (r, hook) (mem_append_right _ mem_cons_self)).1
      have hlast := (hlatest hook mem_cons_self).1
      change hook.run = r at hown
      omega
  · intro hcase entry hentry
    rcases mem_append.mp hentry with hold | hnew
    · exact h entry hold
    · obtain ⟨hook, hhook, rfl⟩ := mem_map.mp hnew
      obtain ⟨hlast, hsession⟩ := hlatest hook hhook
      rcases hcase with rfl | hr'
      · exact absurd hhook not_mem_nil
      · have hown : hook.run = r := by omega
        exact ⟨hown, hown ▸ hsession⟩

theorem HooksOwn.setRun (h : s.HooksOwn) {r : Nat} {run run' : AgentRun}
    (hr : s.runs[r]? = some run) (hsession : run'.sessionId = run.sessionId) :
    (s.setRun r run').HooksOwn :=
  h.mono rfl fun _ _ hfound => session_setRun hr hsession hfound

theorem HooksOwn.setResolved (h : s.HooksOwn) (generation : Nat) (sessionId : String)
    (resolved : ResolvedCapabilities) : (s.setResolved generation sessionId resolved).HooksOwn := by
  refine h.mono rfl fun j _ hfound => ?_
  obtain ⟨run, hrun, hsession⟩ := hfound
  refine ⟨run, ?_, hsession⟩
  have hlt := (List.getElem?_eq_some_iff.mp hrun).1
  rw [AgentRuntime.setResolved, getElem?_append_left hlt, hrun]

end Hooks

section Steps

variable {getCapabilities : Nat → List Capability} {s : AgentRuntime}

/-- Only hooks of the right run have been executed and no disposers were invoked early. -/
def Own (getCapabilities : Nat → List Capability) (s : AgentRuntime) : Prop :=
  s.HooksOwn ∧ NoneEarly getCapabilities s

theorem Own.getCached (hs : Kept getCapabilities s) (h : Own getCapabilities s) :
    Own getCapabilities s.getCachedCapabilities.1 := by
  obtain ⟨-, -, hruns, hexecuted, -⟩ := getCachedCapabilities_spec hs
  exact ⟨h.1.mono hexecuted fun _ _ hfound => by rwa [hruns], h.2.getCached⟩

theorem Own.buildAgent (h : Own getCapabilities s) {r : Nat} {run : AgentRun}
    (hr : s.runs[r]? = some run) (hstage : run.stage ≠ .ended) :
    Own getCapabilities (s.buildAgent r run) := by
  refine ⟨h.1.setRun hr ?_, h.2.buildAgent hr hstage⟩
  rfl

theorem Own.ensureAgent (hs : Kept getCapabilities s) (h : Own getCapabilities s)
    (sessionId : String) : Own getCapabilities (s.ensureAgent getCapabilities sessionId) := by
  obtain ⟨-, hcache, -⟩ := getCachedCapabilities_spec hs
  obtain ⟨hown, hearly⟩ := h.getCached hs
  have hresolved : ∀ resolved, Own getCapabilities
      (s.getCachedCapabilities.1.setResolved s.getCachedCapabilities.2 sessionId resolved) :=
    fun resolved => ⟨hown.setResolved _ _ _, hearly.setResolved hcache _ _⟩
  simp only [AgentRuntime.ensureAgent]
  split
  · exact hresolved _
  · exact (hresolved _).buildAgent (getElem?_setResolved _ _ _ _) Stage.noConfusion

theorem own_execute (hs : Kept getCapabilities s) (h : Own getCapabilities s) (r : Nat)
    {hooks : List Hook} (hlatest : ∀ hook ∈ hooks, s.Latest hook) :
    Own getCapabilities (s.getCachedCapabilities.1.execute r hooks) ↔
      hooks = [] ∨ r + 1 = s.runs.length := by
  obtain ⟨-, -, hruns, -⟩ := getCachedCapabilities_spec hs
  obtain ⟨hown, hearly⟩ := h.getCached hs
  have hlatest' : ∀ hook ∈ hooks, s.getCachedCapabilities.1.Latest hook := by
    intro hook hhook
    rw [Latest, hruns]
    exact hlatest hook hhook
  have hexecute := hooksOwn_execute hown r hlatest'
  rw [hruns] at hexecute
  exact ⟨fun hafter => hexecute.mp hafter.1, fun hcase => ⟨hexecute.mpr hcase, hearly⟩⟩

theorem step_own_iff (hs : Kept getCapabilities s) (h : Own getCapabilities s) (e : RunEvent) :
    Own getCapabilities (s.step getCapabilities e) ↔ s.OwnFields e := by
  obtain ⟨-, -, -, -, hbefore, hbeforeTool, hafterTool⟩ := getCachedCapabilities_spec hs
  cases e with
  | readCapabilities => exact iff_of_true (h.getCached hs) trivial
  | ensureAgent sessionId => exact iff_of_true (h.ensureAgent hs sessionId) trivial
  | schedulesSynced r =>
    refine iff_of_true (guarded h fun run hr hstage => h.buildAgent hr ?_) trivial
    rw [hstage]
    exact Stage.noConfusion
  | modelCall r =>
    refine guarded_iff h fun run _ _ => ?_
    rw [transformContext, hbefore]
    exact own_execute hs h r hs.beforeInference
  | beforeToolCall r blocker =>
    refine Iff.trans ?_ (forall_congr' fun _ => imp_congr_right fun _ => and_imp)
    refine guarded_iff h fun run _ _ => ?_
    simp only [runBeforeToolCall, hbeforeTool]
    cases blocker with
    | none => exact own_execute hs h r hs.beforeToolExecution
    | some place =>
      -- The hook that blocks is executed too, so none are executed only when there are none.
      simp only
      rw [own_execute hs h r fun hook hhook =>
        hs.beforeToolExecution hook (mem_of_mem_take hhook)]
      simp [take_eq_nil_iff]
  | afterToolCall r =>
    refine Iff.trans ?_ (forall_congr' fun _ => imp_congr_right fun _ => and_imp)
    refine guarded_iff h fun run _ _ => ?_
    rw [runAfterToolCall, hafterTool]
    exact own_execute hs h r hs.afterToolExecution
  | agentEnd r =>
    refine guarded_iff h fun run hr _ => ?_
    rw [← noneEarly_agentEnd hs h.2 hr]
    refine ⟨fun hafter => hafter.2, fun hafter => ⟨?_, hafter⟩⟩
    refine h.1.mono rfl fun _ _ hfound => ?_
    refine session_setRun hr ?_ hfound
    rfl

end Steps

/-- In a run of events every hook is executed for the run it was resolved for, and every disposer
is invoked once, when all runs that have resolved it are over, exactly when no hooks are
executed for a run after a later one was started, and no run ends with disposers left while
another one has the cached capabilities. -/
theorem own_iff_ownFields (getCapabilities : Nat → List Capability) (events : List RunEvent) :
    (∀ before after, events = before ++ after → (run getCapabilities before).HooksOwn ∧
        DisposedOnce getCapabilities (run getCapabilities before)) ↔
      Run.Allowed OwnFields (step getCapabilities) {} events := by
  have hrun : (∀ before after, events = before ++ after →
      Own getCapabilities (run getCapabilities before)) ↔
        Run.Allowed OwnFields (step getCapabilities) {} events := by
    refine Run.always_iff_allowed (I := Kept getCapabilities) kept_start ?_ ?_ ?_ events
    · exact ⟨fun _ h => absurd h not_mem_nil, fun _ h => absurd h not_mem_nil⟩
    · exact fun _ e hs => step_kept hs e
    · exact fun _ e hs h => step_own_iff hs h e
  rw [← hrun]
  refine forall_congr' fun before => forall_congr' fun after => imp_congr_right fun _ => ?_
  have hkept : Kept getCapabilities (run getCapabilities before) :=
    Run.run_induction (P := fun _ s => Kept getCapabilities s) kept_start
      (fun _ e _ hs => step_kept hs e) before
  exact and_congr_right fun _ => disposedOnce_iff hkept

/-- A deployment with one capability that has a tool hook and is disposed of. -/
def filesOnly : Nat → List Capability :=
  fun _ => [{ id := "files", beforeToolExecution := true, dispose := true }]

/-- Two sessions start a run; the first one calls a tool and the second one ends. -/
def twoSessions : List RunEvent :=
  [.ensureAgent "alice", .ensureAgent "bob", .beforeToolCall 0 none, .agentEnd 1]

/-- The tool call of the first session executes the hook of the second one, whose end disposes of
the capability that the first one still uses. -/
theorem twoSessions_mixed :
    (run filesOnly twoSessions).executed = [(0, ⟨"files", "bob", 1⟩)] ∧
      ¬ (run filesOnly twoSessions).HooksOwn ∧
      (run filesOnly twoSessions).disposed = [⟨"files", 0⟩] ∧
      ¬ DisposedOnce filesOnly (run filesOnly twoSessions) := by
  refine ⟨by decide, fun h => ?_, by decide, fun h => ?_⟩
  · exact absurd (h (0, ⟨"files", "bob", 1⟩) (by decide)).1 (by decide)
  · exact absurd (h ⟨"alice", 0, .running, true, false⟩ (by decide)) (by decide)

end CrabbyKit.Capabilities.AgentRuntime
