import CrabbyKit.Core.Run
import Mathlib.Data.List.TakeWhile

/-!
# The auto-revert

`BundleDispatcher` and `bundlePromptHandler` each keep one counter of consecutive failures for all
sessions and versions. Turns, refreshes and disables are cut where they wait, so that they
interleave. Epochs, the outcomes of turns, and the carried flag are ghosts.
-/

namespace CrabbyKit.DispatchHost

open List

/-- The two places that keep a counter. -/
inductive Implementation
  | bundleDispatcher
  | agentDO
  deriving DecidableEq, Repr

/-- How a turn ended: its version, the epoch of the pointer in which it was started, and whether it
succeeded. -/
structure Outcome where
  version : String
  epoch : Nat
  ok : Bool
  deriving DecidableEq, Repr

/-- What an activity has done so far. -/
inductive Task
  | idle
  /-- The version was read, and the bundle is running. -/
  | turn (version : String) (epoch : Nat)
  /-- The counter has reached the limit, and the pointer is not cleared yet; with the outcomes up
  to then. -/
  | reverting (epoch : Nat) (ended : List Outcome)
  /-- A disable, which may swallow the registry's error. -/
  | disabling (swallows : Bool)
  /-- The registry was written, and the host's own state was not. -/
  | cleared
  /-- The pointer was read for a refresh. -/
  | refreshing (read : Option String)
  /-- The pointer was read because there was nothing in the cache. -/
  | reading (read : Option String)
  deriving DecidableEq, Repr

structure RevertState where
  /-- The active version in the registry. -/
  pointer : Option String := none
  cached : Option (Option String) := none
  consecutiveFailures : Nat := 0
  tasks : Nat → Task := fun _ => .idle
  /-- How often the pointer has changed. -/
  epoch : Nat := 0
  /-- The outcomes before the last reset of the counter. -/
  past : List Outcome := []
  /-- The outcomes since then. -/
  counted : List Outcome := []
  /-- The pointer has changed since then while the counter was not zero. -/
  carried : Bool := false

inductive RevertEvent
  | startTurn (task : Nat)
  | succeed (task : Nat)
  | fail (task : Nat)
  | startDisable (task : Nat) (swallows : Bool)
  | write (task : Nat) (fails : Bool)
  | startRefresh (task : Nat)
  | startRead (task : Nat)
  | finish (task : Nat)
  | elsewhere (pointer : Option String)
  | wake
  deriving DecidableEq, Repr

namespace RevertState

def setTask (s : RevertState) (task : Nat) (value : Task) : RevertState :=
  { s with tasks := Function.update s.tasks task value }

/-- The pointer has a new value; writing the value that it has is no change. -/
def moved (s : RevertState) (pointer : Option String) : RevertState :=
  if s.pointer = pointer then s
  else
    { s with
      pointer := pointer
      epoch := s.epoch + 1
      carried := s.carried || decide (0 < s.consecutiveFailures) }

/-- The counter is set to zero. -/
def reset (s : RevertState) : RevertState :=
  { s with consecutiveFailures := 0, past := s.past ++ s.counted, counted := [], carried := false }

def ended (s : RevertState) (outcome : Outcome) : RevertState :=
  { s with counted := s.counted ++ [outcome] }

/-- A failure is counted. -/
def failed (s : RevertState) (version : String) (epoch : Nat) : RevertState :=
  { s.ended ⟨version, epoch, false⟩ with consecutiveFailures := s.consecutiveFailures + 1 }

def store (s : RevertState) (read : Option String) : RevertState := { s with cached := some read }

variable (impl : Implementation) (maxLoadFailures : Nat)

def step (s : RevertState) : RevertEvent → RevertState
  | .startTurn task =>
    match s.tasks task, s.cached with
    | .idle, some (some version) =>
      if version = "" then s else s.setTask task (.turn version s.epoch)
    | _, _ => s
  | .succeed task =>
    match s.tasks task with
    | .turn version epoch => ((s.ended ⟨version, epoch, true⟩).reset).setTask task .idle
    | _ => s
  | .fail task =>
    match s.tasks task with
    | .turn version epoch =>
      (s.failed version epoch).setTask task
        (if maxLoadFailures ≤ s.consecutiveFailures + 1 then
          .reverting s.epoch (s.past ++ (s.failed version epoch).counted)
        else .idle)
    | _ => s
  | .startDisable task swallows =>
    match s.tasks task with
    | .idle => s.setTask task (.disabling swallows)
    | _ => s
  | .write task fails =>
    match s.tasks task with
    | .reverting _ _ => (if fails then s else s.moved none).setTask task .cleared
    | .disabling swallows =>
      if fails then s.setTask task (if swallows then .cleared else .idle)
      else (s.moved none).setTask task .cleared
    | _ => s
  | .startRefresh task =>
    match s.tasks task with
    | .idle => s.setTask task (.refreshing s.pointer)
    | _ => s
  | .startRead task =>
    match s.tasks task with
    | .idle =>
      if impl = .agentDO ∧ s.cached.isSome then s else s.setTask task (.reading s.pointer)
    | _ => s
  | .finish task =>
    match s.tasks task with
    | .cleared => (s.reset.store none).setTask task .idle
    | .refreshing read =>
      -- only the host's refresher sets the counter to zero
      ((if impl = .agentDO then s.reset else s).store read).setTask task .idle
    | .reading read => (s.store read).setTask task .idle
    | _ => s
  | .elsewhere pointer => s.moved pointer
  | .wake => { s.reset with tasks := fun _ => .idle }

end RevertState

def ownFailure (version : String) (epoch : Nat) (outcome : Outcome) : Bool :=
  outcome.version = version && outcome.epoch = epoch && !outcome.ok

/-- How many of the last turns of a version all failed since it became active. -/
def trailingFailures (version : String) (epoch : Nat) (outcomes : List Outcome) : Nat :=
  ((outcomes.filter fun outcome => outcome.version = version).reverse.takeWhile
    (ownFailure version epoch)).length

variable (impl : Implementation) (maxLoadFailures : Nat)

/-- A failure counts against the active version only with its own failures, and a revert clears
only a version of which the last turns failed, as many as the limit says. -/
def StepJustified (s : RevertState) (e : RevertEvent) : Prop :=
  match e with
  | .fail task =>
    ∀ version epoch, s.tasks task = .turn version epoch → ∀ active, s.pointer = some active →
      (s.step impl maxLoadFailures e).consecutiveFailures =
        (s.step impl maxLoadFailures e).counted.length ∧
      ∀ outcome ∈ (s.step impl maxLoadFailures e).counted, ownFailure active s.epoch outcome
  | .write task _ =>
    ∀ epoch ended, s.tasks task = .reverting epoch ended → ∀ active, s.pointer = some active →
      maxLoadFailures ≤ trailingFailures active s.epoch ended
  | _ => True

/-- A turn does not fail after the pointer has moved on, nor while the counter still holds
failures from before a change; and the pointer does not change between the last failure and the
write of the revert. -/
def Steady (s : RevertState) (e : RevertEvent) : Prop :=
  match e with
  | .fail task =>
    ∀ version epoch, s.tasks task = .turn version epoch → ∀ active, s.pointer = some active →
      version = active ∧ epoch = s.epoch ∧ s.carried = false
  | .write task _ =>
    ∀ epoch ended, s.tasks task = .reverting epoch ended → s.pointer ≠ none →
      maxLoadFailures = 0 ∨ epoch = s.epoch
  | _ => True

variable {version : String} {epoch : Nat} {outcome : Outcome}

theorem ownFailure_iff :
    ownFailure version epoch outcome = true ↔
      outcome.version = version ∧ outcome.epoch = epoch ∧ outcome.ok = false := by
  rw [ownFailure, Bool.and_eq_true, Bool.and_eq_true, decide_eq_true_iff, decide_eq_true_iff,
    Bool.not_eq_true', and_assoc]

theorem length_le_trailingFailures (past : List Outcome)
    {own : List Outcome} (h : ∀ outcome ∈ own, ownFailure version epoch outcome = true) :
    own.length ≤ trailingFailures version epoch (past ++ own) := by
  have hfilter : own.filter (fun outcome => outcome.version = version) = own := by
    apply List.filter_eq_self.mpr
    intro outcome houtcome
    exact decide_eq_true (ownFailure_iff.mp (h outcome houtcome)).1
  have hreverse : ∀ outcome ∈ own.reverse, ownFailure version epoch outcome = true :=
    fun outcome houtcome => h outcome (mem_reverse.mp houtcome)
  rw [trailingFailures, filter_append, hfilter, reverse_append,
    takeWhile_append_of_pos hreverse, length_append, length_reverse]
  omega

theorem trailingFailures_eq_zero {outcomes : List Outcome}
    (h : ∀ outcome ∈ outcomes, outcome.epoch < epoch) :
    trailingFailures version epoch outcomes = 0 := by
  rw [trailingFailures, length_eq_zero_iff, takeWhile_eq_nil_iff]
  intro hlength hown
  have hmem := get_mem _ ⟨0, hlength⟩
  have hearlier := h _ (mem_of_mem_filter (mem_reverse.mp hmem))
  have hepoch := (ownFailure_iff.mp hown).2.1
  omega

/-- What the ghosts say about the counter and the reverts under way. -/
structure Counts (s : RevertState) : Prop where
  count : s.consecutiveFailures = s.counted.length
  failures : ∀ outcome ∈ s.counted, outcome.ok = false
  past : ∀ outcome ∈ s.past, outcome.epoch ≤ s.epoch
  counted : ∀ outcome ∈ s.counted, outcome.epoch ≤ s.epoch
  turns : ∀ task version epoch, s.tasks task = .turn version epoch → epoch ≤ s.epoch
  own : s.carried = false → ∀ active, s.pointer = some active →
    ∀ outcome ∈ s.counted, outcome.version = active ∧ outcome.epoch = s.epoch
  carries : s.carried = true → ∃ outcome ∈ s.counted, outcome.epoch < s.epoch
  decided : ∀ task epoch ended, s.tasks task = .reverting epoch ended →
    epoch ≤ s.epoch ∧ (∀ outcome ∈ ended, outcome.epoch ≤ epoch) ∧
    (epoch = s.epoch → ∀ active, s.pointer = some active →
      maxLoadFailures ≤ trailingFailures active epoch ended)

theorem counts_start : Counts maxLoadFailures {} where
  count := rfl
  failures _ h := by cases h
  past _ h := by cases h
  counted _ h := by cases h
  turns _ _ _ h := by cases h
  own _ _ h := by cases h
  carries h := by cases h
  decided _ _ _ h := by cases h

variable {maxLoadFailures} {s : RevertState}

theorem counts_store (h : Counts maxLoadFailures s) (read : Option String) :
    Counts maxLoadFailures (s.store read) := by
  constructor
  · exact h.count
  · exact h.failures
  · exact h.past
  · exact h.counted
  · exact h.turns
  · exact h.own
  · exact h.carries
  · exact h.decided

theorem counts_setTask (h : Counts maxLoadFailures s) (task : Nat) {value : Task}
    (hturn : ∀ version epoch, value = .turn version epoch → epoch ≤ s.epoch)
    (hdecided : ∀ epoch ended, value = .reverting epoch ended →
      epoch ≤ s.epoch ∧ (∀ outcome ∈ ended, outcome.epoch ≤ epoch) ∧
      (epoch = s.epoch → ∀ active, s.pointer = some active →
        maxLoadFailures ≤ trailingFailures active epoch ended)) :
    Counts maxLoadFailures (s.setTask task value) := by
  have htasks : ∀ other, (s.setTask task value).tasks other =
      if other = task then value else s.tasks other :=
    fun other => Function.update_apply s.tasks task value other
  constructor
  · exact h.count
  · exact h.failures
  · exact h.past
  · exact h.counted
  · intro other version epoch hother
    rw [htasks] at hother
    split at hother
    · exact hturn version epoch hother
    · exact h.turns other version epoch hother
  · exact h.own
  · exact h.carries
  · intro other epoch ended hother
    rw [htasks] at hother
    split at hother
    · exact hdecided epoch ended hother
    · exact h.decided other epoch ended hother

theorem counts_setTask_plain (h : Counts maxLoadFailures s) (task : Nat) {value : Task}
    (hturn : ∀ version epoch, value ≠ .turn version epoch)
    (hreverting : ∀ epoch ended, value ≠ .reverting epoch ended) :
    Counts maxLoadFailures (s.setTask task value) :=
  counts_setTask h task (fun version epoch heq => absurd heq (hturn version epoch))
    fun epoch ended heq => absurd heq (hreverting epoch ended)

theorem counts_moved (h : Counts maxLoadFailures s) (pointer : Option String) :
    Counts maxLoadFailures (s.moved pointer) := by
  unfold RevertState.moved
  split
  · exact h
  · constructor
    · exact h.count
    · exact h.failures
    · exact fun outcome houtcome => Nat.le_succ_of_le (h.past outcome houtcome)
    · exact fun outcome houtcome => Nat.le_succ_of_le (h.counted outcome houtcome)
    · exact fun task version epoch htask => Nat.le_succ_of_le (h.turns task version epoch htask)
    · intro hcarried active _ outcome houtcome
      obtain ⟨-, hzero⟩ := Bool.or_eq_false_iff.mp hcarried
      have hlength := length_pos_of_mem houtcome
      rw [← h.count] at hlength
      exact absurd hlength (of_decide_eq_false hzero)
    · intro hcarried
      rcases Bool.or_eq_true_iff.mp hcarried with hbefore | hpositive
      · obtain ⟨outcome, houtcome, hepoch⟩ := h.carries hbefore
        exact ⟨outcome, houtcome, Nat.lt_succ_of_lt hepoch⟩
      · have hlength := of_decide_eq_true hpositive
        rw [h.count] at hlength
        obtain ⟨outcome, houtcome⟩ := exists_mem_of_length_pos hlength
        exact ⟨outcome, houtcome, Nat.lt_succ_of_le (h.counted outcome houtcome)⟩
    · intro task epoch ended htask
      obtain ⟨hle, hended, -⟩ := h.decided task epoch ended htask
      refine ⟨Nat.le_succ_of_le hle, hended, fun heq => ?_⟩
      have hnext : epoch = s.epoch + 1 := heq
      omega

theorem counts_ended_reset (h : Counts maxLoadFailures s)
    (hepoch : outcome.epoch ≤ s.epoch) : Counts maxLoadFailures (s.ended outcome).reset where
  count := rfl
  failures _ houtcome := by cases houtcome
  past other hother := by
    rcases mem_append.mp hother with hpast | hcounted
    · exact h.past other hpast
    · rcases mem_append.mp hcounted with hcounted | hlast
      · exact h.counted other hcounted
      · exact (mem_singleton.mp hlast) ▸ hepoch
  counted _ houtcome := by cases houtcome
  turns := h.turns
  own _ _ _ _ houtcome := by cases houtcome
  carries hcarried := by cases hcarried
  decided := h.decided

theorem counts_reset (h : Counts maxLoadFailures s) : Counts maxLoadFailures s.reset where
  count := rfl
  failures _ houtcome := by cases houtcome
  past other hother := by
    rcases mem_append.mp hother with hpast | hcounted
    · exact h.past other hpast
    · exact h.counted other hcounted
  counted _ houtcome := by cases houtcome
  turns := h.turns
  own _ _ _ _ houtcome := by cases houtcome
  carries hcarried := by cases hcarried
  decided := h.decided

theorem counts_failed (h : Counts maxLoadFailures s) (hepoch : epoch ≤ s.epoch)
    (hown : ∀ active, s.pointer = some active → version = active ∧ epoch = s.epoch) :
    Counts maxLoadFailures (s.failed version epoch) where
  count := by
    change s.consecutiveFailures + 1 = (s.counted ++ [_]).length
    rw [length_append, h.count]
    rfl
  failures outcome houtcome := by
    rcases mem_append.mp houtcome with hcounted | hlast
    · exact h.failures outcome hcounted
    · rw [mem_singleton.mp hlast]
  past := h.past
  counted outcome houtcome := by
    rcases mem_append.mp houtcome with hcounted | hlast
    · exact h.counted outcome hcounted
    · rw [mem_singleton.mp hlast]
      exact hepoch
  turns := h.turns
  own hcarried active hactive outcome houtcome := by
    rcases mem_append.mp houtcome with hcounted | hlast
    · exact h.own hcarried active hactive outcome hcounted
    · rw [mem_singleton.mp hlast]
      exact hown active hactive
  carries hcarried := by
    obtain ⟨outcome, houtcome, hearlier⟩ := h.carries hcarried
    exact ⟨outcome, mem_append_left _ houtcome, hearlier⟩
  decided := h.decided

theorem ownFailure_of_counts (h : Counts maxLoadFailures s) (hcarried : s.carried = false)
    {active : String} (hactive : s.pointer = some active) :
    ∀ outcome ∈ s.counted, ownFailure active s.epoch outcome = true := by
  intro outcome houtcome
  obtain ⟨hversion, hepoch⟩ := h.own hcarried active hactive outcome houtcome
  exact ownFailure_iff.mpr ⟨hversion, hepoch, h.failures outcome houtcome⟩

theorem counts_decided (h : Counts maxLoadFailures s)
    (hcarried : ∀ active, s.pointer = some active → s.carried = false) (task : Nat)
    (hlimit : maxLoadFailures ≤ s.consecutiveFailures) :
    Counts maxLoadFailures (s.setTask task (.reverting s.epoch (s.past ++ s.counted))) := by
  apply counts_setTask h task
  · rintro version epoch ⟨⟩
  · rintro epoch ended ⟨⟩
    refine ⟨le_rfl, ?_, ?_⟩
    · intro outcome houtcome
      exact (mem_append.mp houtcome).elim (h.past outcome) (h.counted outcome)
    · intro _ active hactive
      calc maxLoadFailures ≤ s.counted.length := h.count ▸ hlimit
        _ ≤ trailingFailures active s.epoch (s.past ++ s.counted) :=
          length_le_trailingFailures s.past
            (ownFailure_of_counts h (hcarried active hactive) hactive)

theorem counts_step (h : Counts maxLoadFailures s) (e : RevertEvent)
    (he : Steady maxLoadFailures s e) : Counts maxLoadFailures (s.step impl maxLoadFailures e) := by
  cases e with
  | startTurn task =>
    simp only [RevertState.step]
    split
    · split
      · exact h
      · apply counts_setTask h task
        · rintro version epoch ⟨⟩
          exact le_rfl
        · rintro epoch ended ⟨⟩
    · exact h
  | succeed task =>
    simp only [RevertState.step]
    split
    · rename_i version epoch htask
      apply counts_setTask_plain
      · exact counts_ended_reset h (h.turns task version epoch htask)
      · exact fun _ _ => Task.noConfusion
      · exact fun _ _ => Task.noConfusion
    · exact h
  | fail task =>
    simp only [RevertState.step]
    split
    · rename_i version epoch htask
      have hsteady := he version epoch htask
      have hfailed : Counts maxLoadFailures (s.failed version epoch) :=
        counts_failed h (h.turns task version epoch htask)
          fun active hactive => ⟨(hsteady active hactive).1, (hsteady active hactive).2.1⟩
      split
      · rename_i hlimit
        exact counts_decided hfailed (fun active hactive => (hsteady active hactive).2.2) task
          hlimit
      · apply counts_setTask_plain hfailed
        · exact fun _ _ => Task.noConfusion
        · exact fun _ _ => Task.noConfusion
    · exact h
  | startDisable task swallows =>
    simp only [RevertState.step]
    split
    · apply counts_setTask_plain h
      · exact fun _ _ => Task.noConfusion
      · exact fun _ _ => Task.noConfusion
    · exact h
  | write task fails =>
    simp only [RevertState.step]
    split
    · apply counts_setTask_plain
      · split
        · exact h
        · exact counts_moved h none
      · exact fun _ _ => Task.noConfusion
      · exact fun _ _ => Task.noConfusion
    · split
      · apply counts_setTask_plain h
        · intro _ _
          split <;> exact Task.noConfusion
        · intro _ _
          split <;> exact Task.noConfusion
      · apply counts_setTask_plain (counts_moved h none)
        · exact fun _ _ => Task.noConfusion
        · exact fun _ _ => Task.noConfusion
    · exact h
  | startRefresh task =>
    simp only [RevertState.step]
    split
    · apply counts_setTask_plain h
      · exact fun _ _ => Task.noConfusion
      · exact fun _ _ => Task.noConfusion
    · exact h
  | startRead task =>
    simp only [RevertState.step]
    split
    · split
      · exact h
      · apply counts_setTask_plain h
        · exact fun _ _ => Task.noConfusion
        · exact fun _ _ => Task.noConfusion
    · exact h
  | finish task =>
    simp only [RevertState.step]
    split
    · apply counts_setTask_plain (counts_store (counts_reset h) none)
      · exact fun _ _ => Task.noConfusion
      · exact fun _ _ => Task.noConfusion
    · rename_i read _
      apply counts_setTask_plain
      · apply counts_store
        split
        · exact counts_reset h
        · exact h
      · exact fun _ _ => Task.noConfusion
      · exact fun _ _ => Task.noConfusion
    · apply counts_setTask_plain (counts_store h _)
      · exact fun _ _ => Task.noConfusion
      · exact fun _ _ => Task.noConfusion
    · exact h
  | elsewhere pointer => exact counts_moved h pointer
  | wake =>
    have hreset := counts_reset h
    constructor
    · exact hreset.count
    · exact hreset.failures
    · exact hreset.past
    · exact hreset.counted
    · rintro task version epoch ⟨⟩
    · exact hreset.own
    · exact hreset.carries
    · rintro task epoch ended ⟨⟩

theorem justified_fail_iff (h : Counts maxLoadFailures s) (task : Nat) :
    StepJustified impl maxLoadFailures s (.fail task) ↔ Steady maxLoadFailures s (.fail task) := by
  unfold StepJustified Steady
  refine forall_congr' fun version => forall_congr' fun epoch => forall_congr' fun htask =>
    forall_congr' fun active => forall_congr' fun hactive => ?_
  have hcounter : (s.step impl maxLoadFailures (.fail task)).consecutiveFailures =
      s.consecutiveFailures + 1 := by
    simp only [RevertState.step, htask]
    rfl
  have hcounted : (s.step impl maxLoadFailures (.fail task)).counted =
      s.counted ++ [⟨version, epoch, false⟩] := by
    simp only [RevertState.step, htask]
    rfl
  have hlength : s.consecutiveFailures + 1 =
      (s.counted ++ [(⟨version, epoch, false⟩ : Outcome)]).length := by
    rw [length_append, h.count]
    rfl
  rw [hcounter, hcounted, and_iff_right hlength]
  constructor
  · intro hown
    obtain ⟨hversion, hepoch, -⟩ := ownFailure_iff.mp
      (hown ⟨version, epoch, false⟩ (mem_append_right _ (mem_singleton.mpr rfl)))
    refine ⟨hversion, hepoch, ?_⟩
    by_contra hcarried
    obtain ⟨outcome, houtcome, hearlier⟩ := h.carries (eq_true_of_ne_false hcarried)
    have hsame := (ownFailure_iff.mp (hown outcome (mem_append_left _ houtcome))).2.1
    omega
  · rintro ⟨hversion, hepoch, hcarried⟩ outcome houtcome
    rcases mem_append.mp houtcome with hbefore | hlast
    · exact ownFailure_of_counts h hcarried hactive outcome hbefore
    · rw [mem_singleton.mp hlast]
      exact ownFailure_iff.mpr ⟨hversion, hepoch, rfl⟩

theorem justified_write_iff (h : Counts maxLoadFailures s) (task : Nat) (fails : Bool) :
    StepJustified impl maxLoadFailures s (.write task fails) ↔
      Steady maxLoadFailures s (.write task fails) := by
  unfold StepJustified Steady
  refine forall_congr' fun epoch => forall_congr' fun ended => forall_congr' fun htask => ?_
  obtain ⟨hle, hended, hdecided⟩ := h.decided task epoch ended htask
  constructor
  · intro hjustified hactive
    obtain ⟨active, hactive⟩ := Option.ne_none_iff_exists'.mp hactive
    by_cases hepoch : epoch = s.epoch
    · exact Or.inr hepoch
    · have hearlier : ∀ outcome ∈ ended, outcome.epoch < s.epoch := by
        intro outcome houtcome
        have hbound := hended outcome houtcome
        omega
      have hlimit := hjustified active hactive
      rw [trailingFailures_eq_zero hearlier] at hlimit
      exact Or.inl (Nat.le_zero.mp hlimit)
  · intro hsteady active hactive
    rcases hsteady (by rw [hactive]; exact Option.some_ne_none active) with hzero | hepoch
    · rw [hzero]
      exact Nat.zero_le _
    · exact hepoch ▸ hdecided hepoch active hactive

theorem stepJustified_iff (h : Counts maxLoadFailures s) (e : RevertEvent) :
    StepJustified impl maxLoadFailures s e ↔ Steady maxLoadFailures s e := by
  cases e with
  | fail task => exact justified_fail_iff impl h task
  | write task fails => exact justified_write_iff impl h task fails
  | _ => exact Iff.rfl

/-- In a run of turns, refreshes, disables and changes of the pointer from elsewhere, all reverts
and counted failures are justified exactly when every step is steady. -/
theorem reverts_justified_iff (impl : Implementation) (maxLoadFailures : Nat)
    (events : List RevertEvent) :
    Run.Allowed (StepJustified impl maxLoadFailures) (RevertState.step impl maxLoadFailures) {}
        events ↔
      Run.Allowed (Steady maxLoadFailures) (RevertState.step impl maxLoadFailures) {} events :=
  Run.allowed_congr (counts_start maxLoadFailures) (fun _ e h => stepJustified_iff impl h e)
    (fun _ e h he => counts_step impl h e he) events

/-- Two turns of one version fail, another version is deployed and read, and its first turn
fails. -/
def inherited : List RevertEvent :=
  [.elsewhere (some "a"), .startRefresh 0, .finish 0, .startTurn 1, .fail 1, .startTurn 1, .fail 1,
    .elsewhere (some "b"), .startRefresh 0, .finish 0, .startTurn 1, .fail 1, .write 1 false]

/-- Three turns of one version are under way when another is deployed and read, and then fail. -/
def overtaken : List RevertEvent :=
  [.elsewhere (some "a"), .startRefresh 0, .finish 0, .startTurn 1, .startTurn 2, .startTurn 3,
    .elsewhere (some "b"), .startRefresh 0, .finish 0, .fail 1, .fail 2, .fail 3, .write 3 false]

/-- The dispatcher clears the second version for the failures of the first, and the host does so
for turns that were under way. -/
theorem reverts_unjustified :
    ¬Run.Allowed (StepJustified .bundleDispatcher 3) (RevertState.step .bundleDispatcher 3) {}
        inherited ∧
      ¬Run.Allowed (StepJustified .agentDO 3) (RevertState.step .agentDO 3) {} overtaken := by
  constructor
  · intro h
    have hwrite := h (inherited.take 12) (.write 1 false) [] rfl 2 _ rfl "b" rfl
    revert hwrite
    decide
  · intro h
    have hwrite := h (overtaken.take 12) (.write 3 false) [] rfl 2 _ rfl "b" rfl
    revert hwrite
    decide

end CrabbyKit.DispatchHost
