import CrabbyKit.Schedule.Wake

/-!
# What a firing of the alarm keeps

The loop over the due schedules writes the table in few ways: it marks a status, moves a
fire time past now, deletes the schedule at hand, and runs the scripts of hooks, prompts
and callbacks. A property that all of these keep is kept by the loop.
-/

namespace CrabbyKit

/-- The calls made while the hooks, the prompt or the callback of a schedule run. -/
def Firing.Makes (w : Firing) (d : Schedule) (c : ScheduleCall) : Prop :=
  (∃ ask, w.onScheduleFire = some ask ∧ c ∈ (ask d).calls) ∨
    (∃ ask, w.bundleAlarmHandler = some ask ∧ c ∈ (ask d).calls) ∨
    (∃ text, c ∈ (w.runPrompt d text).calls) ∨ ∃ callback, c ∈ (w.runCallback callback d).calls

theorem Firing.not_makes_quiet (now : Instant) (d : Schedule) (c : ScheduleCall) :
    ¬ ({ now := now } : Firing).Makes d c := by
  rintro (⟨ask, hask, -⟩ | ⟨ask, hask, -⟩ | ⟨text, hc⟩ | ⟨callback, hc⟩)
  · cases hask
  · cases hask
  · cases hc
  · cases hc

namespace ScheduleRuntime

/-- A row update that touches neither id, switch nor fire time. -/
structure StatusOnly (f : Schedule → Schedule) : Prop where
  id : ∀ s, (f s).id = s.id
  enabled : ∀ s, (f s).enabled = s.enabled
  nextFireAt : ∀ s, (f s).nextFireAt = s.nextFireAt

/-- What processing a schedule may do keeps a property. -/
structure FireKeeps (zones : Cron.Zones) (w : Firing) (P : ScheduleRuntime → Prop)
    (d : Schedule) : Prop where
  calls : ∀ c, w.Makes d c → ∀ s, P s → P (exec zones c s).1
  status : ∀ s f, StatusOnly f → P s → P { s with store := s.store.updateRow d.id f }
  advance : ∀ s next, w.now < next → P s →
    P { s with store := (s.store.update d.id { nextFireAt := some (some next) } w.now).1 }
  drop : ∀ s, P s → P (s.drop d.id)
  callbacks : ∀ (s : ScheduleRuntime) entries, P s → P { s with callbacks := entries }

variable {zones : Cron.Zones} {w : Firing} {P : ScheduleRuntime → Prop} {d : Schedule}
  {s : ScheduleRuntime}

theorem runCalls_keeps {calls : List ScheduleCall}
    (hcalls : ∀ c ∈ calls, ∀ s, P s → P (exec zones c s).1) (h : P s) :
    P (runCalls zones calls s) := by
  unfold runCalls
  induction calls generalizing s with
  | nil => exact h
  | cons c rest ih =>
    have hrest : ∀ c' ∈ rest, ∀ s, P s → P (exec zones c' s).1 := fun c' hc' =>
      hcalls c' (List.mem_cons_of_mem c hc')
    exact ih hrest (hcalls c List.mem_cons_self s h)

section Keeps

variable (hk : FireKeeps zones w P d)
include hk

theorem FireKeeps.executeScheduledCallback (h : P s) :
    P (executeScheduledCallback zones w d s).1 := by
  have hensure : P (s.ensureScheduleCallbacks w) := by
    unfold ensureScheduleCallbacks
    split_ifs
    · exact hk.callbacks s _ h
    · exact h
  unfold ScheduleRuntime.executeScheduledCallback
  simp only
  split
  · exact hensure
  · rename_i callback _
    refine runCalls_keeps (fun c hc => hk.calls c ?_) hensure
    exact Or.inr (Or.inr (Or.inr ⟨callback, hc⟩))

theorem FireKeeps.executeScheduledPrompt (h : P s) (text : String) :
    P (executeScheduledPrompt zones w d text s).1 := by
  unfold ScheduleRuntime.executeScheduledPrompt
  refine runCalls_keeps (fun c hc => hk.calls c ?_) h
  exact Or.inr (Or.inr (Or.inl ⟨text, hc⟩))

theorem FireKeeps.markRunning (h : P s) : P { s with store := s.store.markRunning d.id w.now } :=
  hk.status s _ ⟨fun _ => rfl, fun _ => rfl, fun _ => rfl⟩ h

theorem FireKeeps.markFailed (h : P s) (e : String) :
    P { s with store := s.store.markFailed d.id e w.now } :=
  hk.status s _ ⟨fun _ => rfl, fun _ => rfl, fun _ => rfl⟩ h

theorem FireKeeps.finish {outcome : ScheduleRuntime × Except String Unit} (h : P outcome.1) :
    P (finish w d outcome) := by
  obtain ⟨s, result⟩ := outcome
  cases result with
  | ok _ => exact hk.status s _ ⟨fun _ => rfl, fun _ => rfl, fun _ => rfl⟩ h
  | error e => exact hk.markFailed h e

theorem FireKeeps.fireTimer (h : P s) : P (fireTimer zones w d s) := by
  have hrun := hk.executeScheduledCallback (hk.markRunning h)
  unfold ScheduleRuntime.fireTimer
  simp only
  split
  · rename_i s' heq
    rw [heq] at hrun
    exact hk.drop s' hrun
  · rename_i s' e heq
    rw [heq] at hrun
    exact hk.markFailed hrun e

theorem FireKeeps.runAnswered (h : P s) (static bundle : Option HookResult) :
    P (runAnswered zones w d static bundle s) := by
  have hrunning := hk.markRunning h
  have hcallback := hk.finish (hk.executeScheduledCallback hrunning)
  unfold ScheduleRuntime.runAnswered
  split_ifs
  · exact h
  · simp only
    split
    · split
      · rename_i text _
        exact hk.finish (hk.executeScheduledPrompt hrunning text)
      · exact hk.finish hrunning
    · exact hcallback

theorem FireKeeps.fireRecurring_from {next : Instant}
    (hnext : Cron.nextFireTime zones d.cron w.now d.timezone = .ok next)
    (h : P { s with
      store := (s.store.update d.id { nextFireAt := some (some next) } w.now).1 }) :
    P (fireRecurring zones w d s).1 := by
  have hasked : P (askHook zones w.onScheduleFire d { s with
      store := (s.store.update d.id { nextFireAt := some (some next) } w.now).1 }).1 := by
    unfold askHook
    split
    · exact h
    · rename_i ask hask
      exact runCalls_keeps (fun c hc => hk.calls c (Or.inl ⟨ask, hask, hc⟩)) h
  unfold ScheduleRuntime.fireRecurring
  simp only [hnext]
  split
  · rename_i s' e heq
    rw [heq] at hasked
    exact hasked
  · rename_i s' static heq
    rw [heq] at hasked
    have hbundled : P (askHook zones w.bundleAlarmHandler d s').1 := by
      unfold askHook
      split
      · exact hasked
      · rename_i ask hask
        exact runCalls_keeps (fun c hc => hk.calls c (Or.inr (Or.inl ⟨ask, hask, hc⟩))) hasked
    exact hk.runAnswered hbundled _ _

theorem FireKeeps.fireRecurring (h : P s) : P (fireRecurring zones w d s).1 := by
  cases hnext : Cron.nextFireTime zones d.cron w.now d.timezone with
  | error e =>
    unfold ScheduleRuntime.fireRecurring
    simp only [hnext]
    exact h
  | ok next =>
    exact hk.fireRecurring_from hnext (hk.advance s next (Cron.nextFireTime_gt hnext) h)

theorem FireKeeps.fireOne (h : P s) : P (fireOne zones w d s).1 := by
  unfold ScheduleRuntime.fireOne
  split_ifs
  · exact hk.drop s h
  · split
    · exact hk.fireTimer h
    · exact hk.fireRecurring h

end Keeps

theorem fireAll_keeps {due : List Schedule} (hk : ∀ d ∈ due, FireKeeps zones w P d) (h : P s) :
    P (fireAll zones w due s).runtime := by
  induction due generalizing s with
  | nil => exact h
  | cons d rest ih =>
    have hone := (hk d List.mem_cons_self).fireOne h
    have hrest : ∀ d' ∈ rest, FireKeeps zones w P d' := fun d' hd' =>
      hk d' (List.mem_cons_of_mem d hd')
    unfold fireAll
    split
    · rename_i s' e heq
      rw [heq] at hone
      exact hone
    · rename_i s' heq
      rw [heq] at hone
      exact ih hrest hone

/-- A due schedule that cannot break the loop off: it has expired, it is a timer, or its
expression has a next fire time and its own hook returns. -/
def Unbroken (zones : Cron.Zones) (w : Firing) (d : Schedule) : Prop :=
  expired w d = true ∨ d.handlerType = .timer ∨
    ((∃ next, Cron.nextFireTime zones d.cron w.now d.timezone = .ok next) ∧
      ∀ ask, w.onScheduleFire = some ask → ∃ result, (ask d).outcome = .ok result)

theorem fireOne_expired (h : expired w d = true) (s : ScheduleRuntime) :
    fireOne zones w d s = (s.drop d.id, none) := by
  unfold fireOne
  rw [if_pos h]

theorem fireOne_timer (h : expired w d = false) (ht : d.handlerType = .timer)
    (s : ScheduleRuntime) : fireOne zones w d s = (fireTimer zones w d s, none) := by
  unfold fireOne
  simp only [h, ht, Bool.false_eq_true, if_false]

theorem fireOne_recurring (h : expired w d = false) (ht : d.handlerType ≠ .timer)
    (s : ScheduleRuntime) : fireOne zones w d s = fireRecurring zones w d s := by
  unfold fireOne
  simp only [h, Bool.false_eq_true, if_false]

theorem fireRecurring_thrown (s : ScheduleRuntime) :
    (fireRecurring zones w d s).2 = none ↔
      (∃ next, Cron.nextFireTime zones d.cron w.now d.timezone = .ok next) ∧
        ∀ ask, w.onScheduleFire = some ask → ∃ result, (ask d).outcome = .ok result := by
  unfold fireRecurring
  cases hnext : Cron.nextFireTime zones d.cron w.now d.timezone with
  | error e => simp
  | ok next =>
    simp only [Except.ok.injEq, exists_eq', true_and]
    unfold askHook
    cases hhook : w.onScheduleFire with
    | none => simp
    | some ask =>
      simp only [Option.some.injEq, forall_eq']
      cases hanswer : (ask d).outcome with
      | error e => simp
      | ok result => simp

theorem fireOne_thrown (s : ScheduleRuntime) :
    (fireOne zones w d s).2 = none ↔ Unbroken zones w d := by
  unfold Unbroken
  cases hexpired : expired w d with
  | true =>
    rw [fireOne_expired hexpired]
    simp
  | false =>
    by_cases htimer : d.handlerType = .timer
    · rw [fireOne_timer hexpired htimer]
      simp [htimer]
    · rw [fireOne_recurring hexpired htimer, fireRecurring_thrown]
      simp only [Bool.false_eq_true, false_or, htimer]

theorem fireAll_thrown (due : List Schedule) (s : ScheduleRuntime) :
    ((fireAll zones w due s).thrown = none ↔ ∀ d ∈ due, Unbroken zones w d) ∧
      ((fireAll zones w due s).attempted = due.map Schedule.id ↔
        ∀ d ∈ due, Unbroken zones w d) := by
  induction due generalizing s with
  | nil => simp [fireAll]
  | cons d rest ih =>
    have hone : (fireOne zones w d s).2 = none ↔ Unbroken zones w d := fireOne_thrown s
    unfold fireAll
    cases hfire : fireOne zones w d s with
    | mk s' thrown =>
      rw [hfire] at hone
      obtain ⟨hthrown, hattempted⟩ := ih s'
      cases thrown with
      | some e =>
        have hbroken : ¬ Unbroken zones w d := fun h => absurd (hone.mpr h) nofun
        simp [hbroken]
      | none =>
        have hunbroken := hone.mp rfl
        simp only [List.map_cons, List.cons.injEq, true_and, List.forall_mem_cons, hunbroken]
        exact ⟨hthrown, hattempted⟩

theorem fireAll_cons {rest : List Schedule} {s' : ScheduleRuntime}
    (h : fireOne zones w d s = (s', none)) :
    (fireAll zones w (d :: rest) s).runtime = (fireAll zones w rest s').runtime ∧
      (fireAll zones w (d :: rest) s).thrown = (fireAll zones w rest s').thrown := by
  simp only [fireAll, h, and_self]

theorem fireAll_append {a b : List Schedule} (h : (fireAll zones w a s).thrown = none) :
    (fireAll zones w (a ++ b) s).runtime =
      (fireAll zones w b (fireAll zones w a s).runtime).runtime := by
  induction a generalizing s with
  | nil => rfl
  | cons d rest ih =>
    rw [List.cons_append]
    cases hfire : fireOne zones w d s with
    | mk s' thrown =>
      cases thrown with
      | some e =>
        simp only [fireAll, hfire] at h
        cases h
      | none =>
        rw [(fireAll_cons hfire).2] at h
        rw [(fireAll_cons hfire).1, (fireAll_cons hfire).1]
        exact ih h

end ScheduleRuntime

end CrabbyKit
