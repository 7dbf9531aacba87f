import CrabbyKit.Schedule.Callbacks

/-!
# Callbacks across hibernation

A firing of the alarm is followed from call to call and from lookup to lookup. While all
calls are safe, the map of callbacks covers what is needed, so that every declared schedule
that is executed finds its callback.
-/

namespace CrabbyKit

open List

/-- What a firing does with callbacks: a call, made in the given state while the executions of
`due` are still to come, or the lookup for an execution. -/
inductive Moment
  | call (due : List Schedule) (c : ScheduleCall) (s : ScheduleRuntime)
  | lookup (schedule : Schedule) (callback : Option Callback)
  deriving DecidableEq, Repr

namespace ScheduleRuntime

section Trace

variable (zones : Cron.Zones) (w : Firing)

def callTrace (due : List Schedule) : List ScheduleCall → ScheduleRuntime → List Moment
  | [], _ => []
  | c :: rest, s => .call due c s :: callTrace due rest (exec zones c s).1

/-- The moments of `executeScheduledCallback`. -/
def callbackTrace (rest : List Schedule) (schedule : Schedule) (s : ScheduleRuntime) :
    List Moment :=
  let s := s.ensureScheduleCallbacks w
  .lookup schedule (s.callbacks.lookup schedule.id) ::
    match s.callbacks.lookup schedule.id with
    | none => []
    | some callback => callTrace zones rest (w.runCallback callback schedule).calls s

/-- The moments of `askHook`. -/
def hookTrace (hook : Option (Schedule → Script (Option HookResult))) (due : List Schedule)
    (schedule : Schedule) (s : ScheduleRuntime) : List Moment :=
  match hook with
  | none => []
  | some ask => callTrace zones due (ask schedule).calls s

/-- The moments of `runAnswered`. -/
def answeredTrace (rest : List Schedule) (schedule : Schedule) (static bundle : Option HookResult)
    (s : ScheduleRuntime) : List Moment :=
  if static.any HookResult.skip || bundle.any HookResult.skip then []
  else
    let overridePrompt := (bundle.bind HookResult.prompt).or (static.bind HookResult.prompt)
    let s := { s with store := s.store.markRunning schedule.id w.now }
    match schedule.handlerType with
    | .prompt =>
      match truthy (overridePrompt.or schedule.prompt) with
      | some prompt => callTrace zones rest (w.runPrompt schedule prompt).calls s
      | none => []
    | _ => callbackTrace zones w rest schedule s

/-- The moments of `fireRecurring`. -/
def recurringTrace (rest : List Schedule) (schedule : Schedule) (s : ScheduleRuntime) :
    List Moment :=
  match Cron.nextFireTime zones schedule.cron w.now schedule.timezone with
  | .error _ => []
  | .ok next =>
    let store := (s.store.update schedule.id { nextFireAt := some (some next) } w.now).1
    let due := schedule :: rest
    hookTrace zones w.onScheduleFire due schedule { s with store := store } ++
      match askHook zones w.onScheduleFire schedule { s with store := store } with
      | (_, .error _) => []
      | (s, .ok static) =>
        hookTrace zones w.bundleAlarmHandler due schedule s ++
          let (s, answer) := askHook zones w.bundleAlarmHandler schedule s
          let bundle := match answer with
            | .ok result => result
            | .error _ => none
          answeredTrace zones w rest schedule static bundle s

/-- The moments of `fireOne`, before the schedules `rest`. -/
def traceOne (rest : List Schedule) (schedule : Schedule) (s : ScheduleRuntime) : List Moment :=
  if expired w schedule then []
  else
    match schedule.handlerType with
    | .timer =>
      callbackTrace zones w rest schedule
        { s with store := s.store.markRunning schedule.id w.now }
    | _ => recurringTrace zones w rest schedule s

/-- The moments of `fireAll`. -/
def traceAll : List Schedule → ScheduleRuntime → List Moment
  | [], _ => []
  | schedule :: rest, s =>
    traceOne zones w rest schedule s ++
      match fireOne zones w schedule s with
      | (_, some _) => []
      | (s, none) => traceAll rest s

/-- The moments of `handleAlarmFired`. -/
def alarmTrace (s : ScheduleRuntime) : List Moment :=
  traceAll zones w (s.store.getDueSchedules w.now) s

end Trace

def pendingIds (due : List Schedule) : List String :=
  (due.filter fun d => d.handlerType ≠ .prompt).map Schedule.id

end ScheduleRuntime

namespace Moment

open ScheduleRuntime

/-- A call is safe where it is made. -/
def Safe (zones : Cron.Zones) (declared : List (String × Callback)) : Moment → Prop
  | .call due c s => CallSafe zones declared (pendingIds due) c s
  | .lookup _ _ => True

/-- The lookup for a declared schedule finds a callback. -/
def Found (declared : List (String × Callback)) : Moment → Prop
  | .call _ _ _ => True
  | .lookup schedule callback => schedule.id ∈ declared.map Prod.fst → callback ≠ none

end Moment

namespace ScheduleRuntime

variable {zones : Cron.Zones} {w : Firing} {s : ScheduleRuntime} {due rest : List Schedule}
  {schedule : Schedule} {pending : List String}

theorem pendingIds_cons (h : schedule.handlerType ≠ .prompt) :
    pendingIds (schedule :: rest) = schedule.id :: pendingIds rest := by
  unfold pendingIds
  rw [filter_cons_of_pos (by simpa using h), map_cons]

theorem pendingIds_subset : pendingIds rest ⊆ pendingIds (schedule :: rest) :=
  (((sublist_cons_self _ _).filter _).map _).subset

theorem mem_foldl_setKey {β : Type} {added entries : List (String × β)} {id : String} :
    id ∈ (added.foldl (fun entries e => setKey entries e.1 e.2) entries).map Prod.fst ↔
      id ∈ added.map Prod.fst ∨ id ∈ entries.map Prod.fst := by
  induction added generalizing entries with
  | nil => simp
  | cons e rest ih =>
    rw [foldl_cons, ih, mem_setKey, map_cons, mem_cons]
    constructor
    · rintro (h | h | h)
      · exact Or.inl (Or.inr h)
      · exact Or.inl (Or.inl h)
      · exact Or.inr h
    · rintro ((h | h) | h)
      · exact Or.inr (Or.inl h)
      · exact Or.inl h
      · exact Or.inr (Or.inr h)

theorem Covers.ensure (h : Covers w.declared pending s) :
    ∀ id, Needs w.declared pending s id → (s.ensureScheduleCallbacks w).HasCallback id := by
  intro id hneeds
  rw [ensureScheduleCallbacks]
  split_ifs with hempty
  · exact mem_foldl_setKey.mpr (Or.inl hneeds.1)
  · exact h.resolve_left hempty id hneeds

theorem Covers.ensured (h : Covers w.declared pending s) :
    Covers w.declared pending (s.ensureScheduleCallbacks w) := by
  refine Or.inr fun id hneeds => h.ensure id ?_
  unfold ensureScheduleCallbacks at hneeds
  split_ifs at hneeds
  · exact hneeds
  · exact hneeds

theorem Covers.updateRow (h : Covers w.declared pending s) {id : String}
    {f : Schedule → Schedule} (hid : ∀ s, (f s).id = s.id)
    (hf : ∀ s, (f s).handlerType = s.handlerType) :
    Covers w.declared pending { s with store := s.store.updateRow id f } :=
  h.of_store rfl fun _ => (ScheduleStore.runsCallback_updateRow hid hf).mp

theorem Covers.drop (h : Covers w.declared pending s) {id : String} (hid : id ∉ pending) :
    Covers w.declared pending (s.drop id) := by
  refine h.forget id rfl (fun other hrow => ?_) (Or.inr ?_)
  · exact (ScheduleStore.runsCallback_delete.mp hrow).2
  · rintro ⟨-, hmem | hrow⟩
    · exact hid hmem
    · exact (ScheduleStore.runsCallback_delete.mp hrow).1 rfl

theorem Covers.runCalls {calls : List ScheduleCall} (h : Covers w.declared (pendingIds due) s)
    (hsafe : ∀ m ∈ callTrace zones due calls s, m.Safe zones w.declared) :
    (∀ m ∈ callTrace zones due calls s, m.Found w.declared) ∧
      Covers w.declared (pendingIds due) (runCalls zones calls s) := by
  induction calls generalizing s with
  | nil => exact ⟨fun m hm => absurd hm not_mem_nil, h⟩
  | cons c rest ih =>
    have hc : CallSafe zones w.declared (pendingIds due) c s := hsafe _ mem_cons_self
    obtain ⟨hfound, hcovers⟩ := ih (h.exec hc) fun m hm => hsafe m (mem_cons_of_mem _ hm)
    refine ⟨fun m hm => ?_, hcovers⟩
    rcases mem_cons.mp hm with rfl | hrest
    · trivial
    · exact hfound m hrest

/-- What a part of a firing has to do: every lookup in it finds a callback, and behind it the
map covers what the schedules still to come need. -/
def Finds (w : Firing) (trace : List Moment) (rest : List Schedule) (s : ScheduleRuntime) : Prop :=
  (∀ m ∈ trace, m.Found w.declared) ∧ Covers w.declared (pendingIds rest) s

theorem Covers.askHook {hook : Option (Schedule → Script (Option HookResult))}
    (h : Covers w.declared (pendingIds due) s)
    (hsafe : ∀ m ∈ hookTrace zones hook due schedule s, m.Safe zones w.declared) :
    Finds w (hookTrace zones hook due schedule s) due (askHook zones hook schedule s).1 := by
  cases hook with
  | none => exact ⟨fun _ hm => absurd hm not_mem_nil, h⟩
  | some ask => exact h.runCalls hsafe

theorem Covers.executeScheduledCallback (hhandler : schedule.handlerType ≠ .prompt)
    (h : Covers w.declared (pendingIds (schedule :: rest)) s)
    (hsafe : ∀ m ∈ callbackTrace zones w rest schedule s, m.Safe zones w.declared) :
    Finds w (callbackTrace zones w rest schedule s) rest
      (executeScheduledCallback zones w schedule s).1 := by
  have hlookup : schedule.id ∈ w.declared.map Prod.fst →
      (s.ensureScheduleCallbacks w).callbacks.lookup schedule.id ≠ none := by
    intro hdeclared hnone
    have hpending : schedule.id ∈ pendingIds (schedule :: rest) := by
      rw [pendingIds_cons hhandler]
      exact mem_cons_self
    obtain ⟨entry, hentry, hid⟩ :=
      mem_map.mp (h.ensure schedule.id ⟨hdeclared, Or.inl hpending⟩)
    have hne := lookup_eq_none_iff.mp hnone entry hentry
    simp [hid] at hne
  have hcovers : Covers w.declared (pendingIds rest) (s.ensureScheduleCallbacks w) :=
    h.ensured.mono pendingIds_subset
  unfold callbackTrace at hsafe ⊢
  rw [ScheduleRuntime.executeScheduledCallback]
  simp only at hsafe ⊢
  cases hfound : (s.ensureScheduleCallbacks w).callbacks.lookup schedule.id with
  | none =>
    refine ⟨fun m hm => ?_, hcovers⟩
    obtain rfl := mem_singleton.mp hm
    rw [hfound] at hlookup
    exact hlookup
  | some callback =>
    simp only [hfound] at hsafe ⊢
    obtain ⟨hcalls, hafter⟩ := hcovers.runCalls fun m hm => hsafe m (mem_cons_of_mem _ hm)
    refine ⟨fun m hm => ?_, hafter⟩
    rcases mem_cons.mp hm with rfl | hrest
    · exact fun _ => Option.some_ne_none callback
    · exact hcalls m hrest

theorem Covers.finish {outcome : ScheduleRuntime × Except String Unit}
    (h : Covers w.declared pending outcome.1) :
    Covers w.declared pending (finish w schedule outcome) := by
  obtain ⟨s, result⟩ := outcome
  cases result with
  | ok _ => exact h.updateRow (fun _ => rfl) fun _ => rfl
  | error e => exact h.updateRow (fun _ => rfl) fun _ => rfl

theorem Covers.fireTimer (hhandler : schedule.handlerType ≠ .prompt)
    (hid : schedule.id ∉ pendingIds rest) (h : Covers w.declared (pendingIds (schedule :: rest)) s)
    (hsafe : ∀ m ∈ callbackTrace zones w rest schedule
      { s with store := s.store.markRunning schedule.id w.now }, m.Safe zones w.declared) :
    Finds w (callbackTrace zones w rest schedule
      { s with store := s.store.markRunning schedule.id w.now }) rest
      (fireTimer zones w schedule s) := by
  have hrunning : Covers w.declared (pendingIds (schedule :: rest))
      { s with store := s.store.markRunning schedule.id w.now } :=
    h.updateRow (fun _ => rfl) fun _ => rfl
  obtain ⟨hfound, hcovers⟩ := hrunning.executeScheduledCallback hhandler hsafe
  refine ⟨hfound, ?_⟩
  unfold ScheduleRuntime.fireTimer
  simp only
  split
  · rename_i s' heq
    rw [heq] at hcovers
    exact hcovers.drop hid
  · rename_i s' e heq
    rw [heq] at hcovers
    exact hcovers.updateRow (fun _ => rfl) fun _ => rfl

theorem Covers.runAnswered {static bundle : Option HookResult}
    (h : Covers w.declared (pendingIds (schedule :: rest)) s)
    (hsafe : ∀ m ∈ answeredTrace zones w rest schedule static bundle s, m.Safe zones w.declared) :
    Finds w (answeredTrace zones w rest schedule static bundle s) rest
      (runAnswered zones w schedule static bundle s) := by
  have hrunning : Covers w.declared (pendingIds (schedule :: rest))
      { s with store := s.store.markRunning schedule.id w.now } :=
    h.updateRow (fun _ => rfl) fun _ => rfl
  unfold answeredTrace at hsafe ⊢
  rw [ScheduleRuntime.runAnswered]
  split_ifs at hsafe ⊢ with hskip
  · exact ⟨fun m hm => absurd hm not_mem_nil, h.mono pendingIds_subset⟩
  · simp only at hsafe ⊢
    cases hhandler : schedule.handlerType with
    | prompt =>
      simp only [hhandler] at hsafe ⊢
      cases htext : truthy (((bundle.bind HookResult.prompt).or
          (static.bind HookResult.prompt)).or schedule.prompt) with
      | some text =>
        simp only [htext] at hsafe ⊢
        obtain ⟨hfound, hcovers⟩ := (hrunning.mono pendingIds_subset).runCalls hsafe
        exact ⟨hfound, hcovers.finish⟩
      | none =>
        simp only
        have hidle : Covers w.declared (pendingIds rest)
            ({ s with store := s.store.markRunning schedule.id w.now },
              (.ok () : Except String Unit)).1 := hrunning.mono pendingIds_subset
        exact ⟨fun m hm => absurd hm not_mem_nil, hidle.finish⟩
    | callback =>
      have hne : schedule.handlerType ≠ .prompt := by simp [hhandler]
      simp only [hhandler] at hsafe ⊢
      obtain ⟨hfound, hcovers⟩ := hrunning.executeScheduledCallback hne hsafe
      exact ⟨hfound, hcovers.finish⟩
    | timer =>
      have hne : schedule.handlerType ≠ .prompt := by simp [hhandler]
      simp only [hhandler] at hsafe ⊢
      obtain ⟨hfound, hcovers⟩ := hrunning.executeScheduledCallback hne hsafe
      exact ⟨hfound, hcovers.finish⟩

theorem Finds.append {before after : List Moment} {s' : ScheduleRuntime}
    (h : Finds w before due s) (h' : Finds w after rest s') :
    Finds w (before ++ after) rest s' := by
  refine ⟨fun m hm => ?_, h'.2⟩
  rcases mem_append.mp hm with hbefore | hafter
  · exact h.1 m hbefore
  · exact h'.1 m hafter

theorem Covers.nothing (h : Covers w.declared (pendingIds (schedule :: rest)) s) :
    Finds w [] rest s :=
  ⟨fun _ hm => absurd hm not_mem_nil, h.mono pendingIds_subset⟩

theorem Covers.fireRecurring (h : Covers w.declared (pendingIds (schedule :: rest)) s)
    (hsafe : ∀ m ∈ recurringTrace zones w rest schedule s, m.Safe zones w.declared) :
    Finds w (recurringTrace zones w rest schedule s) rest (fireRecurring zones w schedule s).1 := by
  unfold recurringTrace at hsafe ⊢
  rw [ScheduleRuntime.fireRecurring]
  cases hnext : Cron.nextFireTime zones schedule.cron w.now schedule.timezone with
  | error e => exact h.nothing
  | ok next =>
    simp only [hnext] at hsafe ⊢
    have hadvanced : Covers w.declared (pendingIds (schedule :: rest)) { s with
        store := (s.store.update schedule.id { nextFireAt := some (some next) } w.now).1 } :=
      h.of_store rfl fun _ => (ScheduleStore.runsCallback_update _).mp
    have hstatic := hadvanced.askHook fun m hm => hsafe m (mem_append_left _ hm)
    cases hask : ScheduleRuntime.askHook zones w.onScheduleFire schedule { s with
        store := (s.store.update schedule.id { nextFireAt := some (some next) } w.now).1 } with
    | mk s₁ answer =>
      rw [hask] at hstatic
      simp only [hask] at hsafe ⊢
      cases answer with
      | error e => exact hstatic.append hstatic.2.nothing
      | ok static =>
        simp only at hsafe ⊢
        have hbundle := hstatic.2.askHook fun m hm =>
          hsafe m (mem_append_right _ (mem_append_left _ hm))
        have hanswered := hbundle.2.runAnswered fun m hm =>
          hsafe m (mem_append_right _ (mem_append_right _ hm))
        exact hstatic.append (hbundle.append hanswered)

theorem Covers.fireOne (hid : schedule.id ∉ pendingIds rest)
    (h : Covers w.declared (pendingIds (schedule :: rest)) s)
    (hsafe : ∀ m ∈ traceOne zones w rest schedule s, m.Safe zones w.declared) :
    Finds w (traceOne zones w rest schedule s) rest (fireOne zones w schedule s).1 := by
  unfold traceOne at hsafe ⊢
  cases hexpired : expired w schedule with
  | true =>
    rw [fireOne_expired hexpired]
    simp only [if_true]
    exact ⟨fun m hm => absurd hm not_mem_nil, (h.mono pendingIds_subset).drop hid⟩
  | false =>
    simp only [hexpired, Bool.false_eq_true, if_false] at hsafe ⊢
    cases hhandler : schedule.handlerType with
    | timer =>
      have hne : schedule.handlerType ≠ .prompt := by simp [hhandler]
      rw [fireOne_timer hexpired hhandler]
      simp only [hhandler] at hsafe ⊢
      exact h.fireTimer hne hid hsafe
    | prompt =>
      have hne : schedule.handlerType ≠ .timer := by simp [hhandler]
      rw [fireOne_recurring hexpired hne]
      simp only [hhandler] at hsafe ⊢
      exact h.fireRecurring hsafe
    | callback =>
      have hne : schedule.handlerType ≠ .timer := by simp [hhandler]
      rw [fireOne_recurring hexpired hne]
      simp only [hhandler] at hsafe ⊢
      exact h.fireRecurring hsafe

theorem Covers.fireAll (hnodup : (due.map Schedule.id).Nodup)
    (h : Covers w.declared (pendingIds due) s)
    (hsafe : ∀ m ∈ traceAll zones w due s, m.Safe zones w.declared) :
    (∀ m ∈ traceAll zones w due s, m.Found w.declared) ∧
      Covers w.declared [] (fireAll zones w due s).runtime := by
  induction due generalizing s with
  | nil => exact ⟨fun m hm => absurd hm not_mem_nil, h⟩
  | cons schedule rest ih =>
    obtain ⟨hfresh, hrest⟩ := nodup_cons.mp hnodup
    have hid : schedule.id ∉ pendingIds rest := fun hmem =>
      hfresh ((filter_sublist.map _).subset hmem)
    unfold traceAll at hsafe ⊢
    have hone := h.fireOne hid fun m hm => hsafe m (mem_append_left _ hm)
    rw [ScheduleRuntime.fireAll]
    cases hfire : ScheduleRuntime.fireOne zones w schedule s with
    | mk s₁ thrown =>
      rw [hfire] at hone
      simp only [hfire] at hsafe ⊢
      cases thrown with
      | some e =>
        refine ⟨fun m hm => hone.1 m ?_, hone.2.mono (nil_subset _)⟩
        rw [append_nil] at hm
        exact hm
      | none =>
        obtain ⟨hfound, hcovers⟩ := ih hrest hone.2 fun m hm => hsafe m (mem_append_right _ hm)
        refine ⟨fun m hm => ?_, hcovers⟩
        rcases mem_append.mp hm with hfirst | hlater
        · exact hone.1 m hfirst
        · exact hfound m hlater

theorem Covers.handleAlarmFired (hkeyed : s.store.Keyed) (h : Covers w.declared [] s)
    (hsafe : ∀ m ∈ alarmTrace zones w s, m.Safe zones w.declared) :
    (∀ m ∈ alarmTrace zones w s, m.Found w.declared) ∧
      Covers w.declared [] (handleAlarmFired zones w s).runtime := by
  have hdue : Covers w.declared (pendingIds (s.store.getDueSchedules w.now)) s := by
    refine h.imp id fun hall id hneeds => hall id ⟨hneeds.1, Or.inr ?_⟩
    rcases hneeds.2 with hpending | hrow
    · obtain ⟨d, hd, rfl⟩ := mem_map.mp hpending
      obtain ⟨hd, hhandler⟩ := mem_filter.mp hd
      have hrow := (mem_filter.mp ((mem_insertionSort _).mp hd)).1
      exact ⟨d, hkeyed.get_eq_some.mpr ⟨hrow, rfl⟩, by simpa using hhandler⟩
    · exact hrow
  obtain ⟨hfound, hcovers⟩ := hdue.fireAll (hkeyed.due_nodup w.now) hsafe
  refine ⟨hfound, ?_⟩
  unfold ScheduleRuntime.handleAlarmFired
  simp only
  split
  · exact hcovers
  · exact hcovers

theorem keyed_exec (h : s.store.Keyed) {c : ScheduleCall} : (exec zones c s).1.store.Keyed := by
  refine exec_keeps ScheduleStore.keeps_keyed h ?_
  obtain ⟨op, nanoid, now⟩ := c
  cases op with
  | spineScheduleUpdate id patch => exact fun _ _ => trivial
  | _ => trivial

theorem fireKeeps_keyed (d : Schedule) : FireKeeps zones w (fun s => s.store.Keyed) d where
  calls := fun _ _ _ h => keyed_exec h
  status := fun _ _ hf h => h.updateRow hf.id
  advance := fun _ _ _ h => ScheduleStore.keeps_keyed.update _ _ _ (fun _ _ => trivial) h
  drop := fun _ h => h.delete d.id
  callbacks := fun _ _ h => h

theorem keyed_handleAlarmFired (h : s.store.Keyed) :
    (handleAlarmFired zones w s).runtime.store.Keyed := by
  have hall : (fireAll zones w (s.store.getDueSchedules w.now) s).runtime.store.Keyed :=
    fireAll_keeps (P := fun s => s.store.Keyed) (fun d _ => fireKeeps_keyed d) h
  unfold ScheduleRuntime.handleAlarmFired
  simp only
  split
  · exact hall
  · exact hall

end ScheduleRuntime

/-- The runtime and what its currently registered capabilities declare. -/
structure Registry where
  declarations : List (ScheduleConfig × String) := []
  runtime : ScheduleRuntime := {}

/-- What may happen: capabilities declare other schedules, or something happens to the
schedules. -/
inductive RegistryEvent
  | register (declarations : List (ScheduleConfig × String))
  | schedule (event : ScheduleEvent)

namespace Registry

variable (zones : Cron.Zones)

def declared (r : Registry) : List (String × Callback) := declaredCallbacks r.declarations

def informed (r : Registry) (w : Firing) : Firing := { w with declared := r.declared }

/-- The state after an event. -/
def step (r : Registry) : RegistryEvent → Registry
  | .register declarations => { r with declarations := declarations }
  | .schedule (.alarmFired w) =>
    { r with runtime := r.runtime.step zones (.alarmFired (r.informed w)) }
  | .schedule event => { r with runtime := r.runtime.step zones event }

def moments (r : Registry) (w : Firing) : List Moment :=
  ScheduleRuntime.alarmTrace zones (r.informed w) { r.runtime with wakeTime := none }

/-- An event that leaves no needed callback out of a map with others: so are all calls, those
made during a firing included, and schedules are newly declared over an empty map or with
their callbacks registered. -/
def EventSafe (r : Registry) : RegistryEvent → Prop
  | .register declarations => ScheduleRuntime.Covers (declaredCallbacks declarations) [] r.runtime
  | .schedule (.call c) => ScheduleRuntime.CallSafe zones r.declared [] c r.runtime
  | .schedule (.alarmFired w) => ∀ m ∈ r.moments zones w, m.Safe zones r.declared
  | .schedule .restart => True

/-- Whenever a firing executes a declared schedule with a callback, it finds one. -/
def Survives (start : Registry) (events : List RegistryEvent) : Prop :=
  ∀ before w after, events = before ++ .schedule (.alarmFired w) :: after →
    ∀ schedule callback,
      .lookup schedule callback ∈ (Run.run (step zones) start before).moments zones w →
      schedule.id ∈ (Run.run (step zones) start before).declared.map Prod.fst →
      callback ≠ none

/-- The invariant of safe runs. -/
structure Covered (r : Registry) : Prop where
  keyed : r.runtime.store.Keyed
  covers : ScheduleRuntime.Covers r.declared [] r.runtime

variable {zones} {r : Registry}

theorem Covered.alarmFired (h : r.Covered) {w : Firing}
    (hsafe : ∀ m ∈ r.moments zones w, m.Safe zones r.declared) :
    (∀ m ∈ r.moments zones w, m.Found r.declared) ∧
      (r.step zones (.schedule (.alarmFired w))).Covered := by
  have hkeyed : ({ r.runtime with wakeTime := none } : ScheduleRuntime).store.Keyed := h.keyed
  have hcovers : ScheduleRuntime.Covers (r.informed w).declared []
      { r.runtime with wakeTime := none } := h.covers
  obtain ⟨hfound, hafter⟩ := hcovers.handleAlarmFired hkeyed hsafe
  exact ⟨hfound, ScheduleRuntime.keyed_handleAlarmFired hkeyed, hafter⟩

theorem Covered.step (h : r.Covered) {e : RegistryEvent} (he : r.EventSafe zones e) :
    (r.step zones e).Covered := by
  cases e with
  | register declarations => exact ⟨h.keyed, he⟩
  | schedule event =>
    cases event with
    | call c =>
      exact ⟨ScheduleRuntime.keyed_exec h.keyed, h.covers.exec he⟩
    | alarmFired w => exact (h.alarmFired he).2
    | restart => exact ⟨h.keyed, Or.inl rfl⟩

/-- A run from a cold start whose events are all safe finds the callback of every declared
schedule that it executes. -/
theorem survives_of_safe {start : Registry} (hcold : start.runtime.callbacks = [])
    (hkeyed : start.runtime.store.Keyed) {events : List RegistryEvent}
    (hsafe : Run.Allowed (EventSafe zones) (step zones) start events) :
    Survives zones start events := by
  intro before w after hsplit schedule callback hlookup hdeclared
  have hcovered : (Run.run (step zones) start before).Covered :=
    Run.invariant_of_allowed (I := Covered) ⟨hkeyed, Or.inl hcold⟩ (fun _ _ h he => h.step he)
      hsafe before _ hsplit
  obtain ⟨hfound, -⟩ := hcovered.alarmFired (hsafe before _ after hsplit)
  exact hfound _ hlookup hdeclared

def teaRow : Schedule :=
  ScheduleStore.newSchedule
    { name := "tea", cron := ScheduleRuntime.timerDummyCron, handlerType := .timer,
      ownerId := some "kitchen", nextFireAt := some 1000 } "tea" 0

def sweepRow : Schedule :=
  ScheduleStore.newSchedule
    { name := "sweep", cron := "0 9 * * *", handlerType := .callback,
      ownerId := some "cleaner", nextFireAt := some 32400000 } "sweep" 0

/-- A sleeping agent that declares both. -/
def asleep : Registry where
  declarations :=
    [(.timer { id := "tea", callback := 1 }, "kitchen"),
      (.callback { id := "sweep", name := "sweep", cron := "0 9 * * *", callback := 2 }, "cleaner")]
  runtime := { store := { rows := [teaRow, sweepRow] } }

/-- A firing of the timer, which is then armed again, a restart, and the next firing. -/
def teaEvents : List RegistryEvent :=
  [.schedule (.alarmFired { now := 2000 }),
    .schedule (.call ⟨.setTimer "tea" (some 5000) (some 1), "n", 3000⟩),
    .schedule .restart,
    .schedule (.alarmFired { now := 9000 })]

theorem keyed_asleep : asleep.runtime.store.Keyed := (by decide : ["tea", "sweep"].Nodup)

def teaRowAgain : Schedule :=
  ScheduleStore.newSchedule
    { name := "tea", cron := ScheduleRuntime.timerDummyCron, handlerType := .timer,
      nextFireAt := some 8000 } "tea" 3000

/-- These events are all safe. -/
theorem survives_tea : Survives ScheduleRuntime.noZones asleep teaEvents := by
  refine survives_of_safe rfl keyed_asleep
    (Run.allowed_cons ?_ (Run.allowed_cons ?_ (Run.allowed_cons trivial
      (Run.allowed_cons ?_ (Run.allowed_nil _ _ _)))))
  · intro m hm
    have hmoments : asleep.moments ScheduleRuntime.noZones { now := 2000 } =
        [.lookup teaRow (some 1)] := by decide
    rw [hmoments] at hm
    obtain rfl := mem_singleton.mp hm
    trivial
  · exact Or.inl (by decide)
  · intro m hm
    have hmoments : (Run.run (step ScheduleRuntime.noZones) asleep (teaEvents.take 3)).moments
        ScheduleRuntime.noZones { now := 9000 } = [.lookup teaRowAgain (some 1)] := by decide
    have hm : m ∈ [Moment.lookup teaRowAgain (some 1)] := hmoments ▸ hm
    obtain rfl := mem_singleton.mp hm
    trivial

/-- Another timer is armed before the alarm of the first. -/
def napEvents : List RegistryEvent :=
  [.schedule (.call ⟨.setTimer "nap" (some 5000) (some 3), "n", 500⟩),
    .schedule (.alarmFired { now := 2000 })]

/-- The callback of the armed timer is the only one then, and the first timer finds none. -/
theorem nap_hides_tea : asleep.runtime.callbacks = [] ∧ asleep.runtime.store.Keyed ∧
    ¬ Survives ScheduleRuntime.noZones asleep napEvents ∧
    ((Run.run (step ScheduleRuntime.noZones) asleep napEvents).runtime.store.get "tea").bind
      Schedule.lastError = some "No callback registered for schedule \"tea\"" := by
  have hmoments : (Run.run (step ScheduleRuntime.noZones) asleep (napEvents.take 1)).moments
      ScheduleRuntime.noZones { now := 2000 } = [.lookup teaRow none] := by decide
  refine ⟨rfl, keyed_asleep, fun h => ?_, by decide⟩
  refine h (napEvents.take 1) { now := 2000 } [] rfl teaRow none ?_ (by decide) rfl
  rw [hmoments]
  exact mem_cons_self

end Registry

end CrabbyKit
