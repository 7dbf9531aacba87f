import CrabbyKit.Core.Noninterference
import CrabbyKit.Spine.Host

/-!
# Calls that stay in the session of their token

A call of the service reads, writes and reaches nothing of another session, apart from the calls
that name a session in their arguments and the broadcasts of hooks, which go where the capabilities
were resolved to send them.
-/

namespace CrabbyKit.Spine

open Capabilities Noninterference

section Views

variable {nanoid : Nat → String} {H : Type}

/-- Two states that hooks for a session cannot tell apart. -/
structure HookState.SameFor (sessionId : String) (s s' : HookState nanoid H) : Prop where
  sessionStore : EntryStore.Same sessionId s.sessionStore s'.sessionStore
  memory : s.memory = s'.memory

/-- The other sessions' rows and entries are kept. -/
def HookState.KeptBy (sessionId : String) (s s' : HookState nanoid H) : Prop :=
  ∀ other, other ≠ sessionId →
    sessionData s.sessionStore.store other = sessionData s'.sessionStore.store other

def hookView (sessionId : String) : View (HookState nanoid H) where
  same := HookState.SameFor sessionId
  kept := HookState.KeptBy sessionId
  kept_refl _ _ _ := rfl
  kept_trans h h' other hother := (h other hother).trans (h' other hother)

/-- Two states that differ only in what belongs to the other sessions. -/
structure SpineState.SameFor (sessionId : String) (s s' : SpineState nanoid H) : Prop where
  hooks : HookState.SameFor sessionId s.toHookState s'.toHookState
  kvStore : ∀ key, PrivateTo sessionId key → s.kvStore.get key = s'.kvStore.get key
  transport : Connections.Same sessionId s.transport s'.transport
  counters : s.counters = s'.counters
  activeBundleVersionId : s.activeBundleVersionId = s'.activeBundleVersionId
  resolvedFor : s.resolvedFor = s'.resolvedFor

structure SpineState.KeptBy (sessionId : String) (s s' : SpineState nanoid H) : Prop where
  hooks : HookState.KeptBy sessionId s.toHookState s'.toHookState
  kvStore : ∀ other, other ≠ sessionId → ∀ key, SnapshotOf other key →
    s.kvStore.get key = s'.kvStore.get key
  transport : ∀ other, other ≠ sessionId → Connections.Same other s.transport s'.transport

/-- What a token for a session may see. -/
def sessionView (sessionId : String) : View (SpineState nanoid H) where
  same := SpineState.SameFor sessionId
  kept := SpineState.KeptBy sessionId
  kept_refl s :=
    ⟨fun _ _ => rfl, fun _ _ _ _ => rfl, fun other _ => Connections.same_refl other s.transport⟩
  kept_trans h h' :=
    ⟨fun other hother => (h.hooks other hother).trans (h'.hooks other hother),
      fun other hother key hkey =>
        (h.kvStore other hother key hkey).trans (h'.kvStore other hother key hkey),
      fun other hother =>
        Connections.same_trans (h.transport other hother) (h'.transport other hother)⟩

theorem SpineState.sameFor_refl (sessionId : String) (s : SpineState nanoid H) :
    SpineState.SameFor sessionId s s :=
  ⟨⟨⟨rfl, rfl⟩, rfl⟩, fun _ _ => rfl, Connections.same_refl sessionId s.transport, rfl, rfl, rfl⟩

end Views

section Hooks

variable {nanoid : Nat → String} {H A O : Type} (hunique : Function.Injective nanoid)
  {sessionId : String} (now : Instant)

include hunique in
theorem HookBody.confined (capabilityId : String) (body : HookBody H O) (s : HookState nanoid H) :
    Confined (hookView sessionId) (body.run capabilityId sessionId now) s := by
  induction body generalizing s with
  | returns output => exact confined_read fun _ _ => rfl
  | throws => exact confined_read fun _ _ => rfl
  | sessionData next ih =>
    intro s' hs
    have hdata := hs.sessionStore.data
    simp only [HookBody.run, ← hdata]
    exact ih _ s s' hs
  | appendEntry data next ih =>
    have happend : Confined (hookView sessionId)
        (fun s : HookState nanoid H =>
          ((s.sessionStore.append sessionId data now).1,
            { s with sessionStore := (s.sessionStore.append sessionId data now).2 })) s := by
      intro s' hs
      obtain ⟨hresult, hsame⟩ := EntryStore.append_same data now hunique hs.sessionStore
      exact ⟨hresult, ⟨hsame, hs.memory⟩, fun other hother =>
        (EntryStore.append_other s'.sessionStore data now hunique hother).symm⟩
    exact confined_bind
      (g := fun appended s => (next appended).run capabilityId sessionId now s)
      happend (ih _ _)
  | storage update next ih =>
    intro s' hs
    have hmemory := hs.memory
    simp only [HookBody.run, ← hmemory]
    exact ih _ _ _ ⟨hs.sessionStore, rfl⟩
  | broadcastState event data scope next ih =>
    exact confined_map
      (fun ran => (ran.1, ⟨capabilityId, event, data, scope.getD .session⟩ :: ran.2)) (ih s)

include hunique in
theorem runHooks_confined (next : A → Option O → A × Bool)
    (hooks : List (String × (A → HookBody H O))) (a : A) (s : HookState nanoid H) :
    Confined (hookView sessionId) (runHooks sessionId now next hooks a) s := by
  induction hooks generalizing a s with
  | nil => exact confined_read fun _ _ => rfl
  | cons entry rest ih =>
    have hhook : Confined (hookView sessionId) ((entry.2 a).run entry.1 sessionId now) s :=
      HookBody.confined hunique now entry.1 (entry.2 a) s
    refine confined_bind (g := fun ran s =>
      let left := next a ran.1
      if left.2 then
        let more := runHooks sessionId now next rest left.1 s
        ((more.1.1, ran.2 ++ more.1.2), more.2)
      else ((left.1, ran.2), s)) hhook ?_
    apply confined_ite (fun _ _ => Iff.rfl)
    · intro _
      exact confined_map (fun more => (more.1, _ ++ more.2)) (ih _ _)
    · intro _
      exact confined_read fun _ _ => rfl

end Hooks

section Methods

variable {H : Type} {rt : SpineRuntime H} {sessionId : String} {s : rt.State}

theorem SpineState.SameFor.count {s s' : rt.State} (h : SpineState.SameFor sessionId s s')
    (nonce : String) (category : BudgetCategory) :
    SpineState.SameFor sessionId (s.count nonce category) (s'.count nonce category) :=
  { h with
    counters := by
      unfold SpineState.count
      rw [h.counters] }

theorem confined_withSpineBudget {ρ : Type} (g : Except HostError SpineReply → ρ)
    (caller : SpineCaller) (category : BudgetCategory) (fn : rt.Method) :
    Confined (sessionView sessionId)
        (fun s => (g (withSpineBudget rt caller category fn s).1,
          (withSpineBudget rt caller category fn s).2)) s ↔
      Exhausted rt s caller.nonce category ∨
        Confined (sessionView sessionId) (fun s => (g (fn s).1, (fn s).2))
          (s.count caller.nonce category) := by
  have hexhausted : ∀ s' : rt.State, s'.counters = s.counters →
      (Exhausted rt s' caller.nonce category ↔ Exhausted rt s caller.nonce category) := by
    intro s' h
    unfold Exhausted
    rw [h]
  by_cases hs : Exhausted rt s caller.nonce category
  · refine iff_of_true (fun s' hsame => ?_) (Or.inl hs)
    have hs' := (hexhausted s' hsame.counters.symm).mpr hs
    simp only [withSpineBudget, if_pos hs, if_pos hs']
    exact ⟨trivial, hsame, (sessionView sessionId).kept_refl s'⟩
  · refine Iff.trans ?_ (or_iff_right hs).symm
    constructor
    · intro h t' ht
      -- a state that looks like the counted one is itself counted
      have hsame : SpineState.SameFor sessionId s { t' with counters := s.counters } :=
        ⟨ht.hooks, ht.kvStore, ht.transport, rfl, ht.activeBundleVersionId, ht.resolvedFor⟩
      have hs' : ¬Exhausted rt { t' with counters := s.counters } caller.nonce category :=
        mt (hexhausted _ rfl).mp hs
      have hcount : ({ t' with counters := s.counters } : rt.State).count caller.nonce category =
          t' := by
        have hcounters := ht.counters
        unfold SpineState.count at hcounters ⊢
        simp only at hcounters ⊢
        rw [hcounters]
      have hcalled := h _ hsame
      simp only [withSpineBudget, if_neg hs, if_neg hs', hcount] at hcalled
      obtain ⟨hresult, hsame', hkept⟩ := hcalled
      exact ⟨hresult, hsame', hkept.hooks, hkept.kvStore, hkept.transport⟩
    · intro h s' hsame
      have hs' := mt (hexhausted s' hsame.counters.symm).mp hs
      obtain ⟨hresult, hsame', hkept⟩ := h _ (hsame.count caller.nonce category)
      simp only [withSpineBudget, if_neg hs, if_neg hs']
      exact ⟨hresult, hsame', hkept.hooks, hkept.kvStore, hkept.transport⟩

theorem entries_confined (read : SessionStore → Except HostError SpineReply)
    (h : ∀ a b, sessionData a sessionId = sessionData b sessionId → read a = read b) :
    Confined (sessionView sessionId) (fun s : rt.State => (read s.sessionStore.store, s)) s :=
  confined_read fun s' hs => (h _ s'.sessionStore.store hs.hooks.sessionStore.data).symm

theorem appendEntry_confined (now : Instant) (entry : EntryData) :
    Confined (sessionView sessionId) (appendEntry rt now sessionId entry) s := by
  intro s' hs
  obtain ⟨hresult, hsame⟩ :=
    EntryStore.append_same entry now rt.nanoid_injective hs.hooks.sessionStore
  have hkept : HookState.KeptBy sessionId s'.toHookState
      (appendEntry rt now sessionId entry s').2.toHookState := fun _ hother =>
    (EntryStore.append_other s'.sessionStore entry now rt.nanoid_injective hother).symm
  refine ⟨?_, { hs with hooks := ⟨hsame, hs.hooks.memory⟩ }, hkept, fun _ _ _ _ => rfl,
    fun other _ => Connections.same_refl other s'.transport⟩
  simp only [appendEntry, hresult]

theorem broadcastToSession_confined (msg : Json) :
    Confined (sessionView sessionId) (broadcastToSession rt sessionId msg) s :=
  confined_write
    (fun _ hs =>
      { hs with transport := Connections.deliver_same hs.transport (some sessionId) msg })
    (fun s' _ => ⟨fun _ _ => rfl, fun _ _ _ _ => rfl,
      fun _ hother => Connections.deliver_other hother s'.transport msg⟩)

theorem handleCostEvent_confined (now : Instant) (cost : Json) :
    Confined (sessionView sessionId) (handleCostEvent rt now cost sessionId) s := by
  have hbind : handleCostEvent rt now cost sessionId = fun s =>
      let appended := appendEntry rt now sessionId (.custom "cost" cost.stringify) s
      appended.1.casesOn (fun e => (.error e, appended.2)) fun _ =>
        broadcastToSession rt sessionId (costEventMessage sessionId cost) appended.2 := by
    funext s
    simp only [handleCostEvent]
    cases (appendEntry rt now sessionId (.custom "cost" cost.stringify) s).1 <;> rfl
  rw [hbind]
  refine confined_bind (g := fun appended s => appended.casesOn (fun e => (.error e, s))
    fun _ => broadcastToSession rt sessionId (costEventMessage sessionId cost) s)
    (appendEntry_confined now (.custom "cost" cost.stringify)) ?_
  cases (appendEntry rt now sessionId (.custom "cost" cost.stringify) s).1 with
  | error e => exact confined_read fun _ _ => rfl
  | ok reply => exact broadcastToSession_confined _

/-! ### Hooks of a call -/

/-- The clients of a session only are reached by a hook's broadcast. -/
def StateBroadcast.StaysIn (sessionId bound : String) (b : StateBroadcast) : Prop :=
  b.scope = .session ∧ bound = sessionId ∧ sessionId ≠ ""

theorem target_eq_iff {bound : String} (b : StateBroadcast) :
    b.target bound = some sessionId ↔ b.StaysIn sessionId bound := by
  unfold StateBroadcast.target StateBroadcast.StaysIn
  constructor
  · intro h
    obtain ⟨⟨hscope, hbound⟩, heq⟩ := Option.ite_none_right_eq_some.mp h
    obtain rfl := Option.some.inj heq
    exact ⟨hscope, rfl, hbound⟩
  · rintro ⟨hscope, rfl, hne⟩
    exact if_pos ⟨hscope, hne⟩

theorem bridgeHooks_confined {A ρ : Type} (g : Except HostError SpineReply → ρ)
    {chain : HookState rt.nanoid H → (A × List StateBroadcast) × HookState rt.nanoid H}
    (hchain : ∀ s, Confined (hookView sessionId) chain s) (reply : A → SpineReply) :
    Confined (sessionView sessionId)
        (fun s => (g (bridgeHooks rt sessionId chain reply s).1,
          (bridgeHooks rt sessionId chain reply s).2)) s ↔
      ∀ b ∈ (chain s.toHookState).1.2, b.StaysIn sessionId (s.boundTo sessionId) := by
  have hbound : ∀ s : rt.State,
      (ensureCapabilityHooksResolved rt sessionId s).boundTo sessionId = s.boundTo sessionId :=
    fun _ => rfl
  constructor
  · intro h b hb
    by_contra hstays
    -- one more client of a session that the message reaches
    have hreached : ∃ other, other ≠ sessionId ∧
        (b.target (s.boundTo sessionId) = none ∨ b.target (s.boundTo sessionId) = some other) := by
      cases htarget : b.target (s.boundTo sessionId) with
      | none =>
        refine ⟨sessionId ++ "a", fun heq => ?_, Or.inl rfl⟩
        have hlength := congrArg String.length heq
        simp at hlength
      | some other =>
        refine ⟨other, ?_, Or.inr rfl⟩
        rintro rfl
        exact hstays ((target_eq_iff b).mp htarget)
    obtain ⟨other, hother, htarget⟩ := hreached
    have hmem : (b.target (s.boundTo sessionId), b.message (s.boundTo sessionId)) ∈
        (chain s.toHookState).1.2.map fun b =>
          (b.target (s.boundTo sessionId), b.message (s.boundTo sessionId)) :=
      List.mem_map_of_mem hb
    obtain ⟨t', hsame, hchanged⟩ :=
      Connections.exists_reached hother s.transport ⟨_, hmem, htarget⟩
    have hs : SpineState.SameFor sessionId s { s with transport := t' } :=
      { SpineState.sameFor_refl sessionId s with transport := hsame }
    exact hchanged ((h _ hs).2.2.transport other hother)
  · intro h s' hs
    obtain ⟨hresult, hsame, hkept⟩ := hchain s.toHookState s'.toHookState hs.hooks
    have hboundTo : s'.boundTo sessionId = s.boundTo sessionId := by
      unfold SpineState.boundTo
      rw [hs.resolvedFor]
    have hmessages : ∀ m ∈ (chain s.toHookState).1.2.map (fun b =>
        (b.target (s.boundTo sessionId), b.message (s.boundTo sessionId))),
        m.1 = some sessionId := by
      intro m hm
      obtain ⟨b, hb, rfl⟩ := List.mem_map.mp hm
      exact (target_eq_iff b).mpr (h b hb)
    refine ⟨?_, ⟨hsame, hs.kvStore, ?_, hs.counters, hs.activeBundleVersionId, ?_⟩,
      hkept, fun _ _ _ _ => rfl, fun other hother => ?_⟩
    · simp only [bridgeHooks, ensureCapabilityHooksResolved, hresult]
    · simp only [bridgeHooks, hbound]
      simp only [ensureCapabilityHooksResolved, hresult, hboundTo]
      exact Connections.deliverAll_same hs.transport _
    · simp only [bridgeHooks, ensureCapabilityHooksResolved, hboundTo]
    · simp only [bridgeHooks, hbound]
      simp only [ensureCapabilityHooksResolved, hresult, hboundTo]
      exact Connections.deliverAll_other hother s'.transport hmessages

/-! ### Snapshots of a call -/

theorem sameFor_put {key : Key} (hkey : ¬PrivateTo sessionId key) (value : Json) :
    SpineState.SameFor sessionId s { s with kvStore := s.kvStore.put key value } :=
  { SpineState.sameFor_refl sessionId s with
    kvStore := by
      intro other hother
      have hne : other ≠ key := by
        rintro rfl
        exact hkey hother
      exact (s.kvStore.get_put_of_ne hne value).symm }

theorem put_confined {ρ : Type} (result : ρ) (key : Key) (sections : List Json) :
    Confined (sessionView sessionId)
        (fun s : rt.State => (result, { s with kvStore := s.kvStore.put key (.arr sections) })) s ↔
      PrivateTo sessionId key := by
  constructor
  · intro h
    by_contra hkey
    obtain ⟨other, hother, hsnapshot⟩ : ∃ other, other ≠ sessionId ∧ SnapshotOf other key := by
      simpa [PrivateTo] using hkey
    have hkept := (h _ (sameFor_put hkey .null)).2.2.kvStore other hother key hsnapshot
    rw [SortedMap.get_put, SortedMap.get_put] at hkept
    cases hkept
  · intro hkey
    apply confined_write
    · intro s' hs
      refine { hs with kvStore := fun other hother => ?_ }
      by_cases heq : other = key
      · rw [heq, SortedMap.get_put, SortedMap.get_put]
      · rw [SortedMap.get_put_of_ne _ heq, SortedMap.get_put_of_ne _ heq]
        exact hs.kvStore other hother
    · intro s' _
      refine ⟨fun _ _ => rfl, fun other hother key' hkey' => ?_,
        fun other _ => Connections.same_refl other s'.transport⟩
      have hne : key' ≠ key := by
        rintro rfl
        exact hkey other hother hkey'
      exact (s'.kvStore.get_put_of_ne hne _).symm

theorem get_confined (key : Key) :
    Confined (sessionView sessionId)
        (fun s : rt.State =>
          (answer (.ok (.sections (sectionsOf (.value (s.kvStore.get key))))), s)) s ↔
      PrivateTo sessionId key := by
  constructor
  · intro h
    by_contra hkey
    have hresult := (h _ (sameFor_put hkey
      (.arr (.null :: sectionsOf (.value (s.kvStore.get key)))))).1
    simp only [SortedMap.get_put, answer, sectionsOf] at hresult
    have hsections := SpineReply.sections.inj (Except.ok.inj (Option.some.inj hresult))
    exact List.cons_ne_self _ _ hsections
  · intro hkey
    apply confined_read
    intro s' hs
    rw [hs.kvStore key hkey]

end Methods

section Calls

variable {H : Type} (rt : SpineRuntime H) (sessionId nonce : String) (now : Instant)

def OwnSnapshot (s : rt.State) (named version : String) : Prop :=
  Exhausted rt s nonce .inspection ∨ version = "" ∨
    PrivateTo sessionId (snapshotKey named version)

/-- What the hooks of a call broadcast stays in the session, for which the capabilities are then
resolved. -/
def HooksStay {A : Type} (s : rt.State) (category : BudgetCategory)
    (chain : HookState rt.nanoid H → (A × List StateBroadcast) × HookState rt.nanoid H) : Prop :=
  Exhausted rt s nonce category ∨
    ∀ b ∈ (chain s.toHookState).1.2, b.StaysIn sessionId (s.boundTo sessionId)

/-- What a call with a token for a session asks of its arguments and of the hooks. -/
def StaysInSession (s : rt.State) : SessionMethod → Prop
  | .recordToolExecution event =>
    HooksStay rt sessionId nonce s .hookAfterTool (afterToolExecution rt now sessionId event)
  | .processBeforeInference messages =>
    HooksStay rt sessionId nonce s .hookBeforeInference (beforeInference rt now sessionId messages)
  | .processBeforeToolExecution event =>
    HooksStay rt sessionId nonce s .hookBeforeTool (beforeToolExecution rt now sessionId event)
  | .recordPromptSections named _ version => OwnSnapshot rt sessionId nonce s named version
  | .getBundlePromptSections named version =>
    OwnSnapshot rt sessionId nonce s named ((s.versionId version).getD "")
  | _ => True

theorem getSections_confined (caller : SpineCaller) (hnonce : caller.nonce = nonce)
    (named : String) (version : Option String) (s : rt.State) :
    Confined (sessionView sessionId)
        (fun s => (answer (spineGetBundlePromptSections rt caller named version s).1,
          (spineGetBundlePromptSections rt caller named version s).2)) s ↔
      OwnSnapshot rt sessionId nonce s named ((s.versionId version).getD "") := by
  subst hnonce
  refine (confined_withSpineBudget answer _ _ _).trans (or_congr Iff.rfl ?_)
  -- the version is the same in every state that looks the same
  have hversions : ∀ s', SpineState.SameFor sessionId (s.count caller.nonce .inspection) s' →
      s'.versionId version = s.versionId version := by
    intro s' hs
    unfold SpineState.versionId
    rw [← hs.activeBundleVersionId]
    rfl
  have hself := SpineState.sameFor_refl sessionId (s.count caller.nonce .inspection)
  cases hversion : s.versionId version with
  | none =>
    refine iff_of_true ?_ (Or.inl rfl)
    refine (confined_congr hself (g := fun s => (answer (.ok (.sections [])), s))
      fun s' hs => ?_).mpr (confined_read fun _ _ => rfl)
    simp only [hversions s' hs, hversion]
  | some found =>
    have hfound : found ≠ "" :=
      of_decide_eq_true (Option.filter_eq_some_iff.mp hversion).2
    refine Iff.trans (confined_congr hself (g := fun s => (answer (.ok (.sections
      (sectionsOf (.value (s.kvStore.get (snapshotKey named found)))))), s))
      fun s' hs => ?_) ((get_confined _).trans (or_iff_right hfound).symm)
    simp only [hversions s' hs, hversion]
    rfl

/-- A call with a token for a session is confined to that session exactly when a session id in its
arguments leads to none but the token's own snapshots, and what the hooks broadcast stays there. -/
theorem call_confined_iff (aid : String) (method : SessionMethod) (s : rt.State) :
    Confined (sessionView sessionId) (method.call rt now ⟨aid, some sessionId, nonce⟩) s ↔
      StaysInSession rt sessionId nonce now s method := by
  cases method with
  | appendEntry entry =>
    refine iff_of_true ?_ trivial
    exact (confined_withSpineBudget answer _ _ _).mpr
      (Or.inr (confined_map answer (appendEntry_confined now entry)))
  | getEntries =>
    refine iff_of_true ?_ trivial
    exact (confined_withSpineBudget answer _ _ _).mpr (Or.inr (confined_map answer
      (entries_confined (fun store => .ok (.entries (store.getEntries sessionId)))
        fun a b h => by rw [getEntries_congr h])))
  | getSession =>
    refine iff_of_true ?_ trivial
    exact (confined_withSpineBudget answer _ _ _).mpr (Or.inr (confined_map answer
      (entries_confined (fun store => .ok (.session (store.get sessionId)))
        fun a b h => by rw [get_congr h])))
  | buildContext =>
    refine iff_of_true ?_ trivial
    refine (confined_withSpineBudget answer _ _ _).mpr (Or.inr (confined_map answer
      (confined_read fun s' hs => ?_)))
    have hread := buildContext_congr hs.hooks.sessionStore.data now
    simp only [SpineCaller.sessionId, Option.getD_some] at hread ⊢
    rw [hread]
  | getCompactionCheckpoint =>
    refine iff_of_true ?_ trivial
    exact (confined_withSpineBudget answer _ _ _).mpr (Or.inr (confined_map answer
      (entries_confined (fun store =>
          .ok (.checkpoint (lastCompaction (store.getEntries sessionId))))
        fun a b h => by rw [getEntries_congr h])))
  | broadcast event =>
    refine iff_of_true ?_ trivial
    exact (confined_withSpineBudget answer _ _ _).mpr
      (Or.inr (confined_map answer (broadcastToSession_confined _)))
  | emitCost costEvent =>
    refine iff_of_true ?_ trivial
    exact (confined_withSpineBudget answer _ _ _).mpr
      (Or.inr (confined_map answer (handleCostEvent_confined now costEvent)))
  | recordToolExecution event =>
    exact (confined_withSpineBudget answer _ _ _).trans (or_congr Iff.rfl
      (bridgeHooks_confined answer (runHooks_confined rt.nanoid_injective now _ _ _) _))
  | processBeforeInference messages =>
    exact (confined_withSpineBudget answer _ _ _).trans (or_congr Iff.rfl
      (bridgeHooks_confined answer (runHooks_confined rt.nanoid_injective now _ _ _) _))
  | processBeforeToolExecution event =>
    exact (confined_withSpineBudget answer _ _ _).trans (or_congr Iff.rfl
      (bridgeHooks_confined answer (runHooks_confined rt.nanoid_injective now _ _ _) _))
  | recordPromptSections named sections version =>
    refine (confined_withSpineBudget answer _ _ _).trans (or_congr Iff.rfl ?_)
    by_cases hversion : version = ""
    · simp only [if_pos hversion]
      exact iff_of_true (confined_read fun _ _ => rfl) (Or.inl hversion)
    · simp only [if_neg hversion]
      exact (put_confined _ (snapshotKey named version) sections).trans (or_iff_right hversion).symm
  | getBundlePromptSections named version =>
    exact getSections_confined rt sessionId nonce ⟨aid, some sessionId, nonce⟩ rfl named version s

end Calls

/-- A capability that tells the clients of the session about every tool call. -/
def announcer : Capability Unit where
  id := "announcer"
  afterToolExecution := some fun event _ =>
    .broadcastState "ran" (.str event.toolName) none (.returns ())

def announcingHost : SpineRuntime Unit where
  spineBudget := {}
  capabilities := [announcer]
  nanoid n := String.ofList (List.replicate n 'a')
  nanoid_injective := ofList_replicate_injective

/-- Nothing is stored, nobody is connected, and the capabilities were resolved for `s2`. -/
def quietState : announcingHost.State where
  sessionStore := ⟨{}, 0, fun _ h => nomatch h⟩
  memory := ()
  kvStore := .empty
  transport := ⟨.initial, List.nodup_nil⟩
  counters _ _ := 0
  activeBundleVersionId := none
  resolvedFor := some "s2"

/-- With a token for `s1`, the snapshot of `s2` is read, and the clients of `s2` are told of a tool
call. -/
theorem calls_leave_session :
    ¬Confined (sessionView "s1")
        ((SessionMethod.getBundlePromptSections "s2" (some "v1")).call announcingHost 0
          ⟨"agent", some "s1", "n"⟩) quietState ∧
      ¬Confined (sessionView "s1")
        ((SessionMethod.recordToolExecution ⟨"bash", .null, false⟩).call announcingHost 0
          ⟨"agent", some "s1", "n"⟩) quietState := by
  have hkey : ¬PrivateTo "s1" (snapshotKey "s2" "v1") := by
    intro h
    have heq := eq_of_privateTo h
    contradiction
  constructor
  · intro h
    rcases (getSections_confined announcingHost "s1" "n" _ rfl _ _ _).mp h with
      hexhausted | hversion | hprivate
    · contradiction
    · contradiction
    · exact hkey hprivate
  · intro h
    rcases (confined_withSpineBudget answer _ _ _).mp h with hexhausted | hconfined
    · contradiction
    · have hstays := (bridgeHooks_confined answer
        (runHooks_confined announcingHost.nanoid_injective 0 _ _ _) _).mp hconfined
      have heq := (hstays _ List.mem_cons_self).2.1
      contradiction

end CrabbyKit.Spine
