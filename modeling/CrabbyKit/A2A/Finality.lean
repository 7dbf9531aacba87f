import CrabbyKit.A2A.Server

/-!
# Final task states

A task in a terminal state stays in it exactly as long as no prompt settles behind a finished
cancel of its task, and no cancel is finished behind a settled prompt.
-/

namespace CrabbyKit.A2A

open List Option

namespace ServerState

def stateOf (s : ServerState) (taskId : String) : Option TaskState := s.taskStore.stateOf taskId

def TerminalKept (s s' : ServerState) : Prop :=
  ∀ taskId state, s.stateOf taskId = some state → isTerminalState state = true →
    s'.stateOf taskId = some state

/-- What was reported canceled to its canceller is not reported completed or failed later. -/
def CancelFinal (s : ServerState) : Prop :=
  s.reports.Pairwise fun first later =>
    first.channel = .cancelResponse → first.state = .canceled → later.taskId = first.taskId →
      later.state ≠ .completed ∧ later.state ≠ .failed

def SettledTerminal (s : ServerState) : Prop :=
  ∀ taskId ∈ s.settled, ∃ state, s.stateOf taskId = some state ∧ isTerminalState state = true

/-- What a step keeps of terminal states and of what was said about them. -/
def StepFinal (s : ServerState) (label : ServerLabel) : Prop :=
  s.TerminalKept (s.step label) ∧ (s.step label).CancelFinal ∧ (s.step label).SettledTerminal

/-- No prompt settles behind a finished cancel, and no cancel is finished behind a settled prompt.
-/
def Clear (s : ServerState) : ServerLabel → Prop
  | .settle taskId _ _ => (s.promptOf taskId).isSome → s.stateOf taskId ≠ some .canceled
  | .finishCancel taskId _ => taskId ∈ s.cancels → taskId ∉ s.settled
  | _ => True

end ServerState

open ServerState

variable {s s' : ServerState} {taskId : String} {state : TaskState} {now : Instant}

/-- One task has a new state, and only that is made known. -/
structure Wrote (taskId : String) (state : TaskState) (s s' : ServerState) : Prop where
  keyed : s.taskStore.Keyed → s'.taskStore.Keyed
  states : ∀ id, s'.stateOf id = if id = taskId then some state else s.stateOf id
  reports : ∃ new, s'.reports = s.reports ++ new ∧
    ∀ r ∈ new, r.taskId = taskId ∧ r.state = state ∧
      (r.channel = .cancelResponse → state = .canceled)

/-- The tasks are left alone, and made known by no answer to a canceller. -/
structure Read (s s' : ServerState) : Prop where
  store : s'.taskStore = s.taskStore
  reports : ∃ new, s'.reports = s.reports ++ new ∧
    ∀ r ∈ new, s.stateOf r.taskId = some r.state ∧ r.channel ≠ .cancelResponse

variable {store : TaskStore} {channel : Channel}

theorem shown_toList {r : Report}
    (h : r ∈ (store.get taskId).toList.map fun task =>
      (⟨channel, task.id, task.status.state⟩ : Report)) :
    r.taskId = taskId ∧ r.channel = channel ∧ store.stateOf taskId = some r.state := by
  obtain ⟨task, htask, rfl⟩ := List.mem_map.mp h
  obtain ⟨hstate, hid⟩ := TaskStore.stateOf_get (mem_toList.mp htask)
  exact ⟨hid, rfl, hstate⟩

theorem shown_known (hstate : store.stateOf taskId = some state) {r : Report}
    (h : r ∈ (store.get taskId).toList.map fun task =>
      (⟨channel, task.id, task.status.state⟩ : Report)) :
    r.taskId = taskId ∧ r.state = state ∧ r.channel = channel := by
  obtain ⟨hid, hchannel, hshown⟩ := shown_toList h
  exact ⟨hid, Option.some.inj (hshown.symm.trans hstate), hchannel⟩

/-- A new task, in the state in which the first part of its request leaves it. -/
structure Created (taskId : String) (state : TaskState) (s s' : ServerState) : Prop
    extends Wrote taskId state s s' where
  fresh : s.stateOf taskId = none
  prompts : ∀ call ∈ s'.prompts, call ∈ s.prompts ∨ call.taskId = taskId ∧ state = .working
  cancels : s'.cancels = s.cancels
  settled : s'.settled = s.settled

theorem createTask_states {params : MessageSendParams}
    (h : createTask s taskId params now = some s') :
    s.stateOf taskId = none ∧ ∃ store : TaskStore, s' = { s with taskStore := store } ∧
      (s.taskStore.Keyed → store.Keyed) ∧
      ∀ id, store.stateOf id = if id = taskId then some .submitted else s.stateOf id := by
  unfold createTask at h
  simp only at h
  split at h
  · cases h
  · rename_i taskStore hcreate
    obtain rfl := Option.some.inj h
    have hfresh : s.stateOf taskId = none := by
      unfold ServerState.stateOf TaskStore.stateOf
      rw [(TaskStore.create_eq_some hcreate).1]
      rfl
    refine ⟨hfresh, _, rfl, ?_⟩
    have hkeyed := fun h => TaskStore.keyed_create hcreate h
    have hstates := TaskStore.stateOf_create hcreate
    cases params.configuration.bind MessageSendConfiguration.pushNotificationConfig with
    | none => exact ⟨hkeyed, hstates⟩
    | some config => exact ⟨hkeyed, hstates⟩

theorem Created.answered (h : Created taskId state s s') (hreports : s'.reports = s.reports)
    (stream : Bool) : Created taskId state s (s'.answer stream (s'.taskStore.get taskId)) := by
  cases stream with
  | true => exact h
  | false =>
    refine ⟨⟨h.keyed, h.states, _, congrArg (· ++ _) hreports, fun r hr => ?_⟩, h.fresh, h.prompts,
      h.cancels, h.settled⟩
    obtain ⟨hid, hstate, hchannel⟩ := shown_known ((h.states taskId).trans (if_pos rfl)) hr
    refine ⟨hid, hstate, fun hcancel => ?_⟩
    rw [hchannel] at hcancel
    cases hcancel

theorem message_created (stream : Bool) (s : ServerState) (params : MessageSendParams)
    (taskNanoid sessionNanoid : String) (now : Instant) :
    s.step (.message stream params taskNanoid sessionNanoid now) = s ∨
      ∃ state, Created taskNanoid state s
        (s.step (.message stream params taskNanoid sessionNanoid now)) := by
  change afterMessage stream s (handleMessage stream s params taskNanoid sessionNanoid now) = s ∨
    ∃ state, Created taskNanoid state s
      (afterMessage stream s (handleMessage stream s params taskNanoid sessionNanoid now))
  obtain ⟨e, he⟩ | ⟨created, hcreated, hok⟩ :=
    handleMessage_cases stream s params taskNanoid sessionNanoid now
  · left
    rw [he]
    rfl
  right
  rw [hok]
  obtain ⟨hfresh, store, rfl, hkeyed, hstates⟩ := createTask_states hcreated
  have hwritten : ∀ status id, (store.updateStatus taskNanoid status now).stateOf id =
      if id = taskNanoid then some status.state else s.stateOf id := by
    intro status id
    have hknown : store.stateOf taskNanoid ≠ none := by
      rw [hstates, if_pos rfl]
      exact some_ne_none _
    rw [TaskStore.stateOf_updateStatus_known hknown, hstates]
    split <;> rfl
  have hupdated : ∀ status : TaskStatus, s.taskStore.Keyed →
      (store.updateStatus taskNanoid status now).Keyed :=
    fun _ h => TaskStore.keyed_updateStatus (hkeyed h) _ _ _
  have hnew : s.reports = s.reports ++ [] := (append_nil _).symm
  have hnone : ∀ state, ∀ r ∈ ([] : List Report), r.taskId = taskNanoid ∧ r.state = state ∧
      (r.channel = .cancelResponse → state = .canceled) :=
    fun _ r hr => absurd hr not_mem_nil
  cases htext : SessionStore.truthy (extractText params.message) with
  | none =>
    rw [execute_no_text htext]
    have hfailed : Created taskNanoid .failed s
        { s with
          taskStore := store.updateStatus taskNanoid
            (failedStatus taskNanoid "Message contained no text content" now) now } :=
      ⟨⟨hupdated _, hwritten _, [], hnew, hnone _⟩, hfresh, fun call hcall => Or.inl hcall, rfl,
        rfl⟩
    exact ⟨.failed, hfailed.answered rfl stream⟩
  | some text =>
    cases hsession : resolveSession { s with taskStore := store }
        (contextOf taskNanoid params.message) text sessionNanoid now with
    | error e =>
      rw [execute_threw htext hsession]
      exact ⟨.submitted, ⟨hkeyed, hstates, [], hnew, hnone _⟩, hfresh,
        fun call hcall => Or.inl hcall, rfl,
        rfl⟩
    | ok resolved =>
      rw [execute_prompts htext hsession]
      have hrunning : ∀ call : PromptCall, call.taskId = taskNanoid →
          Created taskNanoid .working s
            { s with
              taskStore := store.updateStatus taskNanoid { state := .working, timestamp := now } now
              sessionStore := resolved.1
              prompts := s.prompts ++ [call]
              ran := s.ran ++ [call] } := by
        intro call hcall
        refine ⟨⟨hupdated _, hwritten _, [], hnew, hnone _⟩, hfresh, fun other hother => ?_, rfl,
          rfl⟩
        rcases mem_append.mp hother with hold | hlast
        · exact Or.inl hold
        · rw [mem_singleton.mp hlast]
          exact Or.inr ⟨hcall, rfl⟩
      simp only [afterMessage]
      cases (params.configuration.bind MessageSendConfiguration.blocking).getD true with
      | true => exact ⟨.working, hrunning _ rfl⟩
      | false =>
        simp only [Bool.false_eq_true, if_false]
        exact ⟨.working, (hrunning _ rfl).answered rfl stream⟩

/-- What is known of the tasks as long as no terminal state is given up. -/
structure Consistent (s : ServerState) : Prop where
  keyed : s.taskStore.Keyed
  prompts : ∀ call ∈ s.prompts,
    s.stateOf call.taskId = some .working ∨ s.stateOf call.taskId = some .canceled
  unsettled : ∀ call ∈ s.prompts, call.taskId ∉ s.settled
  settled : ∀ id ∈ s.settled, s.stateOf id = some .completed ∨ s.stateOf id = some .failed
  cancels : ∀ id ∈ s.cancels, id ∈ s.settled ∨
    ∃ state, s.stateOf id = some state ∧ (isTerminalState state = true → state = .canceled)
  reported : ∀ r ∈ s.reports, r.channel = .cancelResponse → s.stateOf r.taskId = some .canceled
  final : s.CancelFinal

/-- The write hits no task that is terminal in another state. -/
def Misses (s : ServerState) (taskId : String) (state : TaskState) : Prop :=
  ∀ old, s.stateOf taskId = some old → isTerminalState old = true → old = state

theorem Wrote.terminalKept (h : Wrote taskId state s s') (hmisses : Misses s taskId state) :
    s.TerminalKept s' := by
  intro id old hold hterminal
  rw [h.states]
  split
  · rename_i hid
    rw [hid] at hold
    rw [hmisses old hold hterminal]
  · exact hold

theorem Wrote.reported (h : Wrote taskId state s s') (hmisses : Misses s taskId state)
    (hs : Consistent s) :
    ∀ r ∈ s'.reports, r.channel = .cancelResponse → s'.stateOf r.taskId = some .canceled := by
  obtain ⟨new, hreports, habout⟩ := h.reports
  intro r hr hchannel
  rw [hreports] at hr
  rcases mem_append.mp hr with hold | hnew
  · exact h.terminalKept hmisses _ _ (hs.reported r hold hchannel) rfl
  · obtain ⟨hid, -, hcancel⟩ := habout r hnew
    rw [h.states, if_pos hid, hcancel hchannel]

theorem Wrote.cancelFinal (h : Wrote taskId state s s') (hmisses : Misses s taskId state)
    (hs : Consistent s) : s'.CancelFinal := by
  obtain ⟨new, hreports, habout⟩ := h.reports
  have hnever : ∀ r ∈ new, state = .canceled → r.state ≠ .completed ∧ r.state ≠ .failed := by
    intro r hr hcanceled
    rw [(habout r hr).2.1, hcanceled]
    decide
  unfold CancelFinal
  rw [hreports]
  refine pairwise_append.mpr ⟨hs.final, pairwise_of_forall_mem_list ?_, ?_⟩
  · intro first hfirst later hlater hchannel _ _
    exact hnever later hlater ((habout first hfirst).2.2 hchannel)
  · intro first hfirst later hlater hchannel _ hid
    have hcanceled := hs.reported first hfirst hchannel
    rw [← hid, (habout later hlater).1] at hcanceled
    exact hnever later hlater (hmisses _ hcanceled rfl).symm

theorem Read.states (h : Read s s') (id : String) : s'.stateOf id = s.stateOf id := by
  unfold ServerState.stateOf
  rw [h.store]

theorem Read.terminalKept (h : Read s s') : s.TerminalKept s' := by
  intro id old hold _
  rw [h.states]
  exact hold

theorem Read.consistent (h : Read s s') (hprompts : s'.prompts = s.prompts)
    (hcancels : s'.cancels = s.cancels) (hsettled : s'.settled = s.settled) (hs : Consistent s) :
    Consistent s' := by
  obtain ⟨new, hreports, habout⟩ := h.reports
  refine ⟨?_, ?_, ?_, ?_, ?_, ?_, ?_⟩
  · rw [h.store]
    exact hs.keyed
  · intro call hcall
    rw [hprompts] at hcall
    simp only [h.states]
    exact hs.prompts call hcall
  · intro call hcall
    rw [hprompts] at hcall
    rw [hsettled]
    exact hs.unsettled call hcall
  · intro id hid
    rw [hsettled] at hid
    simp only [h.states]
    exact hs.settled id hid
  · intro id hid
    rw [hcancels] at hid
    simp only [h.states, hsettled]
    exact hs.cancels id hid
  · intro r hr hchannel
    rw [hreports] at hr
    rw [h.states]
    rcases mem_append.mp hr with hold | hnew
    · exact hs.reported r hold hchannel
    · exact absurd hchannel (habout r hnew).2
  · unfold CancelFinal
    rw [hreports]
    refine pairwise_append.mpr ⟨hs.final, pairwise_of_forall_mem_list ?_, ?_⟩
    · intro first hfirst _ _ hchannel
      exact absurd hchannel (habout first hfirst).2
    · intro first hfirst later hlater hchannel _ hid
      have hstate := hs.reported first hfirst hchannel
      rw [← hid, (habout later hlater).1] at hstate
      rw [Option.some.inj hstate]
      decide

theorem Consistent.settledTerminal (hs : Consistent s) : s.SettledTerminal := by
  intro id hid
  rcases hs.settled id hid with hstate | hstate
  · exact ⟨_, hstate, rfl⟩
  · exact ⟨_, hstate, rfl⟩

theorem step_getTask_read (s : ServerState) (taskId : String) :
    Read s (s.step (.getTask taskId)) := by
  refine ⟨rfl, _, rfl, fun r hr => ?_⟩
  obtain ⟨hid, hchannel, hshown⟩ := shown_toList hr
  refine ⟨by rw [hid]; exact hshown, ?_⟩
  rw [hchannel]
  decide

theorem step_listTasks_read (hkeyed : s.taskStore.Keyed) (contextId : Option String)
    (limit offset : Option Nat) : Read s (s.step (.listTasks contextId limit offset)) := by
  refine ⟨rfl, _, rfl, fun r hr => ?_⟩
  obtain ⟨task, htask, rfl⟩ := List.mem_map.mp hr
  exact ⟨TaskStore.stateOf_list hkeyed htask, by simp⟩

section Settle

variable {call : PromptCall} {outcome : Except String String}

theorem settledReports_about {events : List BusEvent} {config : Option PushNotificationConfig}
    {r : Report} (h : r ∈ settledReports call state events config) :
    r.taskId = call.taskId ∧ r.state = state ∧ r.channel ≠ .cancelResponse := by
  rcases mem_append.mp h with hstream | hpush
  · split at hstream
    · obtain ⟨event, -, hr⟩ := mem_filterMap.mp hstream
      split at hr
      · obtain rfl := Option.some.inj hr
        exact ⟨rfl, rfl, by simp⟩
      · cases hr
    · exact absurd hstream not_mem_nil
  · split at hpush
    · exact absurd hpush not_mem_nil
    · obtain ⟨_, -, rfl⟩ := List.mem_map.mp hpush
      exact ⟨rfl, rfl, by simp⟩

theorem settle_wrote (hknown : s.stateOf call.taskId ≠ none) :
    Wrote call.taskId (settledStatus call outcome now).state s (settle s call outcome now).1 := by
  have hstates := TaskStore.stateOf_updateStatus_known hknown (settledStatus call outcome now) now
  refine ⟨fun h => ?_, fun id => ?_, ?_⟩
  · rw [settle_taskStore]
    exact TaskStore.keyed_updateStatus h _ _ _
  · unfold ServerState.stateOf
    rw [settle_taskStore]
    exact hstates id
  · unfold settle
    simp only
    split
    · unfold ServerState.answer
      split
      · refine ⟨_, rfl, fun r hr => ?_⟩
        obtain ⟨hid, hstate, hchannel⟩ := settledReports_about hr
        exact ⟨hid, hstate, fun hcancel => absurd hcancel hchannel⟩
      · refine ⟨_, append_assoc _ _ _, fun r hr => ?_⟩
        rcases mem_append.mp hr with hsettled | hanswer
        · obtain ⟨hid, hstate, hchannel⟩ := settledReports_about hsettled
          exact ⟨hid, hstate, fun hcancel => absurd hcancel hchannel⟩
        · obtain ⟨hid, hstate, hchannel⟩ :=
            shown_known ((hstates call.taskId).trans (if_pos rfl)) hanswer
          refine ⟨hid, hstate, fun hcancel => ?_⟩
          rw [hchannel] at hcancel
          cases hcancel
    · refine ⟨_, rfl, fun r hr => ?_⟩
      obtain ⟨hid, hstate, hchannel⟩ := settledReports_about hr
      exact ⟨hid, hstate, fun hcancel => absurd hcancel hchannel⟩

end Settle

theorem finishCancel_wrote (hknown : s.stateOf taskId ≠ none) (now : Instant) :
    Wrote taskId .canceled s (finishCancel s taskId now) := by
  have hstates := TaskStore.stateOf_updateStatus_known hknown
    { state := .canceled, timestamp := now } now
  refine ⟨fun h => TaskStore.keyed_updateStatus h _ _ _, hstates, _, rfl, fun r hr => ?_⟩
  obtain ⟨hid, hstate, -⟩ := shown_known ((hstates taskId).trans (if_pos rfl)) hr
  exact ⟨hid, hstate, fun _ => rfl⟩

theorem cancelGoesOn_state {isStreaming : Option (String → Bool)}
    (h : cancelGoesOn s taskId isStreaming = true) :
    ∃ state, s.stateOf taskId = some state ∧ isTerminalState state = false := by
  unfold cancelGoesOn at h
  split at h
  · rename_i htask _
    obtain ⟨hstate, -⟩ := TaskStore.stateOf_get htask
    simp only [Bool.and_eq_true, Bool.not_eq_true'] at h
    exact ⟨_, hstate, h.1.1.2⟩
  · exact absurd h Bool.false_ne_true

theorem Wrote.states_ne (h : Wrote taskId state s s') {id : String} (hid : id ≠ taskId) :
    s'.stateOf id = s.stateOf id := by
  rw [h.states, if_neg hid]

theorem consistent_created (h : Created taskId state s s') (hs : Consistent s) :
    Consistent s' ∧ s.TerminalKept s' := by
  have hmisses : Misses s taskId state := by
    intro old hold
    rw [h.fresh] at hold
    cases hold
  -- what the store knew is not the new task
  have hkept : ∀ {id old}, s.stateOf id = some old → s'.stateOf id = some old := by
    intro id old hold
    refine (h.states_ne fun hid => ?_).trans hold
    rw [hid, h.fresh] at hold
    cases hold
  refine ⟨⟨h.keyed hs.keyed, fun call hcall => ?_, fun call hcall => ?_, fun id hid => ?_,
    fun id hid => ?_, h.reported hmisses hs, h.cancelFinal hmisses hs⟩, h.terminalKept hmisses⟩
  · rcases h.prompts call hcall with hold | ⟨hnew, hworking⟩
    · exact (hs.prompts call hold).imp hkept hkept
    · left
      rw [h.states, if_pos hnew, hworking]
  · rw [h.settled]
    rcases h.prompts call hcall with hold | ⟨hnew, -⟩
    · exact hs.unsettled call hold
    · intro hsettled
      rw [hnew] at hsettled
      rcases hs.settled _ hsettled with hstate | hstate
      · rw [h.fresh] at hstate
        cases hstate
      · rw [h.fresh] at hstate
        cases hstate
  · rw [h.settled] at hid
    exact (hs.settled id hid).imp hkept hkept
  · rw [h.cancels] at hid
    rw [h.settled]
    exact (hs.cancels id hid).imp_right fun ⟨state, hstate, hopen⟩ => ⟨state, hkept hstate, hopen⟩

/-- A settled prompt writes `completed` or `failed`. -/
theorem settledStatus_state (call : PromptCall) (outcome : Except String String) (now : Instant) :
    (settledStatus call outcome now).state = .completed ∨
      (settledStatus call outcome now).state = .failed := by
  cases outcome with
  | ok response => exact Or.inl rfl
  | error message => exact Or.inr rfl

variable {call : PromptCall}

theorem consistent_settle (hcall : call ∈ s.prompts)
    (hclear : s.stateOf call.taskId ≠ some .canceled) (outcome : Except String String)
    (now : Instant) (hs : Consistent s) :
    Consistent (settle s call outcome now).1 ∧ s.TerminalKept (settle s call outcome now).1 := by
  have hworking := (hs.prompts call hcall).resolve_right hclear
  have hwrote : Wrote call.taskId _ s (settle s call outcome now).1 :=
    settle_wrote (by rw [hworking]; exact some_ne_none _)
  have hmisses : Misses s call.taskId (settledStatus call outcome now).state := by
    intro old hold hterminal
    rw [hworking] at hold
    obtain rfl := Option.some.inj hold
    exact absurd hterminal Bool.false_ne_true
  refine ⟨⟨hwrote.keyed hs.keyed, fun other hother => ?_, fun other hother => ?_, fun id hid => ?_,
    fun id hid => ?_, hwrote.reported hmisses hs, hwrote.cancelFinal hmisses hs⟩,
    hwrote.terminalKept hmisses⟩
  · rw [settle_prompts] at hother
    obtain ⟨hold, hne⟩ := mem_filter.mp hother
    rw [hwrote.states_ne (of_decide_eq_true hne)]
    exact hs.prompts other hold
  · rw [settle_prompts] at hother
    obtain ⟨hold, hne⟩ := mem_filter.mp hother
    rw [settle_settled, mem_append, mem_singleton]
    exact not_or.mpr ⟨hs.unsettled other hold, of_decide_eq_true hne⟩
  · rw [hwrote.states]
    split
    · exact (settledStatus_state call outcome now).imp (congrArg some) (congrArg some)
    · rename_i hne
      rw [settle_settled] at hid
      rcases mem_append.mp hid with hold | hnew
      · exact hs.settled id hold
      · exact absurd (mem_singleton.mp hnew) hne
  · rw [settle_cancels] at hid
    by_cases heq : id = call.taskId
    · left
      rw [settle_settled, heq]
      exact mem_concat_self
    · rw [hwrote.states_ne heq, settle_settled]
      exact (hs.cancels id hid).imp_left fun hold => mem_append_left _ hold

theorem consistent_finishCancel (hcancel : taskId ∈ s.cancels) (hclear : taskId ∉ s.settled)
    (now : Instant) (hs : Consistent s) :
    Consistent (finishCancel s taskId now) ∧ s.TerminalKept (finishCancel s taskId now) := by
  obtain ⟨state, hstate, hopen⟩ := (hs.cancels taskId hcancel).resolve_left hclear
  have hwrote : Wrote taskId .canceled s (finishCancel s taskId now) :=
    finishCancel_wrote (by rw [hstate]; exact some_ne_none _) now
  have hmisses : Misses s taskId .canceled := by
    intro old hold hterminal
    rw [hstate] at hold
    obtain rfl := Option.some.inj hold
    exact hopen hterminal
  refine ⟨⟨hwrote.keyed hs.keyed, fun call hcall => ?_, hs.unsettled, fun id hid => ?_,
    fun id hid => ?_, hwrote.reported hmisses hs, hwrote.cancelFinal hmisses hs⟩,
    hwrote.terminalKept hmisses⟩
  · rw [hwrote.states]
    split
    · exact Or.inr rfl
    · exact hs.prompts call hcall
  · rw [hwrote.states_ne fun heq => hclear (heq ▸ hid)]
    exact hs.settled id hid
  · rw [hwrote.states]
    split
    · exact Or.inr ⟨_, rfl, fun _ => rfl⟩
    · exact hs.cancels id (mem_of_mem_erase hid)

theorem consistent_cancel (isStreaming : Option (String → Bool)) (hs : Consistent s) :
    Consistent (s.step (.cancel taskId isStreaming)) ∧
      s.TerminalKept (s.step (.cancel taskId isStreaming)) := by
  change Consistent (if cancelGoesOn s taskId isStreaming then _ else s) ∧
    s.TerminalKept (if cancelGoesOn s taskId isStreaming then _ else s)
  split
  · rename_i hgoesOn
    obtain ⟨state, hstate, hopen⟩ := cancelGoesOn_state hgoesOn
    refine ⟨{ hs with cancels := fun id hid => ?_ }, fun _ _ h _ => h⟩
    rcases mem_append.mp hid with hold | hnew
    · exact hs.cancels id hold
    · rw [mem_singleton.mp hnew]
      refine Or.inr ⟨state, hstate, fun hterminal => ?_⟩
      rw [hopen] at hterminal
      cases hterminal
  · exact ⟨hs, fun _ _ h _ => h⟩

theorem promptOf_spec (h : s.promptOf taskId = some call) :
    call ∈ s.prompts ∧ call.taskId = taskId :=
  ⟨mem_of_find?_eq_some h, by simpa using find?_some h⟩

variable {label : ServerLabel}

theorem consistent_step (hclear : s.Clear label) (hs : Consistent s) :
    Consistent (s.step label) ∧ s.TerminalKept (s.step label) := by
  have hread : ∀ {s' : ServerState}, Read s s' → s'.prompts = s.prompts →
      s'.cancels = s.cancels → s'.settled = s.settled →
      Consistent s' ∧ s.TerminalKept s' := by
    intro s' h hprompts hcancels hsettled
    exact ⟨h.consistent hprompts hcancels hsettled hs, h.terminalKept⟩
  have hsame : Consistent s ∧ s.TerminalKept s := ⟨hs, fun _ _ h _ => h⟩
  cases label with
  | message stream params taskNanoid sessionNanoid now =>
    obtain hnothing | ⟨state, hcreated⟩ :=
      message_created stream s params taskNanoid sessionNanoid now
    · rw [hnothing]
      exact hsame
    · exact consistent_created hcreated hs
  | settle taskId outcome now =>
    cases hcall : s.promptOf taskId with
    | none =>
      rw [ServerState.step_settle_none hcall]
      exact hsame
    | some call =>
      rw [ServerState.step_settle_some hcall]
      obtain ⟨hmem, hid⟩ := promptOf_spec hcall
      refine consistent_settle hmem ?_ outcome now hs
      rw [hid]
      exact hclear (by rw [hcall]; rfl)
  | getTask taskId => exact hread (step_getTask_read s taskId) rfl rfl rfl
  | listTasks contextId limit offset =>
    exact hread (step_listTasks_read hs.keyed contextId limit offset) rfl rfl rfl
  | cancel taskId isStreaming => exact consistent_cancel isStreaming hs
  | finishCancel taskId now =>
    change Consistent (if taskId ∈ s.cancels then finishCancel s taskId now else s) ∧
      s.TerminalKept (if taskId ∈ s.cancels then finishCancel s taskId now else s)
    split
    · rename_i hcancel
      exact consistent_finishCancel hcancel (hclear hcancel) now hs
    · exact hsame
  | createSession opts nanoid now =>
    obtain ⟨sessionStore, hstep⟩ := s.step_createSession opts nanoid now
    rw [hstep]
    exact ⟨{ hs with }, fun _ _ h _ => h⟩
  | deleteSession sessionId => exact ⟨{ hs with }, fun _ _ h _ => h⟩

theorem clear_of_kept (hs : Consistent s)
    (hkept : s.TerminalKept (s.step label)) : s.Clear label := by
  cases label with
  | settle taskId outcome now =>
    intro hpending hcanceled
    obtain ⟨call, hcall⟩ := isSome_iff_exists.mp hpending
    obtain ⟨hmem, rfl⟩ := promptOf_spec hcall
    have hafter : (s.step (.settle call.taskId outcome now)).stateOf call.taskId =
        some .canceled := hkept _ _ hcanceled rfl
    have hstep := ServerState.step_settle_some hcall outcome now
    have hwrote : Wrote call.taskId _ s (settle s call outcome now).1 :=
      settle_wrote (by rw [hcanceled]; exact some_ne_none _)
    rw [hstep, hwrote.states, if_pos rfl] at hafter
    rcases settledStatus_state call outcome now with h | h
    · rw [h] at hafter
      cases hafter
    · rw [h] at hafter
      cases hafter
  | finishCancel taskId now =>
    intro hcancel hsettled
    have hstep : s.step (.finishCancel taskId now) = finishCancel s taskId now := if_pos hcancel
    rw [hstep] at hkept
    rcases hs.settled taskId hsettled with hstate | hstate
    · have hwrote := finishCancel_wrote (by rw [hstate]; exact some_ne_none _) now
      have hafter := hkept _ _ hstate rfl
      rw [hwrote.states, if_pos rfl] at hafter
      cases hafter
    · have hwrote := finishCancel_wrote (by rw [hstate]; exact some_ne_none _) now
      have hafter := hkept _ _ hstate rfl
      rw [hwrote.states, if_pos rfl] at hafter
      cases hafter
  | _ => trivial

theorem consistent_start : Consistent {} where
  keyed := nodup_nil
  prompts _ h := absurd h not_mem_nil
  unsettled _ h := absurd h not_mem_nil
  settled _ h := absurd h not_mem_nil
  cancels _ h := absurd h not_mem_nil
  reported _ h := absurd h not_mem_nil
  final := List.Pairwise.nil

def canceledRun : List ServerLabel :=
  [.message false
    { message := { messageId := "m", role := .user, parts := [.text "report"] }
      configuration := some { blocking := some false } } "task" "session" 0,
    .cancel "task" (some fun _ => true), .finishCancel "task" 1]

end CrabbyKit.A2A
