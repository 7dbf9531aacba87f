import CrabbyKit.A2A.Delegation
import CrabbyKit.A2A.Stream

/-!
# The results of delegated tasks

Each task goes its own way through the protocol: nothing that happens to one changes what is known
of another. The result of a started task is injected exactly once as long as no notification
overtakes its record, no two operations finish the same task, and no record is written back after
its deletion.
-/

namespace CrabbyKit.A2A

open ServerState List Option Function

/-- What the other agent has of a task. -/
structure RemoteView where
  state : Option TaskState
  prompt : Option PromptCall
  push : Option PushNotificationConfig

def ServerState.remoteView (s : ServerState) (taskId : String) : RemoteView where
  state := s.stateOf taskId
  prompt := s.promptOf taskId
  push := s.taskStore.getPushConfig taskId

section Remote

variable {s : ServerState} {taskId : String} {now : Instant}

theorem promptOf_append (s : ServerState) (call : PromptCall) (taskId : String) :
    ({ s with prompts := s.prompts ++ [call] } : ServerState).promptOf taskId =
      (s.promptOf taskId).or (if call.taskId = taskId then some call else none) :=
  Table.lookup_concat _ _ _

theorem settle_remoteView {call : PromptCall} (hcall : s.promptOf taskId = some call)
    (outcome : Except String String) (now : Instant) (id : String) :
    (settle s call outcome now).1.remoteView id =
      if id = taskId then
        { s.remoteView taskId with
          state := (s.stateOf taskId).map fun _ => (settledStatus call outcome now).state
          prompt := none } else s.remoteView id := by
  obtain ⟨-, rfl⟩ := promptOf_spec hcall
  have hprompt : (settle s call outcome now).1.promptOf id =
      if id = call.taskId then none else s.promptOf id := by
    unfold ServerState.promptOf
    rw [settle_prompts]
    exact Table.lookup_remove _ _ _
  have hstate : (settle s call outcome now).1.stateOf id = (s.stateOf id).map fun state =>
      if id = call.taskId then (settledStatus call outcome now).state else state := by
    unfold ServerState.stateOf
    rw [settle_taskStore, TaskStore.stateOf_updateStatus]
  unfold ServerState.remoteView
  rw [hprompt, hstate, settle_taskStore, TaskStore.getPushConfig_updateStatus]
  split
  · rename_i hid
    rw [hid]
  · simp

theorem finishCancel_remoteView (s : ServerState) (taskId : String) (now : Instant) (id : String) :
    (finishCancel s taskId now).remoteView id =
      if id = taskId then
        { s.remoteView taskId with state := (s.stateOf taskId).map fun _ => .canceled }
      else s.remoteView id := by
  have hstate : (finishCancel s taskId now).stateOf id = (s.stateOf id).map fun state =>
      if id = taskId then .canceled else state :=
    TaskStore.stateOf_updateStatus _ _ _ _ _
  unfold ServerState.remoteView
  rw [hstate]
  split
  · rename_i hid
    rw [hid]
    rfl
  · simp only [Option.map_id']
    rfl

theorem createTask_pushConfig {s' : ServerState} {params : MessageSendParams}
    {config : PushNotificationConfig}
    (hconfig : params.configuration.bind MessageSendConfiguration.pushNotificationConfig =
      some config) (h : createTask s taskId params now = some s') (id : String) :
    s'.taskStore.getPushConfig id =
      if id = taskId then some config else s.taskStore.getPushConfig id := by
  unfold createTask at h
  simp only [hconfig] at h
  split at h
  · cases h
  · rename_i taskStore hcreate
    obtain rfl := Option.some.inj h
    rw [TaskStore.getPushConfig_setPushConfig, TaskStore.getPushConfig_create hcreate]

/-- A request to start a task makes it, with its configuration, in the state `working` and with a
prompt, unless no session can be made for it. -/
theorem startTask_remote {args : StartArgs} {sessionNanoid : String} {executed : Executed}
    (htext : args.message ≠ "") (hprompt : s.promptOf taskId = none)
    (h : handleMessage false s args.params taskId sessionNanoid now = .ok executed) :
    s.stateOf taskId = none ∧
      (∀ id, id ≠ taskId →
        (afterMessage false s (.ok executed)).remoteView id = s.remoteView id) ∧
      ((∃ message, executed.result = .threw message) ∧
          (afterMessage false s (.ok executed)).promptOf taskId = none ∨
        ∃ call task, executed.result = .returned (some task) ∧ task.id = taskId ∧
          call.taskId = taskId ∧ call.blocking = false ∧
          (afterMessage false s (.ok executed)).remoteView taskId =
            ⟨some .working, some call, some ⟨args.callbackUrl, some args.webhookToken⟩⟩) := by
  obtain ⟨e, he⟩ | ⟨created, hcreated, hok⟩ :=
    handleMessage_cases false s args.params taskId sessionNanoid now
  · rw [he] at h
    cases h
  rw [hok] at h
  obtain rfl := Except.ok.inj h
  have hpush : ∀ id, created.taskStore.getPushConfig id =
      if id = taskId then some ⟨args.callbackUrl, some args.webhookToken⟩
      else s.taskStore.getPushConfig id :=
    createTask_pushConfig rfl hcreated
  obtain ⟨hfresh, store, rfl, -, hstates⟩ := createTask_states hcreated
  have hwritten : ∀ status id, (store.updateStatus taskId status now).stateOf id =
      if id = taskId then some status.state else s.stateOf id := by
    intro status id
    have hknown : store.stateOf taskId ≠ none := by
      rw [hstates, if_pos rfl]
      exact some_ne_none _
    rw [TaskStore.stateOf_updateStatus_known hknown, hstates]
    split <;> rfl
  have htruthy : SessionStore.truthy (extractText args.params.message) = some args.message := by
    rw [show extractText args.params.message = some args.message from extractText_toMessage _ _]
    exact if_neg htext
  refine ⟨hfresh, ?_⟩
  cases hsession : resolveSession { s with taskStore := store }
      (contextOf taskId args.params.message) args.message sessionNanoid now with
  | error e =>
    rw [execute_threw htruthy hsession]
    refine ⟨fun id hid => ?_, Or.inl ⟨⟨_, rfl⟩, hprompt⟩⟩
    change RemoteView.mk (store.stateOf id) (s.promptOf id) (store.getPushConfig id) = _
    rw [hstates, if_neg hid, show store.getPushConfig id = _ from hpush id, if_neg hid]
    rfl
  | ok resolved =>
    rw [execute_prompts htruthy hsession]
    let working : TaskStatus := { state := .working, timestamp := now }
    let call : PromptCall :=
      ⟨taskId, contextOf taskId args.params.message, resolved.2, args.message, false, false⟩
    have hview : ∀ id, (afterMessage false s (.ok
        ⟨{ s with
            taskStore := store.updateStatus taskId working now
            sessionStore := resolved.1
            prompts := s.prompts ++ [call]
            ran := s.ran ++ [call] }, [],
          .returned ((store.updateStatus taskId working now).get taskId)⟩)).remoteView id =
        ⟨if id = taskId then some .working else s.stateOf id,
          (s.promptOf id).or (if taskId = id then some call else none),
          if id = taskId then some ⟨args.callbackUrl, some args.webhookToken⟩
          else s.taskStore.getPushConfig id⟩ := by
      intro id
      have hstate := hwritten working id
      have hpushed := hpush id
      have hcalls := promptOf_append s call id
      change RemoteView.mk ((store.updateStatus taskId working now).stateOf id)
        (({ s with prompts := s.prompts ++ [call] } : ServerState).promptOf id)
        (store.getPushConfig id) = _
      rw [hstate, hcalls, show store.getPushConfig id = _ from hpushed]
    obtain ⟨task, htask⟩ :
        ∃ task, (store.updateStatus taskId working now).get taskId = some task := by
      have hstate := hwritten working taskId
      rw [if_pos rfl] at hstate
      obtain ⟨row, hrow, -⟩ := map_eq_some_iff.mp hstate
      exact ⟨_, congrArg (Option.map TaskStore.rowToTask) hrow⟩
    refine ⟨fun id hid => (hview id).trans ?_, Or.inr ⟨call, task, congrArg _ htask,
      (TaskStore.stateOf_get htask).2, rfl, rfl, (hview taskId).trans ?_⟩⟩
    · rw [if_neg hid, if_neg (Ne.symm hid), if_neg hid, or_none]
      rfl
    · rw [if_pos rfl, if_pos rfl, if_pos rfl, hprompt, none_or]

end Remote

namespace Thread

def taskId : Thread → String
  | save record => record.taskId
  | check taskId => taskId
  | cancel taskId => taskId
  | cancelWrite taskId => taskId
  | updateGet taskId _ _ => taskId
  | updatePut record _ => record.taskId
  | finish taskId _ => taskId

/-- What an operation has still to do. -/
def after : Thread → Option After
  | updateGet _ _ after => some after
  | updatePut _ after => some after
  | finish _ after => some after
  | _ => none

/-- A callback that has found its record. -/
def IsCallback (thread : Thread) : Prop :=
  ∃ status pending, thread.after = some (.callback status pending)

end Thread

@[ext] structure TaskView where
  remote : RemoteView
  pending : Option PendingTask
  threads : Nat → Option Thread
  sent : List Notification
  delivered : List Notification
  injected : List Injection
  started : List PendingTask
  cancelled : Bool

namespace DelegationState

def threadsOf (st : DelegationState) (taskId : String) (i : Nat) : Option Thread :=
  (st.threads i).filter fun thread => thread.taskId = taskId

def view (st : DelegationState) (taskId : String) : TaskView where
  remote := st.remote.remoteView taskId
  pending := st.pending taskId
  threads := st.threadsOf taskId
  sent := st.sent.filter fun n => n.taskId = taskId
  delivered := st.delivered.filter fun n => n.taskId = taskId
  injected := st.injected.filter fun injection => injection.taskId = taskId
  started := st.started.filter fun record => record.taskId = taskId
  cancelled := decide (taskId ∈ st.cancelled)

variable {st : DelegationState} {i : Nat} {taskId : String}

theorem threadsOf_eq_some {thread : Thread} :
    st.threadsOf taskId i = some thread ↔ st.threads i = some thread ∧ thread.taskId = taskId := by
  unfold threadsOf
  rw [filter_eq_some_iff, decide_eq_true_iff]

theorem threadsOf_become (st : DelegationState) (i : Nat) (thread : Option Thread)
    (taskId : String) : (st.become i thread).threadsOf taskId =
      Function.update (st.threadsOf taskId) i (thread.filter fun t => t.taskId = taskId) := by
  funext j
  change (Function.update st.threads i thread j).filter _ = _
  by_cases hj : j = i
  · rw [hj, update_self, update_self]
  · rw [update_of_ne hj, update_of_ne hj]
    rfl

theorem threadsOf_become_ne {thread : Option Thread}
    (hold : ∀ t, st.threads i = some t → t.taskId ≠ taskId)
    (hnew : ∀ t, thread = some t → t.taskId ≠ taskId) :
    (st.become i thread).threadsOf taskId = st.threadsOf taskId := by
  have hnone : ∀ o : Option Thread, (∀ t, o = some t → t.taskId ≠ taskId) →
      o.filter (fun t => t.taskId = taskId) = none := by
    intro o ho
    refine filter_eq_none_iff.mpr fun t ht => ?_
    simpa using ho t ht
  rw [threadsOf_become, hnone thread hnew, update_eq_self_iff]
  exact (hnone _ hold).symm

end DelegationState

/-- Nothing is known of the task, or its request has thrown at the other agent. -/
structure Unissued (v : TaskView) : Prop where
  prompt : v.remote.prompt = none
  pending : v.pending = none
  threads : ∀ i, v.threads i = none
  sent : v.sent = []
  delivered : v.delivered = []
  injected : v.injected = []
  started : v.started = []
  cancelled : v.cancelled = false

/-- The other agent runs the task, or has pushed its result. -/
structure Issued (r : PendingTask) (remote : RemoteView) (sent : List Notification)
    (cancelled : Bool) : Prop where
  known : remote.state ≠ none
  token : r.webhookToken ≠ ""
  push : ∃ config, remote.push = some config ∧ config.token = some r.webhookToken
  running : (∃ call, remote.prompt = some call ∧ call.blocking = false ∧
      (remote.state = some .working ∨ cancelled = true)) ∨ remote.prompt = none ∧ sent ≠ []
  sent : ∀ n ∈ sent, isTerminalState n.status.state = true ∧ n.token = some r.webhookToken

/-- The task runs, and `start_task` has not saved its record. -/
structure Saving (taskId : String) (i : Nat) (r : PendingTask) (v : TaskView) : Prop where
  record : r.taskId = taskId
  thread : v.threads i = some (.save r)
  threads : ∀ j thread, v.threads j = some thread → j = i ∧ thread = .save r
  pending : v.pending = none
  delivered : v.delivered = []
  injected : v.injected = []
  started : v.started = []
  cancelled : v.cancelled = false
  issued : Issued r v.remote v.sent v.cancelled

/-- A stored record of a task that is neither done nor given up. -/
structure Stored (taskId : String) (r p : PendingTask) : Prop where
  record : p.taskId = taskId
  session : p.originSessionId = r.originSessionId
  token : p.webhookToken = r.webhookToken

/-- The task was started: it has a record until its result is injected or it is canceled. -/
structure Started (taskId : String) (r : PendingTask) (v : TaskView) : Prop where
  record : r.taskId = taskId
  started : v.started = [r]
  saved : ∀ i r', v.threads i ≠ some (.save r')
  issued : Issued r v.remote v.sent v.cancelled
  stored : ∀ p, v.pending = some p → Stored taskId r p ∧ v.injected = [] ∧
    (v.cancelled = true → ∃ i thread, v.threads i = some thread ∧ thread.after = some .cancel)
  gone : v.pending = none →
    (∃ injection, v.injected = [injection] ∧ injection.sessionId = r.originSessionId) ∧
      v.cancelled = false ∨ v.injected = [] ∧ v.cancelled = true
  called : ∀ i thread status pending, v.threads i = some thread →
    thread.after = some (.callback status pending) →
    v.pending ≠ none ∧ v.cancelled = false ∧ isTerminalState status.state = true ∧
      pending.originSessionId = r.originSessionId ∧
      ∀ j other, v.threads j = some other → other.IsCallback → j = i
  answered : v.delivered ≠ [] → v.pending = none ∨ v.cancelled = true ∨
    ∃ i thread, v.threads i = some thread ∧ thread.IsCallback
  put : ∀ i p after, v.threads i = some (.updatePut p after) → Stored taskId r p
  canceling : ∀ i thread, v.threads i = some thread → thread.after = some .cancel →
    v.cancelled = true

def OnItsWay (taskId : String) (v : TaskView) : Prop :=
  Unissued v ∨ (∃ i r, Saving taskId i r v) ∨ ∃ r, Started taskId r v

namespace DelegationState

def Coherent (st : DelegationState) : Prop := ∀ taskId, OnItsWay taskId (st.view taskId)

/-- No notification overtakes the record of its task, no two callbacks and no callback and cancel
finish one task, no record is written back after its deletion, and messages have a text. -/
def Serial (st : DelegationState) : DelegationLabel → Prop
  | .startTask _ args _ _ _ => args.message ≠ ""
  | .deliver _ position => ∀ n, st.sent[position]? = some n →
    (∀ j record, st.threads j = some (.save record) → record.taskId ≠ n.taskId) ∧
      ((st.pending n.taskId).isSome → n.taskId ∉ st.cancelled ∧
        ∀ j thread, st.threads j = some thread → thread.IsCallback → thread.taskId ≠ n.taskId)
  | .advance i _ _ => ∀ thread, st.threads i = some thread →
    match thread with
    | .cancelWrite taskId => (∀ injection ∈ st.injected, injection.taskId ≠ taskId) ∧
        ∀ j thread, st.threads j = some thread → thread.IsCallback → thread.taskId ≠ taskId
    | .updatePut record _ => (st.pending record.taskId).isSome
    | _ => True
  | _ => True

end DelegationState

section Ways

variable {taskId : String} {r : PendingTask} {v : TaskView} {i : Nat}

theorem Started.replace (h : Started taskId r v) {thread : Option Thread}
    (hsaved : ∀ r', thread ≠ some (.save r'))
    (hput : ∀ p after, thread = some (.updatePut p after) → Stored taskId r p)
    (hafter : ∀ a, a ≠ .check → ((∃ t, thread = some t ∧ t.after = some a) ↔
      ∃ t, v.threads i = some t ∧ t.after = some a)) :
    Started taskId r { v with threads := Function.update v.threads i thread } := by
  -- what is still to do is the same before and after
  have hforward : ∀ {j t a}, a ≠ .check → v.threads j = some t → t.after = some a →
      ∃ t', Function.update v.threads i thread j = some t' ∧ t'.after = some a := by
    intro j t a ha ht hta
    by_cases hj : j = i
    · subst hj
      obtain ⟨t', ht', hta'⟩ := (hafter a ha).mpr ⟨t, ht, hta⟩
      exact ⟨t', by rw [update_self, ht'], hta'⟩
    · exact ⟨t, by rw [update_of_ne hj, ht], hta⟩
  have hbackward : ∀ {j t a}, a ≠ .check → Function.update v.threads i thread j = some t →
      t.after = some a → ∃ t', v.threads j = some t' ∧ t'.after = some a := by
    intro j t a ha ht hta
    rcases Table.update_eq_some ht with ⟨rfl, hnew⟩ | ⟨-, hold⟩
    · exact (hafter a ha).mp ⟨t, hnew, hta⟩
    · exact ⟨t, hold, hta⟩
  refine { h with
    saved := ?_, stored := ?_, called := ?_, answered := ?_, put := ?_, canceling := ?_ }
  · intro j r'
    by_cases hj : j = i
    · subst hj
      simp only [update_self]
      exact hsaved r'
    · simp only [update_of_ne hj]
      exact h.saved j r'
  · intro p hp
    obtain ⟨hstored, hinjected, hcancel⟩ := h.stored p hp
    refine ⟨hstored, hinjected, fun hcancelled => ?_⟩
    obtain ⟨j, t, ht, hta⟩ := hcancel hcancelled
    obtain ⟨t', ht', hta'⟩ := hforward (by simp) ht hta
    exact ⟨j, t', ht', hta'⟩
  · intro j t status pending ht hta
    obtain ⟨t', ht', hta'⟩ := hbackward (by simp) ht hta
    obtain ⟨hpending, hcancelled, hterminal, hsession, honly⟩ :=
      h.called j t' status pending ht' hta'
    refine ⟨hpending, hcancelled, hterminal, hsession, fun k other hother hcallback => ?_⟩
    obtain ⟨status', pending', hother'⟩ := hcallback
    obtain ⟨o, ho, hoa⟩ := hbackward (by simp) hother hother'
    exact honly k o ho ⟨_, _, hoa⟩
  · intro hdelivered
    refine (h.answered hdelivered).imp_right (Or.imp_right ?_)
    rintro ⟨j, t, ht, status, pending, hta⟩
    obtain ⟨t', ht', hta'⟩ := hforward (by simp) ht hta
    exact ⟨j, t', ht', _, _, hta'⟩
  · intro j p after hp
    rcases Table.update_eq_some hp with ⟨rfl, hnew⟩ | ⟨-, hold⟩
    · exact hput p after hnew
    · exact h.put j p after hold
  · intro j t ht hta
    obtain ⟨t', ht', hta'⟩ := hbackward (by simp) ht hta
    exact h.canceling j t' ht' hta'

variable {status : TaskStatus}

theorem Issued.settled {remote : RemoteView} {sent : List Notification} {cancelled : Bool}
    (h : Issued r remote sent cancelled) {call : PromptCall} (hprompt : remote.prompt = some call)
    (hterminal : isTerminalState status.state = true) :
    call.blocking = false ∧ ∃ config, remote.push = some config ∧
      Issued r { remote with state := remote.state.map fun _ => status.state, prompt := none }
        (sent ++ [⟨call.taskId, config.token, status⟩]) cancelled := by
  obtain ⟨config, hpush, htoken⟩ := h.push
  rcases h.running with ⟨call', hcall', hblocking, -⟩ | ⟨hnone, -⟩
  · obtain rfl := Option.some.inj (hprompt.symm.trans hcall')
    refine ⟨hblocking, config, hpush, fun hnone => h.known (map_eq_none_iff.mp hnone),
      h.token,
      ⟨config, hpush, htoken⟩, Or.inr ⟨rfl, by simp⟩, fun n hn => ?_⟩
    rcases mem_append.mp hn with hold | hnew
    · exact h.sent n hold
    · rw [mem_singleton.mp hnew]
      exact ⟨hterminal, htoken⟩
  · rw [hprompt] at hnone
    cases hnone

theorem Saving.save (h : Saving taskId i r v) :
    Started taskId r { v with
      pending := some r
      threads := Function.update v.threads i none
      started := [r] } := by
  have hnone : ∀ j, Function.update v.threads i none j = none := by
    intro j
    by_cases hj : j = i
    · rw [hj, update_self]
    · rw [update_of_ne hj]
      cases hthread : v.threads j with
      | none => rfl
      | some thread => exact absurd (h.threads j thread hthread).1 hj
  refine ⟨h.record, rfl, ?_, h.issued, ?_, ?_, ?_, ?_, ?_, ?_⟩
  · intro j r'
    simp [hnone]
  · intro p hp
    obtain rfl := Option.some.inj hp
    have hfalse := h.cancelled
    refine ⟨⟨h.record, rfl, rfl⟩, h.injected, fun hcancelled => ?_⟩
    rw [show v.cancelled = true from hcancelled] at hfalse
    cases hfalse
  · intro hp
    cases hp
  · intro j thread status pending hthread
    simp [hnone] at hthread
  · intro hdelivered
    exact absurd h.delivered hdelivered
  · intro j p after hp
    simp [hnone] at hp
  · intro j thread hthread
    simp [hnone] at hthread

variable {pending : PendingTask}

theorem Started.deliver (h : Started taskId r v) {n : Notification} (hn : n ∈ v.sent)
    (hfree : v.threads i = none) (hpending : v.pending = some pending)
    (hcancelled : v.cancelled = false)
    (hnone : ∀ j other, v.threads j = some other → ¬ other.IsCallback) :
    SessionStore.truthy n.token = some pending.webhookToken ∧
      Started taskId r { v with
        threads := Function.update v.threads i
          (some (.updateGet taskId n.status.state (.callback n.status pending)))
        delivered := v.delivered ++ [n] } := by
  obtain ⟨hstored, hinjected, -⟩ := h.stored pending hpending
  obtain ⟨hterminal, htoken⟩ := h.issued.sent n hn
  refine ⟨?_, { h with
    saved := ?_, stored := ?_, called := ?_, answered := ?_, put := ?_, canceling := ?_ }⟩
  · rw [htoken, hstored.token]
    exact if_neg h.issued.token
  · intro j r'
    by_cases hj : j = i
    · simp [hj]
    · simpa [update_of_ne hj] using h.saved j r'
  · intro p hp
    obtain ⟨hstored, hinjected, -⟩ := h.stored p hp
    refine ⟨hstored, hinjected, fun htrue => ?_⟩
    rw [show v.cancelled = true from htrue] at hcancelled
    cases hcancelled
  · intro j thread status pending' hthread hafter
    by_cases hj : j = i
    · subst hj
      simp only [update_self] at hthread
      obtain rfl := Option.some.inj hthread
      obtain ⟨rfl, rfl⟩ := After.callback.inj (Option.some.inj hafter)
      refine ⟨by simp [hpending], hcancelled, hterminal, hstored.session,
        fun k other hother hcall => ?_⟩
      by_contra hk
      simp only [update_of_ne hk] at hother
      exact hnone k other hother hcall
    · simp only [update_of_ne hj] at hthread
      exact absurd ⟨status, pending', hafter⟩ (hnone j thread hthread)
  · intro _
    exact Or.inr (Or.inr ⟨i, _, update_self _ _ _, _, _, rfl⟩)
  · intro j p after hp
    by_cases hj : j = i
    · simp [hj] at hp
    · exact h.put j p after (by simpa [update_of_ne hj] using hp)
  · intro j thread hthread hafter
    rcases Table.update_eq_some hthread with ⟨-, hnew⟩ | ⟨-, hold⟩
    · cases hnew
      cases hafter
    · exact h.canceling j thread hold hafter

theorem Started.refuse (h : Started taskId r v) (n : Notification) (hpending : v.pending = none) :
    Started taskId r { v with delivered := v.delivered ++ [n] } :=
  { h with answered := fun _ => Or.inl hpending }

theorem Started.cancelWrite (h : Started taskId r v) (hinjected : v.injected = [])
    (hnone : ∀ j other, v.threads j = some other → ¬ other.IsCallback) :
    Started taskId r { v with
      remote := { v.remote with state := v.remote.state.map fun _ => .canceled }
      threads := Function.update v.threads i (some (.updateGet taskId .canceled .cancel))
      cancelled := true } := by
  have hissued : Issued r { v.remote with state := v.remote.state.map fun _ => .canceled } v.sent
      true := by
    refine ⟨fun hnone => h.issued.known (map_eq_none_iff.mp hnone), h.issued.token,
      h.issued.push, ?_, h.issued.sent⟩
    refine h.issued.running.imp_left ?_
    rintro ⟨call, hcall, hblocking, -⟩
    exact ⟨call, hcall, hblocking, Or.inr rfl⟩
  refine { h with
    saved := ?_, issued := hissued, stored := ?_, gone := ?_, called := ?_, answered := ?_,
    put := ?_
    canceling := fun _ _ _ _ => rfl }
  · intro j r'
    by_cases hj : j = i
    · simp [hj]
    · simpa [update_of_ne hj] using h.saved j r'
  · intro p hp
    exact ⟨(h.stored p hp).1, hinjected, fun _ => ⟨i, _, update_self _ _ _, rfl⟩⟩
  · exact fun _ => Or.inr ⟨hinjected, rfl⟩
  · intro j thread status pending hthread hafter
    rcases Table.update_eq_some hthread with ⟨-, hnew⟩ | ⟨-, hold⟩
    · cases hnew
      cases hafter
    · exact absurd ⟨status, pending, hafter⟩ (hnone j thread hold)
  · exact fun _ => Or.inr (Or.inl rfl)
  · intro j p after hp
    by_cases hj : j = i
    · simp [hj] at hp
    · exact h.put j p after (by simpa [update_of_ne hj] using hp)

theorem Started.put_record (h : Started taskId r v) {p : PendingTask} (hp : Stored taskId r p)
    (hpending : v.pending ≠ none) : Started taskId r { v with pending := some p } := by
  obtain ⟨old, hold⟩ := ne_none_iff_exists'.mp hpending
  refine { h with stored := ?_, gone := ?_, called := ?_, answered := ?_ }
  · intro p' hp'
    obtain rfl := Option.some.inj hp'
    exact ⟨hp, (h.stored old hold).2⟩
  · intro hnone
    cases hnone
  · intro i thread status pending hthread hafter
    obtain ⟨-, hrest⟩ := h.called i thread status pending hthread hafter
    exact ⟨some_ne_none _, hrest⟩
  · intro hdelivered
    rcases h.answered hdelivered with hnone | hrest
    · exact absurd hnone hpending
    · exact Or.inr hrest

theorem Started.cancelled (h : Started taskId r v) {thread : Thread}
    (hthread : v.threads i = some thread) (hafter : thread.after = some .cancel) :
    Started taskId r { v with pending := none, threads := Function.update v.threads i none } := by
  have hcancelled := h.canceling i thread hthread hafter
  have hinjected : v.injected = [] := by
    cases hpending : v.pending with
    | some p => exact (h.stored p hpending).2.1
    | none =>
      rcases h.gone hpending with ⟨-, hfalse⟩ | ⟨hnil, -⟩
      · rw [hcancelled] at hfalse
        cases hfalse
      · exact hnil
  have hthreads : ∀ {j t}, Function.update v.threads i none j = some t → v.threads j = some t := by
    intro j t ht
    exact (Table.update_none_eq_some ht).2
  refine { h with
    saved := ?_, stored := ?_, gone := ?_, called := ?_, answered := fun _ => Or.inl rfl, put := ?_
    canceling := ?_ }
  · exact fun j r' hsave => h.saved j r' (hthreads hsave)
  · intro p hp
    cases hp
  · exact fun _ => Or.inr ⟨hinjected, hcancelled⟩
  · intro j t status pending ht hta
    have hfalse := (h.called j t status pending (hthreads ht) hta).2.1
    rw [hcancelled] at hfalse
    cases hfalse
  · exact fun j p after hp => h.put j p after (hthreads hp)
  · exact fun j t ht hta => h.canceling j t (hthreads ht) hta

theorem Started.injected (h : Started taskId r v) {thread : Thread}
    (hthread : v.threads i = some thread)
    (hafter : thread.after = some (.callback status pending)) {injection : Injection}
    (hsession : injection.sessionId = pending.originSessionId) :
    Started taskId r { v with
      pending := none
      threads := Function.update v.threads i none
      injected := v.injected ++ [injection] } := by
  obtain ⟨hpending, hcancelled, -, horigin, honly⟩ :=
    h.called i thread status pending hthread hafter
  obtain ⟨p, hp⟩ := ne_none_iff_exists'.mp hpending
  have hthreads : ∀ {j t}, Function.update v.threads i none j = some t →
      j ≠ i ∧ v.threads j = some t := by
    intro j t ht
    exact Table.update_none_eq_some ht
  refine { h with
    saved := ?_, stored := ?_, gone := ?_, called := ?_, answered := fun _ => Or.inl rfl, put := ?_
    canceling := ?_ }
  · exact fun j r' hsave => h.saved j r' (hthreads hsave).2
  · intro p hp
    cases hp
  · refine fun _ => Or.inl ⟨⟨injection, ?_, hsession.trans horigin⟩, hcancelled⟩
    rw [(h.stored p hp).2.1, nil_append]
  · intro j t status' pending' ht hta
    obtain ⟨hj, hold⟩ := hthreads ht
    exact absurd (honly j t hold ⟨_, _, hta⟩) hj
  · exact fun j p after hp => h.put j p after (hthreads hp).2
  · exact fun j t ht hta => h.canceling j t (hthreads ht).2 hta

end Ways

theorem OnItsWay.of_pending {taskId : String} {v : TaskView} (h : OnItsWay taskId v)
    {p : PendingTask} (hp : v.pending = some p) : ∃ r, Started taskId r v := by
  rcases h with hun | ⟨i, r, hsaving⟩ | hstarted
  · rw [hun.pending] at hp
    cases hp
  · rw [hsaving.pending] at hp
    cases hp
  · exact hstarted

theorem OnItsWay.of_thread {taskId : String} {v : TaskView} (h : OnItsWay taskId v) {i : Nat}
    {thread : Thread} (hthread : v.threads i = some thread) (hsave : ∀ r, thread ≠ .save r) :
    ∃ r, Started taskId r v := by
  rcases h with hun | ⟨j, r, hsaving⟩ | hstarted
  · rw [hun.threads] at hthread
    cases hthread
  · exact absurd (hsaving.threads i thread hthread).2 (hsave r)
  · exact hstarted

namespace DelegationState

variable {st st' : DelegationState} {taskId : String} {i : Nat}

theorem Coherent.of_subject (h : st.Coherent) (taskId : String)
    (hothers : ∀ id, id ≠ taskId → st'.view id = st.view id)
    (hsubject : OnItsWay taskId (st'.view taskId)) : st'.Coherent := by
  intro id
  by_cases hid : id = taskId
  · rw [hid]
    exact hsubject
  · rw [hothers id hid]
    exact h id

/-- The place of an operation is about one task. -/
def At (st : DelegationState) (i : Nat) (taskId : String) : Prop :=
  ∀ thread, st.threads i = some thread → thread.taskId = taskId

variable {thread : Option Thread}

theorem view_become_ne (hold : st.At i taskId)
    (hnew : ∀ t, thread = some t → t.taskId = taskId) {id : String} (hid : id ≠ taskId) :
    (st.become i thread).view id = st.view id := by
  have hthreads : (st.become i thread).threadsOf id = st.threadsOf id := by
    refine threadsOf_become_ne (fun t ht => ?_) fun t ht => ?_
    · rw [hold t ht]
      exact Ne.symm hid
    · rw [hnew t ht]
      exact Ne.symm hid
  exact TaskView.ext rfl rfl hthreads rfl rfl rfl rfl rfl

theorem view_become_self (hnew : ∀ t, thread = some t → t.taskId = taskId) :
    (st.become i thread).view taskId =
      { st.view taskId with threads := Function.update (st.view taskId).threads i thread } := by
  have hfilter : thread.filter (fun t => t.taskId = taskId) = thread := by
    cases thread with
    | none => rfl
    | some t => exact filter_some_pos (by simpa using hnew t rfl)
  refine TaskView.ext rfl rfl ?_ rfl rfl rfl rfl rfl
  exact (threadsOf_become st i thread taskId).trans (by rw [hfilter]; rfl)

theorem Coherent.write (h : st.Coherent) (hold : st.At i taskId)
    (hothers : ∀ id, id ≠ taskId → st'.view id = st.view id) (hthreads : st'.threads = st.threads)
    (hnew : ∀ t, thread = some t → t.taskId = taskId)
    (hsubject : OnItsWay taskId { st'.view taskId with
      threads := Function.update (st'.view taskId).threads i thread }) :
    (st'.become i thread).Coherent := by
  have hold' : st'.At i taskId := by
    unfold At
    rw [hthreads]
    exact hold
  refine h.of_subject taskId (fun id hid => ?_) ?_
  · rw [view_become_ne hold' hnew hid]
    exact hothers id hid
  · rw [view_become_self hnew]
    exact hsubject

theorem Coherent.replace (h : st.Coherent) {r : PendingTask}
    (hstarted : Started taskId r (st.view taskId)) (hold : st.At i taskId)
    (hnew : ∀ t, thread = some t → t.taskId = taskId) (hsaved : ∀ r', thread ≠ some (.save r'))
    (hput : ∀ p after, thread = some (.updatePut p after) → Stored taskId r p)
    (hafter : ∀ a, a ≠ .check → ((∃ t, thread = some t ∧ t.after = some a) ↔
      ∃ t, st.threads i = some t ∧ t.after = some a)) : (st.become i thread).Coherent := by
  refine h.write hold (fun _ _ => rfl) rfl hnew (Or.inr (Or.inr ⟨r, ?_⟩))
  refine hstarted.replace hsaved hput fun a ha => (hafter a ha).trans ?_
  constructor
  · rintro ⟨t, ht, hta⟩
    exact ⟨t, threadsOf_eq_some.mpr ⟨ht, hold t ht⟩, hta⟩
  · rintro ⟨t, ht, hta⟩
    exact ⟨t, (threadsOf_eq_some.mp ht).1, hta⟩

theorem at_free (hfree : st.threads i = none) (taskId : String) : st.At i taskId := by
  intro thread hthread
  rw [hfree] at hthread
  cases hthread

theorem at_thread {thread : Thread} (hthread : st.threads i = some thread) :
    st.At i thread.taskId := by
  intro t ht
  rw [Option.some.inj (ht.symm.trans hthread)]

/-- `check_task` and `cancel_task` start for a task with a record. -/
theorem Coherent.ask (h : st.Coherent) (hfree : st.threads i = none)
    (hpending : (st.pending taskId).isSome)
    {thread : Thread} (hid : thread.taskId = taskId) (hsave : ∀ r, thread ≠ .save r)
    (hafter : thread.after = none) : (st.become i (some thread)).Coherent := by
  obtain ⟨p, hp⟩ := isSome_iff_exists.mp hpending
  obtain ⟨r, hstarted⟩ := (h taskId).of_pending (p := p) hp
  refine h.replace hstarted (at_free hfree taskId) ?_ ?_ ?_ ?_
  · rintro t ht
    obtain rfl := Option.some.inj ht
    exact hid
  · intro r' hr'
    exact hsave r' (Option.some.inj hr')
  · intro p after hput
    rw [Option.some.inj hput] at hafter
    cases hafter
  · intro a _
    constructor
    · rintro ⟨t, ht, hta⟩
      rw [← Option.some.inj ht, hafter] at hta
      cases hta
    · rintro ⟨t, ht, -⟩
      rw [hfree] at ht
      cases ht

theorem coherent_deliver (h : st.Coherent) {n : Notification} (hn : n ∈ st.sent)
    (hfree : st.threads i = none)
    (hsaving : ∀ j record, st.threads j = some (.save record) → record.taskId ≠ n.taskId)
    (hclear : (st.pending n.taskId).isSome → n.taskId ∉ st.cancelled ∧
      ∀ j thread, st.threads j = some thread → thread.IsCallback → thread.taskId ≠ n.taskId) :
    (st.deliver i n).Coherent := by
  have hsent : n ∈ (st.view n.taskId).sent := mem_filter.mpr ⟨hn, by simp⟩
  have hdelivered : ∀ id, ({ st with delivered := st.delivered ++ [n] } : DelegationState).view id =
      { st.view id with
        delivered := (st.view id).delivered ++ if n.taskId = id then [n] else [] } := by
    intro id
    refine TaskView.ext rfl rfl rfl rfl ?_ rfl rfl rfl
    change (st.delivered ++ [n]).filter _ = _
    rw [filter_append, filter_singleton]
    by_cases hid : n.taskId = id
    · simp [hid, view]
    · simp [hid, view]
  have hothers : ∀ id, id ≠ n.taskId →
      ({ st with delivered := st.delivered ++ [n] } : DelegationState).view id = st.view id := by
    intro id hid
    rw [hdelivered, if_neg (Ne.symm hid), append_nil]
  have hself := hdelivered n.taskId
  rw [if_pos rfl] at hself
  rcases h n.taskId with hun | ⟨j, r, hsav⟩ | ⟨r, hstarted⟩
  · rw [hun.sent] at hsent
    exact absurd hsent not_mem_nil
  · obtain ⟨hthread, hid⟩ := threadsOf_eq_some.mp hsav.thread
    exact absurd hid (hsaving j r hthread)
  · unfold deliver
    simp only
    cases hpending : st.pending n.taskId with
    | none =>
      refine h.of_subject n.taskId hothers (Or.inr (Or.inr ⟨r, ?_⟩))
      rw [hself]
      exact hstarted.refuse n hpending
    | some pending =>
      simp only
      obtain ⟨hcancelled, hnone⟩ := hclear (by rw [hpending]; rfl)
      have hfree' : (st.view n.taskId).threads i = none := by
        change (st.threads i).filter _ = none
        rw [hfree]
        rfl
      obtain ⟨htoken, hafter⟩ := hstarted.deliver hsent hfree' hpending
        (decide_eq_false hcancelled) fun j other hother hcallback => by
          obtain ⟨hthread, hid⟩ := threadsOf_eq_some.mp hother
          exact hnone j other hthread hcallback hid
      rw [if_pos htoken]
      have hnew : ∀ t,
          some (Thread.updateGet n.taskId n.status.state (.callback n.status pending)) =
          some t → t.taskId = n.taskId := by
        intro t ht
        obtain rfl := Option.some.inj ht
        rfl
      refine h.write (at_free hfree n.taskId) hothers rfl hnew (Or.inr (Or.inr ⟨r, ?_⟩))
      rw [hself]
      exact hafter

/-- `start_task` gets an answer for a new task, or it is refused. -/
theorem coherent_startTask (h : st.Coherent) (hfree : st.threads i = none) {args : StartArgs}
    (htext : args.message ≠ "") (taskNanoid sessionNanoid : String) (now : Instant) :
    (st.startTask i args taskNanoid sessionNanoid now).Coherent := by
  unfold startTask
  cases hrequest : handleMessage false st.remote args.params taskNanoid sessionNanoid now with
  | error e => exact h
  | ok executed =>
    simp only
    have hfresh : st.remote.stateOf taskNanoid = none := by
      obtain ⟨e, he⟩ | ⟨created, hcreated, -⟩ :=
        handleMessage_cases false st.remote args.params taskNanoid sessionNanoid now
      · rw [he] at hrequest
        cases hrequest
      · exact (createTask_states hcreated).1
    have hun : Unissued (st.view taskNanoid) := by
      rcases h taskNanoid with hun | ⟨j, r, hsaving⟩ | ⟨r, hstarted⟩
      · exact hun
      · exact absurd hfresh hsaving.issued.known
      · exact absurd hfresh hstarted.issued.known
    obtain ⟨-, hothers, hself⟩ := startTask_remote htext hun.prompt hrequest
    generalize afterMessage false st.remote (.ok executed) = remote at hothers hself
    have hview : ∀ id, id ≠ taskNanoid →
        ({ st with remote := remote } : DelegationState).view id = st.view id :=
      fun id hid => TaskView.ext (hothers id hid) rfl rfl rfl rfl rfl rfl rfl
    rcases hself with ⟨⟨message, hthrew⟩, hprompt⟩ |
      ⟨call, task, hreturned, htask, hcall, hblocking, hremote⟩
    · rw [hthrew]
      exact h.of_subject taskNanoid hview (Or.inl { hun with prompt := hprompt })
    · rw [hreturned]
      have hnew : ∀ t, some (Thread.save (args.record task)) = some t → t.taskId = taskNanoid := by
        intro t ht
        obtain rfl := Option.some.inj ht
        exact htask
      refine h.write (at_free hfree taskNanoid) hview rfl hnew
        (Or.inr (Or.inl ⟨i, args.record task, ?_⟩))
      refine ⟨htask, update_self _ _ _, fun j t ht => ?_, hun.pending, hun.delivered,
        hun.injected, hun.started, hun.cancelled, ?_⟩
      · by_cases hj : j = i
        · subst hj
          simp only [update_self] at ht
          exact ⟨rfl, (Option.some.inj ht).symm⟩
        · simp only [update_of_ne hj] at ht
          exact absurd ((hun.threads j).symm.trans ht) (by simp)
      · change Issued _ (remote.remoteView taskNanoid) (st.view taskNanoid).sent _
        rw [hremote, hun.sent]
        exact ⟨some_ne_none _, args.token_ne, ⟨_, rfl, rfl⟩,
          Or.inl ⟨call, rfl, hblocking, Or.inl rfl⟩, fun n hn => absurd hn not_mem_nil⟩

theorem coherent_settle (h : st.Coherent) {call : PromptCall}
    (hcall : st.remote.promptOf taskId = some call) (outcome : Except String String)
    (now : Instant) :
    ({ st with
      remote := (A2A.settle st.remote call outcome now).1
      sent := st.sent ++ pushes st.remote call outcome now } : DelegationState).Coherent := by
  have hid := (promptOf_spec hcall).2
  have hterminal : isTerminalState (settledStatus call outcome now).state = true := by
    rcases settledStatus_state call outcome now with hstate | hstate
    · rw [hstate]
      rfl
    · rw [hstate]
      rfl
  have hremote := settle_remoteView hcall outcome now
  have hpushed : ∀ id, (pushes st.remote call outcome now).filter (fun n => n.taskId = id) =
      if id = taskId then pushes st.remote call outcome now else [] := by
    intro id
    have habout : ∀ n ∈ pushes st.remote call outcome now, n.taskId = taskId := by
      intro n hn
      unfold pushes at hn
      split at hn
      · exact absurd hn not_mem_nil
      · obtain ⟨config, -, rfl⟩ := List.mem_map.mp hn
        exact hid
    split
    · rename_i heq
      exact List.filter_eq_self.mpr fun n hn => by simpa [heq] using habout n hn
    · rename_i hne
      exact filter_eq_nil_iff.mpr fun n hn => by simpa [habout n hn] using Ne.symm hne
  have hothers : ∀ id, id ≠ taskId → ({ st with
      remote := (A2A.settle st.remote call outcome now).1
      sent := st.sent ++ pushes st.remote call outcome now } : DelegationState).view id =
        st.view id := by
    intro id hne
    refine TaskView.ext ?_ rfl rfl ?_ rfl rfl rfl rfl
    · exact (hremote id).trans (if_neg hne)
    · change (st.sent ++ _).filter _ = _
      rw [filter_append, hpushed, if_neg hne, append_nil]
      rfl
  have hissued : ∀ {r : PendingTask}, Issued r (st.view taskId).remote (st.view taskId).sent
      (st.view taskId).cancelled →
        Issued r ((A2A.settle st.remote call outcome now).1.remoteView taskId)
        ((st.sent ++ pushes st.remote call outcome now).filter fun n => n.taskId = taskId)
        (st.view taskId).cancelled := by
    intro r hr
    obtain ⟨hblocking, config, hpush, hafter⟩ := hr.settled hcall hterminal
    rw [hremote, if_pos rfl, filter_append, hpushed, if_pos rfl]
    have hpushes : pushes st.remote call outcome now =
        [⟨call.taskId, config.token, settledStatus call outcome now⟩] := by
      unfold pushes
      rw [if_neg (by rw [hblocking]; exact Bool.false_ne_true), hid,
        show st.remote.taskStore.getPushConfig taskId = some config from hpush]
      rfl
    rw [hpushes]
    exact hafter
  refine h.of_subject taskId hothers ?_
  rcases h taskId with hun | ⟨j, r, hsaving⟩ | ⟨r, hstarted⟩
  · rw [show st.remote.promptOf taskId = none from hun.prompt] at hcall
    cases hcall
  · exact Or.inr (Or.inl ⟨j, r, { hsaving with issued := hissued hsaving.issued }⟩)
  · exact Or.inr (Or.inr ⟨r, { hstarted with issued := hissued hstarted.issued }⟩)

theorem coherent_finish (h : st.Coherent) {after : After}
    (hthread : st.threads i = some (.finish taskId after)) :
    (st.finish i taskId after).Coherent := by
  have hold : st.At i taskId := at_thread hthread
  have hmine : (st.view taskId).threads i = some (.finish taskId after) :=
    threadsOf_eq_some.mpr ⟨hthread, rfl⟩
  obtain ⟨r, hstarted⟩ := (h taskId).of_thread hmine fun r hr => by cases hr
  have hnew : ∀ t, (none : Option Thread) = some t → t.taskId = taskId := fun t ht => by cases ht
  have hdeleted : ∀ id, id ≠ taskId → st.pending.delete taskId id = st.pending id := by
    intro id hid
    rw [PendingTaskStore.delete_apply, if_neg hid]
  have hgone : st.pending.delete taskId taskId = none := by
    rw [PendingTaskStore.delete_apply, if_pos rfl]
  cases after with
  | check =>
    refine h.replace hstarted hold hnew (fun _ hr => by cases hr) (fun _ _ hp => by cases hp) ?_
    intro a ha
    constructor
    · rintro ⟨t, ht, -⟩
      cases ht
    · rintro ⟨t, ht, hta⟩
      rw [hthread] at ht
      obtain rfl := Option.some.inj ht
      exact absurd (Option.some.inj hta).symm ha
  | cancel =>
    have hothers : ∀ id, id ≠ taskId →
        ({ st with pending := st.pending.delete taskId } : DelegationState).view id = st.view id :=
      fun id hid => TaskView.ext rfl (hdeleted id hid) rfl rfl rfl rfl rfl rfl
    refine h.write hold hothers rfl hnew (Or.inr (Or.inr ⟨r, ?_⟩))
    change Started taskId r { st.view taskId with
      pending := st.pending.delete taskId taskId
      threads := Function.update (st.view taskId).threads i none }
    rw [hgone]
    exact hstarted.cancelled hmine rfl
  | callback status pending =>
    have hterminal := (hstarted.called i _ status pending hmine rfl).2.2.1
    have hinjected : ∀ id, (st.injected ++
        [Injection.mk taskId pending.originSessionId (resultText pending status)]).filter
          (fun injection => injection.taskId = id) = (st.view id).injected ++
        if taskId = id then
          [Injection.mk taskId pending.originSessionId (resultText pending status)]
        else [] := by
      intro id
      rw [filter_append, filter_singleton]
      by_cases hid : taskId = id
      · simp [hid, view]
      · simp [hid, view]
    have hothers : ∀ id, id ≠ taskId → (st.inject taskId status pending).view id = st.view id := by
      intro id hid
      refine TaskView.ext rfl (hdeleted id hid) rfl rfl rfl ?_ rfl rfl
      refine (hinjected id).trans ?_
      rw [if_neg (Ne.symm hid), append_nil]
    unfold finish
    simp only
    rw [if_pos hterminal]
    refine h.write hold hothers rfl hnew (Or.inr (Or.inr ⟨r, ?_⟩))
    change Started taskId r { st.view taskId with
      pending := st.pending.delete taskId taskId
      threads := Function.update (st.view taskId).threads i none
      injected := (st.injected ++
        [Injection.mk taskId pending.originSessionId (resultText pending status)]).filter
          fun injection => injection.taskId = taskId }
    rw [hgone, hinjected, if_pos rfl]
    exact hstarted.injected hmine rfl rfl

theorem coherent_advance (h : st.Coherent) {thread : Thread} (hthread : st.threads i = some thread)
    (isStreaming : Option (String → Bool)) (now : Instant)
    (hserial : st.Serial (.advance i isStreaming now)) :
    (st.advance i isStreaming now thread).Coherent := by
  have hold : st.At i thread.taskId := at_thread hthread
  have hmine : (st.view thread.taskId).threads i = some thread :=
    threadsOf_eq_some.mpr ⟨hthread, rfl⟩
  have hclear := hserial thread hthread
  -- an operation that goes on with what it had to do
  have hgoes : ∀ {r : PendingTask} {next : Option Thread},
      Started thread.taskId r (st.view thread.taskId) →
      (∀ t, next = some t → t.taskId = thread.taskId) → (∀ r', next ≠ some (.save r')) →
      (∀ p after, next = some (.updatePut p after) → Stored thread.taskId r p) →
      (∀ a, a ≠ .check → ((∃ t, next = some t ∧ t.after = some a) ↔ thread.after = some a)) →
      (st.become i next).Coherent := by
    intro r next hstarted hnew hsaved hput hafter
    refine h.replace hstarted hold hnew hsaved hput fun a ha => (hafter a ha).trans ?_
    constructor
    · exact fun hta => ⟨thread, hthread, hta⟩
    · rintro ⟨t, ht, hta⟩
      rw [hthread] at ht
      rwa [Option.some.inj ht]
  cases thread with
  | save record =>
    rcases h record.taskId with hun | ⟨j, r, hsaving⟩ | ⟨r, hstarted⟩
    · exact absurd ((hun.threads i).symm.trans hmine) (by simp)
    · obtain ⟨rfl, heq⟩ := hsaving.threads i _ hmine
      obtain rfl := Thread.save.inj heq
      have hothers : ∀ id, id ≠ record.taskId → ({ st with
          pending := st.pending.save record
          started := st.started ++ [record] } : DelegationState).view id = st.view id := by
        intro id hid
        refine TaskView.ext rfl ?_ rfl rfl rfl rfl ?_ rfl
        · exact (PendingTaskStore.save_apply _ _ _).trans (if_neg hid)
        · change (st.started ++ [record]).filter _ = _
          rw [filter_append, filter_singleton]
          simp [Ne.symm hid, view]
      refine h.write hold hothers rfl (fun t ht => by cases ht) (Or.inr (Or.inr ⟨record, ?_⟩))
      change Started record.taskId record { st.view record.taskId with
        pending := st.pending.save record record.taskId
        threads := Function.update (st.view record.taskId).threads i none
        started := (st.started ++ [record]).filter fun r => r.taskId = record.taskId }
      have hstarted : (st.started ++ [record]).filter (fun r => r.taskId = record.taskId) =
          [record] := by
        rw [filter_append, show st.started.filter _ = [] from hsaving.started]
        simp
      rw [hstarted, PendingTaskStore.save_apply, if_pos rfl]
      exact hsaving.save
    · exact absurd hmine (hstarted.saved i record)
  | check taskId =>
    obtain ⟨r, hstarted⟩ := (h taskId).of_thread hmine fun r hr => by cases hr
    unfold advance
    simp only
    cases st.remote.taskStore.get taskId with
    | none =>
      refine hgoes hstarted (fun t ht => by cases ht) (fun r' hr => by cases hr)
        (fun p after hp => by cases hp) fun a _ => ?_
      simp [Thread.after]
    | some task =>
      refine hgoes hstarted (fun t ht => ?_) (fun r' hr => by cases hr)
        (fun p after hp => by cases hp) fun a ha => ?_
      · rw [← Option.some.inj ht]
        rfl
      · simpa [Thread.after] using Ne.symm ha
  | cancel taskId =>
    obtain ⟨r, hstarted⟩ := (h taskId).of_thread hmine fun r hr => by cases hr
    unfold advance
    simp only
    split
    · refine hgoes hstarted (fun t ht => ?_) (fun r' hr => by cases hr)
        (fun p after hp => by cases hp) fun a _ => ?_
      · rw [← Option.some.inj ht]
        rfl
      · simp [Thread.after]
    · refine hgoes hstarted (fun t ht => by cases ht) (fun r' hr => by cases hr)
        (fun p after hp => by cases hp) fun a _ => ?_
      simp [Thread.after]
  | cancelWrite taskId =>
    obtain ⟨r, hstarted⟩ := (h taskId).of_thread hmine fun r hr => by cases hr
    obtain ⟨hinjected, hnone⟩ := hclear
    have hremote := finishCancel_remoteView st.remote taskId now
    have hothers : ∀ id, id ≠ taskId → ({ st with
        remote := finishCancel st.remote taskId now
        cancelled := st.cancelled ++ [taskId] } : DelegationState).view id = st.view id := by
      intro id hid
      refine TaskView.ext ?_ rfl rfl rfl rfl rfl rfl ?_
      · exact (hremote id).trans (if_neg hid)
      · change decide (id ∈ st.cancelled ++ [taskId]) = decide (id ∈ st.cancelled)
        simp [hid]
    refine h.write hold hothers rfl (fun t ht => ?_) (Or.inr (Or.inr ⟨r, ?_⟩))
    · rw [← Option.some.inj ht]
      rfl
    change Started taskId r { st.view taskId with
      remote := (finishCancel st.remote taskId now).remoteView taskId
      threads :=
        Function.update (st.view taskId).threads i (some (.updateGet taskId .canceled .cancel))
      cancelled := decide (taskId ∈ st.cancelled ++ [taskId]) }
    rw [hremote, if_pos rfl, decide_eq_true (mem_concat_self)]
    refine hstarted.cancelWrite ?_ fun j other hother hcallback => ?_
    · refine filter_eq_nil_iff.mpr fun injection hmem => ?_
      simpa using hinjected injection hmem
    · obtain ⟨hother, hid⟩ := threadsOf_eq_some.mp hother
      exact hnone j other hother hcallback hid
  | updateGet taskId state after =>
    obtain ⟨r, hstarted⟩ := (h taskId).of_thread hmine fun r hr => by cases hr
    unfold advance
    simp only
    cases hpending : st.pending taskId with
    | none =>
      refine hgoes hstarted (fun t ht => ?_) (fun r' hr => by cases hr)
        (fun p after hp => by cases hp) fun a _ => ?_
      · rw [← Option.some.inj ht]
        rfl
      · simp [Thread.after]
    | some record =>
      obtain ⟨hstored, -⟩ := hstarted.stored record hpending
      refine hgoes hstarted (fun t ht => ?_) (fun r' hr => by cases hr) (fun p after' hp => ?_)
        fun a _ => ?_
      · rw [← Option.some.inj ht]
        exact hstored.record
      · obtain ⟨rfl, -⟩ := Thread.updatePut.inj (Option.some.inj hp)
        exact ⟨hstored.record, hstored.session, hstored.token⟩
      · simp [Thread.after]
  | updatePut record after =>
    obtain ⟨r, hstarted⟩ := (h record.taskId).of_thread hmine fun r hr => by cases hr
    have hthere : (st.view record.taskId).threads i = some (.updatePut record after) := hmine
    have hstored := hstarted.put i record after hthere
    have hpending : (st.view record.taskId).pending ≠ none :=
      isSome_iff_ne_none.mp hclear
    have hothers : ∀ id, id ≠ record.taskId →
        ({ st with pending := st.pending.save record } : DelegationState).view id = st.view id :=
      fun id hid =>
        TaskView.ext rfl ((PendingTaskStore.save_apply _ _ _).trans (if_neg hid)) rfl rfl
        rfl rfl rfl rfl
    refine h.write hold hothers rfl (fun t ht => ?_) (Or.inr (Or.inr ⟨r, ?_⟩))
    · rw [← Option.some.inj ht]
      rfl
    have hput : Started record.taskId r { st.view record.taskId with pending := some record } :=
      hstarted.put_record hstored hpending
    change Started record.taskId r { st.view record.taskId with
      pending := st.pending.save record record.taskId
      threads := Function.update (st.view record.taskId).threads i
        (some (.finish record.taskId after)) }
    rw [PendingTaskStore.save_apply, if_pos rfl]
    refine hput.replace (fun r' hr => by cases hr) (fun p after hp => by cases hp) fun a _ => ?_
    change _ ↔ ∃ t, (st.view record.taskId).threads i = some t ∧ t.after = some a
    rw [hthere]
    simp [Thread.after]
  | finish taskId after => exact coherent_finish h hthread

theorem coherent_step (h : st.Coherent) {label : DelegationLabel} (hserial : st.Serial label) :
    (st.step label).Coherent := by
  cases label with
  | startTask i args taskNanoid sessionNanoid now =>
    unfold step
    simp only
    split
    · rename_i hfree
      exact coherent_startTask h hfree hserial taskNanoid sessionNanoid now
    · exact h
  | checkTask i taskId =>
    unfold step
    simp only
    split
    · rename_i hfree
      exact h.ask hfree.1 hfree.2 rfl (fun r hr => by cases hr) rfl
    · exact h
  | cancelTask i taskId =>
    unfold step
    simp only
    split
    · rename_i hfree
      exact h.ask hfree.1 hfree.2 rfl (fun r hr => by cases hr) rfl
    · exact h
  | deliver i position =>
    unfold step
    simp only
    split
    · rename_i n hfree hn
      obtain ⟨hsaving, hclear⟩ := hserial n hn
      exact coherent_deliver h (mem_of_getElem? hn) hfree hsaving hclear
    · exact h
  | advance i isStreaming now =>
    unfold step
    simp only
    split
    · rename_i thread hthread
      exact coherent_advance h hthread isStreaming now hserial
    · exact h
  | settle taskId outcome now =>
    unfold step
    simp only
    split
    · rename_i call hcall
      exact coherent_settle h hcall outcome now
    · exact h

theorem coherent_start : ({} : DelegationState).Coherent :=
  fun _ => Or.inl ⟨rfl, rfl, fun _ => rfl, rfl, rfl, rfl, rfl, rfl⟩

/-- No result is injected twice or elsewhere, and none of a canceled task. -/
def InjectedOnce (st : DelegationState) : Prop :=
  ∀ r ∈ st.started,
    (st.injected.filter fun injection => injection.taskId = r.taskId).length ≤ 1 ∧
    ∀ injection ∈ st.injected, injection.taskId = r.taskId →
      injection.sessionId = r.originSessionId ∧ r.taskId ∉ st.cancelled

/-- Nothing is under way: no operation waits, and every notification has been delivered. -/
def Quiescent (st : DelegationState) : Prop :=
  (∀ i, st.threads i = none) ∧ ∀ n ∈ st.sent, n ∈ st.delivered

/-- Every started task that is terminal has lost its record, and if it was not canceled its result
has been injected once, into the session that started it. -/
def ResultsDelivered (st : DelegationState) : Prop :=
  ∀ r ∈ st.started, ∀ state, st.remote.stateOf r.taskId = some state →
    isTerminalState state = true → st.pending r.taskId = none ∧
      (r.taskId ∉ st.cancelled → ∃ injection,
        (st.injected.filter fun injection => injection.taskId = r.taskId) = [injection] ∧
          injection.sessionId = r.originSessionId)

theorem Coherent.started (h : st.Coherent) {r : PendingTask} (hr : r ∈ st.started) :
    Started r.taskId r (st.view r.taskId) := by
  have hmem : r ∈ (st.view r.taskId).started := mem_filter.mpr ⟨hr, by simp⟩
  rcases h r.taskId with hun | ⟨j, r', hsaving⟩ | ⟨r', hstarted⟩
  · rw [hun.started] at hmem
    exact absurd hmem not_mem_nil
  · rw [hsaving.started] at hmem
    exact absurd hmem not_mem_nil
  · rw [hstarted.started, mem_singleton] at hmem
    rw [← hmem] at hstarted
    exact hstarted

theorem Coherent.injectedOnce (h : st.Coherent) : st.InjectedOnce := by
  intro r hr
  have hstarted := h.started hr
  -- nothing, or one result of a task that was not canceled
  have hinjected : (st.view r.taskId).injected = [] ∨
      ∃ injection, (st.view r.taskId).injected = [injection] ∧
        injection.sessionId = r.originSessionId ∧ r.taskId ∉ st.cancelled := by
    cases hpending : (st.view r.taskId).pending with
    | some p => exact Or.inl (hstarted.stored p hpending).2.1
    | none =>
      rcases hstarted.gone hpending with ⟨⟨injection, hone, hsession⟩, hcancelled⟩ | ⟨hnil, -⟩
      · exact Or.inr ⟨injection, hone, hsession, of_decide_eq_false hcancelled⟩
      · exact Or.inl hnil
  have hmem : ∀ injection ∈ st.injected, injection.taskId = r.taskId →
      injection ∈ (st.view r.taskId).injected :=
    fun injection hmem hid => mem_filter.mpr ⟨hmem, by simpa using hid⟩
  rcases hinjected with hnil | ⟨one, hone, hsession, hcancelled⟩
  · refine ⟨le_of_eq_of_le (congrArg List.length hnil) (Nat.zero_le 1), fun injection hin hid => ?_⟩
    have hin' := hmem injection hin hid
    rw [hnil] at hin'
    exact absurd hin' not_mem_nil
  · refine ⟨le_of_eq (congrArg List.length hone), fun injection hin hid => ?_⟩
    have hin' := hmem injection hin hid
    rw [hone, mem_singleton] at hin'
    rw [hin']
    exact ⟨hsession, hcancelled⟩

theorem Coherent.resultsDelivered (h : st.Coherent) (hquiescent : st.Quiescent) :
    st.ResultsDelivered := by
  obtain ⟨hthreads, hdelivered⟩ := hquiescent
  intro r hr state hstate hterminal
  have hstarted := h.started hr
  have hnone : ∀ i, (st.view r.taskId).threads i = none := by
    intro i
    change (st.threads i).filter _ = none
    rw [hthreads]
    rfl
  have hpending : (st.view r.taskId).pending = none := by
    by_contra hsome
    obtain ⟨p, hp⟩ := ne_none_iff_exists'.mp hsome
    obtain ⟨-, -, hcancel⟩ := hstarted.stored p hp
    -- a canceled task would still have its cancel under way
    have hcancelled : (st.view r.taskId).cancelled = false := by
      rw [Bool.eq_false_iff]
      intro htrue
      obtain ⟨i, thread, hthread, -⟩ := hcancel htrue
      rw [hnone] at hthread
      cases hthread
    -- its result has been delivered
    have hsent : (st.view r.taskId).sent ≠ [] := by
      rcases hstarted.issued.running with ⟨call, -, -, hworking | htrue⟩ | ⟨-, hsent⟩
      · have hclash := (show st.remote.stateOf r.taskId = _ from hworking).symm.trans hstate
        rw [← Option.some.inj hclash] at hterminal
        cases hterminal
      · rw [hcancelled] at htrue
        cases htrue
      · exact hsent
    obtain ⟨n, hn⟩ := exists_mem_of_ne_nil _ hsent
    obtain ⟨hmem, hid⟩ := mem_filter.mp hn
    have hin : n ∈ (st.view r.taskId).delivered := mem_filter.mpr ⟨hdelivered n hmem, hid⟩
    rcases hstarted.answered (ne_nil_of_mem hin) with hgone | htrue | ⟨i, thread, hthread, -⟩
    · exact hsome hgone
    · rw [hcancelled] at htrue
      cases htrue
    · rw [hnone] at hthread
      cases hthread
  refine ⟨hpending, fun hcancelled => ?_⟩
  rcases hstarted.gone hpending with ⟨hone, -⟩ | ⟨-, htrue⟩
  · exact hone
  · exact absurd (of_decide_eq_true htrue) hcancelled

/-- Through a run whose steps are serial, the result of every started task that ends without being
canceled is injected exactly once into the session that started it, and no record stays behind. -/
theorem results_exactly_once {labels : List DelegationLabel}
    (h : Run.Allowed Serial step {} labels) (before after : List DelegationLabel)
    (hsplit : labels = before ++ after) :
    (Run.run step {} before).InjectedOnce ∧
      ((Run.run step {} before).Quiescent → (Run.run step {} before).ResultsDelivered) := by
  have hcoherent : (Run.run step {} before).Coherent :=
    Run.invariant_of_allowed (I := Coherent) coherent_start (fun _ _ hs he => coherent_step hs he) h
      before after hsplit
  exact ⟨hcoherent.injectedOnce, hcoherent.resultsDelivered⟩

/-- A task that is started from the session `chat`. -/
def reportArgs : StartArgs where
  message := "report"
  messageId := "m"
  sessionId := "chat"
  targetAgentName := "writer"
  callbackUrl := "https://agent/a2a-callback/caller"
  webhookToken := "secret"
  token_ne := by decide
  depth := 0

/-- The record is saved, the result is pushed and delivered, and the callback runs to its end. -/
def reportRun : List DelegationLabel :=
  [.startTask 0 reportArgs "task" "session" 0, .advance 0 none 1, .settle "task" (.ok "done") 2,
    .deliver 0 0, .advance 0 none 3, .advance 0 none 4, .advance 0 none 5]

theorem serial_advance {thread : Thread} (hthread : st.threads i = some thread)
    (h : match thread with
      | .cancelWrite _ => False
      | .updatePut record _ => (st.pending record.taskId).isSome = true
      | _ => True) (isStreaming : Option (String → Bool)) (now : Instant) :
    st.Serial (.advance i isStreaming now) := by
  intro other hother
  obtain rfl := Option.some.inj (hthread.symm.trans hother)
  cases thread with
  | cancelWrite taskId => exact absurd h id
  | _ => exact h

theorem reportRun_serial : Run.Allowed Serial step {} reportRun := by
  unfold reportRun
  refine Run.allowed_cons (show reportArgs.message ≠ "" by decide) ?_
  refine Run.allowed_cons (serial_advance rfl trivial _ _) ?_
  refine Run.allowed_cons trivial ?_
  refine Run.allowed_cons ?_ ?_
  · -- the only operation so far has ended
    have hfree : ∀ j, (((({} : DelegationState).step
        (.startTask 0 reportArgs "task" "session" 0)).step (.advance 0 none 1)).step
          (.settle "task" (.ok "done") 2)).threads j = none := by
      intro j
      by_cases hj : j = 0
      · subst hj
        rfl
      · exact (update_of_ne hj _ _).trans (update_of_ne hj _ _)
    refine fun n _ => ⟨fun j record hthread => ?_, fun _ => ⟨?_, fun j thread hthread => ?_⟩⟩
    · exact absurd ((hfree j).symm.trans hthread) (by simp)
    · exact not_mem_nil
    · exact absurd ((hfree j).symm.trans hthread) (by simp)
  · refine Run.allowed_cons (serial_advance rfl trivial _ _) ?_
    refine Run.allowed_cons (serial_advance rfl rfl _ _) ?_
    exact Run.allowed_cons (serial_advance rfl trivial _ _) (Run.allowed_nil _ _ _)

/-- The result of this run is in its session. -/
theorem results_exactly_once_report :
    (Run.run step {} reportRun).InjectedOnce ∧
      ((Run.run step {} reportRun).Quiescent → (Run.run step {} reportRun).ResultsDelivered) :=
  results_exactly_once reportRun_serial reportRun [] (append_nil _).symm

/-- The result is pushed and delivered while `start_task` waits for its answer. -/
def overtakenRun : List DelegationLabel :=
  [.startTask 0 reportArgs "task" "session" 0, .settle "task" (.ok "done") 1, .deliver 1 0,
    .advance 0 none 2]

/-- The notification finds no record and is refused, and nothing brings the result again. -/
theorem overtaken_result_lost : ¬ ∀ labels,
    (Run.run step {} labels).InjectedOnce ∧
      ((Run.run step {} labels).Quiescent → (Run.run step {} labels).ResultsDelivered) := by
  intro hall
  obtain ⟨-, hdelivered⟩ := hall overtakenRun
  have hquiescent : (Run.run step {} overtakenRun).Quiescent := by
    refine ⟨fun j => ?_, fun n hn => hn⟩
    by_cases hj : j = 0
    · subst hj
      rfl
    · exact (update_of_ne hj _ _).trans (update_of_ne hj _ _)
  have hstate : (Run.run step {} overtakenRun).remote.stateOf "task" = some .completed := rfl
  have hstarted : ∃ r ∈ (Run.run step {} overtakenRun).started, r.taskId = "task" :=
    ⟨_, mem_cons_self, rfl⟩
  obtain ⟨r, hr, hid⟩ := hstarted
  rw [← hid] at hstate
  have hpending := (hdelivered hquiescent r hr _ hstate rfl).1
  rw [hid] at hpending
  exact absurd hpending (some_ne_none _)

end DelegationState

end CrabbyKit.A2A
