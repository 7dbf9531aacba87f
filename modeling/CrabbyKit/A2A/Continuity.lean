import CrabbyKit.A2A.Server
import CrabbyKit.Session.Invariant

/-!
# The session of a context

A row carries its context id where the id of its session belongs, and nothing replaces it. So
messages of one context share a session, and a row names the session of its prompt, exactly as long
as contexts are named by the ids of their sessions.
-/

namespace CrabbyKit.A2A

open List

namespace ServerState

/-- A new prompt runs in the session of its context, if that is still there, and in no session of
another context. -/
def Continues (s s' : ServerState) : Prop :=
  ∀ call, s'.ran = s.ran ++ [call] → ∀ old ∈ s.ran,
    (old.contextId = call.contextId → (s.sessionStore.get old.sessionId).isSome →
      call.sessionId = old.sessionId) ∧
    (old.contextId ≠ call.contextId → call.sessionId ≠ old.sessionId)

/-- The row of a task names the session in which its prompt was run. -/
def Recorded (s : ServerState) : Prop :=
  ∀ call ∈ s.ran, s.taskStore.getSessionId call.taskId = some call.sessionId

/-- What a step keeps of contexts and their sessions. -/
def StepContinuous (s : ServerState) (label : ServerLabel) : Prop :=
  s.Continues (s.step label) ∧ (s.step label).Recorded

/-- The request is valid, and its task id is new. -/
def Accepted (s : ServerState) (stream : Bool) (params : MessageSendParams) (taskNanoid : String) :
    Prop :=
  validateMessageParams params = none ∧
    (if stream then none else checkReferencedTask s params) = none ∧
    s.taskStore.row taskNanoid = none

/-- The context of a request with a text is the id of a session: of one that exists, or of the one
that is made for it. A session that cannot be made has no prompt. -/
def NamesSession (s : ServerState) : ServerLabel → Prop
  | .message stream params taskNanoid sessionNanoid _ =>
    s.Accepted stream params taskNanoid →
      (SessionStore.truthy (extractText params.message)).isSome →
      let contextId := contextOf taskNanoid params.message
      contextId ≠ "" ∧ (s.sessionStore.get contextId).isSome ∨ sessionNanoid = contextId ∨
        (s.sessionStore.get sessionNanoid).isSome
  | _ => True

end ServerState

open ServerState

variable {s s' : ServerState} {taskId contextId sessionNanoid : String} {now : Instant}

variable {params : MessageSendParams}

theorem createTask_row (hrows : s.taskStore.Placeholders)
    (h : createTask s taskId params now = some s') :
    s.taskStore.row taskId = none ∧ ∃ store : TaskStore, s' = { s with taskStore := store } ∧
      ∃ row : TaskRow, store.tasks = s.taskStore.tasks ++ [row] ∧ row.id = taskId ∧
        row.contextId = contextOf taskId params.message ∧ row.sessionId = row.contextId := by
  unfold createTask at h
  simp only at h
  split at h
  · cases h
  · rename_i taskStore hcreate
    obtain rfl := Option.some.inj h
    obtain ⟨hnone, htasks, -⟩ := TaskStore.create_eq_some hcreate
    refine ⟨hnone, _, rfl, ⟨taskId, contextOf taskId params.message,
      (s.taskStore.getSessionIdForContext (contextOf taskId params.message)).getD
        (contextOf taskId params.message), { state := .submitted, timestamp := now },
      params.message.metadata, now, now⟩, ?_, rfl, rfl, ?_⟩
    · cases params.configuration.bind MessageSendConfiguration.pushNotificationConfig with
      | none => exact htasks
      | some config => exact htasks
    · cases hfound : s.taskStore.getSessionIdForContext (contextOf taskId params.message) with
      | none => rfl
      | some found => exact hrows.getSessionIdForContext hfound

structure TaskMade (s : ServerState) (taskId contextId : String) (store : TaskStore) : Prop where
  fresh : s.taskStore.row taskId = none
  rows : store.Placeholders
  kept : ∀ id sessionId, s.taskStore.getSessionId id = some sessionId →
    store.getSessionId id = some sessionId
  recorded : store.getSessionId taskId = some contextId
  found : store.getSessionIdForContext contextId = some contextId

theorem createTask_made (hrows : s.taskStore.Placeholders)
    (h : createTask s taskId params now = some s') :
    ∃ store : TaskStore, s' = { s with taskStore := store } ∧
      TaskMade s taskId (contextOf taskId params.message) store := by
  obtain ⟨hfresh, store, rfl, row, htasks, hid, hcontext, hsession⟩ := createTask_row hrows h
  have hrows' : store.Placeholders := by
    intro other hother
    rw [htasks] at hother
    rcases mem_append.mp hother with hold | hnew
    · exact hrows other hold
    · rw [mem_singleton.mp hnew]
      exact hsession
  have hlookup : ∀ id, store.row id = (s.taskStore.row id).or
      (if row.id = id then some row else none) := by
    intro id
    unfold TaskStore.row
    rw [htasks, Table.lookup_concat]
  refine ⟨store, rfl, hfresh, hrows', fun id sessionId hold => ?_, ?_, ?_⟩
  · obtain ⟨other, hother, rfl⟩ := Option.map_eq_some_iff.mp hold
    unfold TaskStore.getSessionId
    rw [hlookup, hother]
    rfl
  · unfold TaskStore.getSessionId
    rw [hlookup, hfresh, if_pos hid, ← hcontext, ← hsession]
    rfl
  · rw [← hcontext]
    refine hrows'.getSessionIdForContext_of_mem ?_
    rw [htasks]
    exact mem_concat_self

theorem resolveSession_reuses (text sessionNanoid : String) (now : Instant)
    (hfound : s.taskStore.getSessionIdForContext contextId = some contextId)
    (hexists : contextId ≠ "" ∧ (s.sessionStore.get contextId).isSome) :
    resolveSession s contextId text sessionNanoid now = .ok (s.sessionStore, contextId) := by
  unfold resolveSession
  rw [hfound, Option.filter_some, if_pos (by simpa using hexists)]

theorem resolveSession_creates (text sessionNanoid : String) (now : Instant)
    (hfound : s.taskStore.getSessionIdForContext contextId = some contextId)
    (hmissing : ¬(contextId ≠ "" ∧ (s.sessionStore.get contextId).isSome)) :
    ((s.sessionStore.get sessionNanoid).isSome ∧
      ∃ e, resolveSession s contextId text sessionNanoid now = .error e) ∨
    s.sessionStore.get sessionNanoid = none ∧ ∃ sessionStore,
      resolveSession s contextId text sessionNanoid now = .ok (sessionStore, sessionNanoid) := by
  unfold resolveSession
  rw [hfound, Option.filter_some, if_neg (by simpa using hmissing)]
  simp only
  cases hget : s.sessionStore.get sessionNanoid with
  | some session =>
    left
    refine ⟨rfl, .uniqueConstraint "sessions.id", ?_⟩
    simp [SessionStore.create, hget]
  | none =>
    right
    refine ⟨rfl, ?_⟩
    rw [SessionStore.create_of_none hget]
    exact ⟨_, rfl⟩

theorem handleMessage_accepted {stream : Bool}
    (h : s.Accepted stream params taskId) (sessionNanoid : String) (now : Instant) :
    ∃ created, createTask s taskId params now = some created ∧
      handleMessage stream s params taskId sessionNanoid now =
        .ok (execute stream created taskId params sessionNanoid now) := by
  obtain ⟨hvalid, hcheck, hnew⟩ := h
  have hcreated : ∃ created, createTask s taskId params now = some created := by
    unfold createTask TaskStore.create
    rw [hnew]
    exact ⟨_, rfl⟩
  obtain ⟨created, hcreated⟩ := hcreated
  refine ⟨created, hcreated, ?_⟩
  unfold handleMessage
  rw [hvalid]
  simp only
  rw [hcheck]
  simp only
  rw [hcreated]

theorem accepted_of_handleMessage {stream : Bool} {executed : Executed}
    (hnew : s.taskStore.row taskId = none)
    (h : handleMessage stream s params taskId sessionNanoid now = .ok executed) :
    s.Accepted stream params taskId := by
  unfold handleMessage at h
  split at h
  · cases h
  · rename_i hvalid
    split at h
    · cases h
    · rename_i hcheck
      exact ⟨hvalid, hcheck, hnew⟩

/-- What a request leaves in the task store, and the prompt that it starts. -/
structure Requested (s : ServerState) (label : ServerLabel) (s' : ServerState) : Prop where
  rows : s'.taskStore.Placeholders
  kept : ∀ id sessionId, s.taskStore.getSessionId id = some sessionId →
    s'.taskStore.getSessionId id = some sessionId
  ran : s'.ran = s.ran ∧ s.NamesSession label ∨
    ∃ call, s'.ran = s.ran ++ [call] ∧
      s'.taskStore.getSessionId call.taskId = some call.contextId ∧
      (s.NamesSession label ↔ call.sessionId = call.contextId)

theorem message_requested (hrows : s.taskStore.Placeholders) (stream : Bool)
    (params : MessageSendParams) (taskNanoid sessionNanoid : String) (now : Instant) :
    Requested s (.message stream params taskNanoid sessionNanoid now)
      (s.step (.message stream params taskNanoid sessionNanoid now)) := by
  change Requested s _ (afterMessage stream s
    (handleMessage stream s params taskNanoid sessionNanoid now))
  obtain ⟨e, he⟩ | ⟨created, hcreated, hok⟩ :=
    handleMessage_cases stream s params taskNanoid sessionNanoid now
  · rw [he]
    refine ⟨hrows, fun _ _ h => h, Or.inl ⟨rfl, fun haccepted => ?_⟩⟩
    obtain ⟨created, -, hok⟩ := handleMessage_accepted haccepted sessionNanoid now
    rw [he] at hok
    cases hok
  rw [hok]
  obtain ⟨store, rfl, hmade⟩ := createTask_made hrows hcreated
  cases htext : SessionStore.truthy (extractText params.message) with
  | none =>
    rw [execute_no_text htext]
    have hnames : s.NamesSession (.message stream params taskNanoid sessionNanoid now) := by
      intro _ hsome
      rw [htext] at hsome
      cases hsome
    refine ⟨?_, fun id sessionId hold => ?_, Or.inl ⟨?_, hnames⟩⟩
    · simp only [afterMessage, answer_taskStore]
      exact hmade.rows.updateStatus _ _ _
    · simp only [afterMessage, answer_taskStore]
      rw [TaskStore.getSessionId_updateStatus]
      exact hmade.kept id sessionId hold
    · simp only [afterMessage, answer_ran]
  | some text =>
    have htextSome : (SessionStore.truthy (extractText params.message)).isSome := by
      rw [htext]
      rfl
    have haccepted := accepted_of_handleMessage hmade.fresh hok
    have hprompts : ∀ sessionStore sessionId,
        resolveSession { s with taskStore := store } (contextOf taskNanoid params.message) text
          sessionNanoid now = .ok (sessionStore, sessionId) →
        (s.NamesSession (.message stream params taskNanoid sessionNanoid now) ↔
          sessionId = contextOf taskNanoid params.message) →
        Requested s (.message stream params taskNanoid sessionNanoid now) (afterMessage stream s
          (.ok (execute stream { s with taskStore := store } taskNanoid params sessionNanoid
            now))) := by
      intro sessionStore sessionId hsession hnames
      rw [execute_prompts htext hsession]
      simp only [afterMessage]
      cases (params.configuration.bind MessageSendConfiguration.blocking).getD true with
      | true =>
        refine ⟨hmade.rows.updateStatus _ _ _, fun id sessionId hold => ?_,
          Or.inr ⟨_, rfl, ?_, hnames⟩⟩
        · exact (TaskStore.getSessionId_updateStatus _ _ _ _ _).trans (hmade.kept id sessionId hold)
        · exact (TaskStore.getSessionId_updateStatus _ _ _ _ _).trans hmade.recorded
      | false =>
        simp only [Bool.false_eq_true, if_false]
        refine ⟨?_, fun id sessionId hold => ?_, Or.inr ⟨_, answer_ran _ _ _, ?_, hnames⟩⟩
        · rw [answer_taskStore]
          exact hmade.rows.updateStatus _ _ _
        · rw [answer_taskStore]
          exact (TaskStore.getSessionId_updateStatus _ _ _ _ _).trans (hmade.kept id sessionId hold)
        · rw [answer_taskStore]
          exact (TaskStore.getSessionId_updateStatus _ _ _ _ _).trans hmade.recorded
    by_cases hexists : contextOf taskNanoid params.message ≠ "" ∧
        (s.sessionStore.get (contextOf taskNanoid params.message)).isSome
    · exact hprompts _ _ (resolveSession_reuses _ _ _ hmade.found hexists)
        ⟨fun _ => rfl, fun _ _ _ => Or.inl hexists⟩
    · rcases resolveSession_creates (s := { s with taskStore := store }) text sessionNanoid now
        hmade.found hexists with
        ⟨htaken, e, hsession⟩ | ⟨hfree, sessionStore, hsession⟩
      · rw [execute_threw htext hsession]
        exact ⟨hmade.rows, hmade.kept, Or.inl ⟨rfl, fun _ _ => Or.inr (Or.inr htaken)⟩⟩
      · refine hprompts sessionStore sessionNanoid hsession ⟨fun hnames => ?_, fun heq _ _ => ?_⟩
        · rcases hnames haccepted htextSome with h | h | h
          · exact absurd h hexists
          · exact h
          · rw [show s.sessionStore.get sessionNanoid = none from hfree] at h
            cases h
        · exact Or.inr (Or.inl heq)

/-- Every row and every prompt has its context for a session. -/
structure ContextNamed (s : ServerState) : Prop where
  rows : s.taskStore.Placeholders
  recorded : ∀ call ∈ s.ran, s.taskStore.getSessionId call.taskId = some call.contextId
  sessions : ∀ call ∈ s.ran, call.sessionId = call.contextId

theorem step_requested (hrows : s.taskStore.Placeholders) (label : ServerLabel) :
    Requested s label (s.step label) := by
  have hsame : ∀ s' : ServerState, s'.taskStore = s.taskStore → s'.ran = s.ran →
      s.NamesSession label → Requested s label s' := by
    intro s' hstore hran hnames
    refine ⟨?_, fun id sessionId hold => ?_, Or.inl ⟨hran, hnames⟩⟩
    · rw [hstore]
      exact hrows
    · rw [hstore]
      exact hold
  have hupdated : ∀ (s' : ServerState) (taskId : String) (status : TaskStatus) (now : Instant),
      s'.taskStore = s.taskStore.updateStatus taskId status now → s'.ran = s.ran →
      s.NamesSession label → Requested s label s' := by
    intro s' taskId status now hstore hran hnames
    refine ⟨?_, fun id sessionId hold => ?_, Or.inl ⟨hran, hnames⟩⟩
    · rw [hstore]
      exact hrows.updateStatus _ _ _
    · rw [hstore, TaskStore.getSessionId_updateStatus]
      exact hold
  cases label with
  | message stream params taskNanoid sessionNanoid now =>
    exact message_requested hrows stream params taskNanoid sessionNanoid now
  | settle taskId outcome now =>
    cases hcall : s.promptOf taskId with
    | none =>
      rw [ServerState.step_settle_none hcall]
      exact hsame s rfl rfl trivial
    | some call =>
      rw [ServerState.step_settle_some hcall]
      refine hupdated _ _ _ _ (settle_taskStore _ _ _ _) ?_ trivial
      exact settle_ran _ _ _ _
  | getTask taskId => exact hsame _ rfl rfl trivial
  | listTasks contextId limit offset => exact hsame _ rfl rfl trivial
  | cancel taskId isStreaming =>
    change Requested s _ (if cancelGoesOn s taskId isStreaming then _ else s)
    split
    · exact hsame _ rfl rfl trivial
    · exact hsame s rfl rfl trivial
  | finishCancel taskId now =>
    change Requested s _ (if taskId ∈ s.cancels then finishCancel s taskId now else s)
    split
    · exact hupdated _ taskId _ now rfl rfl trivial
    · exact hsame s rfl rfl trivial
  | createSession opts nanoid now =>
    obtain ⟨sessionStore, hstep⟩ := s.step_createSession opts nanoid now
    rw [hstep]
    exact hsame _ rfl rfl trivial
  | deleteSession sessionId => exact hsame _ rfl rfl trivial

theorem contextNamed_step {label : ServerLabel} (hnames : s.NamesSession label)
    (hs : ContextNamed s) : ContextNamed (s.step label) ∧ s.Continues (s.step label) := by
  have hstep := step_requested hs.rows label
  have hold : ∀ call ∈ s.ran, (s.step label).taskStore.getSessionId call.taskId =
      some call.contextId := fun call hcall => hstep.kept _ _ (hs.recorded call hcall)
  obtain ⟨hran, -⟩ | ⟨call, hran, hrecorded, hiff⟩ := hstep.ran
  · refine ⟨⟨hstep.rows, ?_, ?_⟩, fun call hcall => ?_⟩
    · rw [hran]
      exact hold
    · rw [hran]
      exact hs.sessions
    · rw [hran] at hcall
      exact absurd hcall (by simp)
  · have hsession := hiff.mp hnames
    refine ⟨⟨hstep.rows, ?_, ?_⟩, fun new hnew old hmem => ?_⟩
    · rw [hran]
      exact forall_mem_append.mpr ⟨hold, forall_mem_singleton.mpr hrecorded⟩
    · rw [hran]
      exact forall_mem_append.mpr ⟨hs.sessions, forall_mem_singleton.mpr hsession⟩
    · rw [hran] at hnew
      obtain rfl := singleton_inj.mp (append_cancel_left hnew)
      rw [hsession, hs.sessions old hmem]
      exact ⟨fun heq _ => heq.symm, fun hne heq => hne heq.symm⟩

theorem namesSession_of_recorded {label : ServerLabel} (hs : ContextNamed s)
    (h : (s.step label).Recorded) : s.NamesSession label := by
  have hstep := step_requested hs.rows label
  obtain ⟨-, hnames⟩ | ⟨call, hran, hrecorded, hiff⟩ := hstep.ran
  · exact hnames
  · have hcall := h call (by rw [hran]; exact mem_concat_self)
    rw [hrecorded] at hcall
    exact hiff.mpr (Option.some.inj hcall).symm

theorem contextNamed_start : ContextNamed {} where
  rows _ h := absurd h not_mem_nil
  recorded _ h := absurd h not_mem_nil
  sessions _ h := absurd h not_mem_nil

/-- Contexts are continued and tasks name their sessions through a run exactly when every request
whose text is sent has the id of its session as its context. -/
theorem context_continuity_iff (labels : List ServerLabel) :
    Run.Allowed StepContinuous ServerState.step {} labels ↔
      Run.Allowed NamesSession ServerState.step {} labels := by
  refine Run.allowed_congr contextNamed_start ?_ ?_ labels
  · intro s label hs
    refine ⟨fun h => namesSession_of_recorded hs h.2, fun h => ?_⟩
    obtain ⟨hafter, hcontinues⟩ := contextNamed_step h hs
    refine ⟨hcontinues, fun call hcall => ?_⟩
    rw [hafter.recorded call hcall, hafter.sessions call hcall]
  · exact fun s label hs h => (contextNamed_step h hs).1

/-- A message of the context `report`. -/
def reportMessage (messageId text taskNanoid sessionNanoid : String) (now : Instant) :
    ServerLabel :=
  .message false
    { message :=
        { messageId := messageId, role := .user, parts := [.text text], contextId := some "report" }
      configuration := some { blocking := some false } } taskNanoid sessionNanoid now

/-- Two messages of one context run in two sessions, and the rows of both tasks name neither. -/
theorem context_split :
    let s := Run.run ServerState.step {}
      [reportMessage "m1" "begin" "task1" "session1" 0,
        reportMessage "m2" "go on" "task2" "session2" 1]
    s.ran.map (fun call => (call.contextId, call.sessionId)) =
        [("report", "session1"), ("report", "session2")] ∧
      (s.sessionStore.get "session1").isSome = true ∧
      s.taskStore.getSessionId "task1" = some "report" ∧
      ¬ ∀ labels, Run.Allowed StepContinuous ServerState.step {} labels := by
  refine ⟨by decide, by decide, by decide, fun hall => ?_⟩
  have hstep := hall [reportMessage "m1" "begin" "task1" "session1" 0] [] _ [] rfl
  have hcall := hstep.2 ⟨"task1", "report", "session1", "begin", false, false⟩ (by decide)
  revert hcall
  decide

end CrabbyKit.A2A
