import CrabbyKit.A2A.Continuity
import CrabbyKit.A2A.Finality

/-!
# Streamed requests

`message/stream` executes the message before the reader of its events subscribes. What the executor
emits before its first await is lost.
-/

namespace CrabbyKit.A2A

open List Option

/-- A streamed request: the events of its bus so far, and the reader once it has subscribed. -/
structure StreamState where
  server : ServerState
  taskId : String
  emitted : List BusEvent := []
  queue : Option EventQueue := none
  /-- The executor has thrown, which is not handled yet. -/
  thrown : Option String := none

namespace StreamState

/-- Dispatch events to the reader, if there is one. -/
def emit (st : StreamState) (events : List BusEvent) : StreamState :=
  { st with
    emitted := st.emitted ++ events
    queue := st.queue.map fun queue => events.foldl (EventQueue.receive st.taskId) queue }

/-- The generator of the reader is started. -/
def subscribe (st : StreamState) : StreamState := { st with queue := some {} }

/-- The stream of a request whose first part has been executed. -/
def opened (s : ServerState) (taskId : String) (executed : Executed) : StreamState :=
  let st : StreamState :=
    { server := afterMessage true s (.ok executed)
      taskId := taskId
      thrown := match executed.result with
        | .threw message => some message
        | _ => none }
  (st.emit executed.events).subscribe

/-- `start` of the stream of `handleStreamMessage`: execute, then pipe. -/
def start (s : ServerState) (params : MessageSendParams) (taskNanoid sessionNanoid : String)
    (now : Instant) : Except RpcError StreamState :=
  match handleMessage true s params taskNanoid sessionNanoid now with
  | .error e => .error e
  | .ok executed => .ok (opened s taskNanoid executed)

/-- What goes on while a stream is open: anything at the server, the rejection of the executor, and
the reader. -/
inductive Label
  | server (label : ServerLabel)
  | caught
  | resume

def eventsOf (st : StreamState) : ServerLabel → List BusEvent
  | .settle taskId outcome now =>
    if taskId = st.taskId then
      match st.server.promptOf taskId with
      | some call => (settle st.server call outcome now).2
      | none => []
    else []
  | _ => []

def step (st : StreamState) : Label → StreamState
  | .server label => { st with server := st.server.step label }.emit (st.eventsOf label)
  | .caught =>
    match st.thrown with
    | some message => { st with thrown := none }.emit [.error st.taskId message]
    | none => st
  | .resume => { st with queue := st.queue.map EventQueue.resume }

/-- The executor and the continuation of its prompt are done. -/
def Finished (st : StreamState) : Prop := st.server.promptOf st.taskId = none ∧ st.thrown = none

/-- The reader has nothing more to do. -/
def ReaderIdle (st : StreamState) : Prop := ∀ queue ∈ st.queue, queue.Idle

/-- The events up to the first final one were delivered in their order, and the stream is closed. -/
def Complete (st : StreamState) : Prop :=
  ∃ queue, st.queue = some queue ∧ queue.closed = true ∧
    ∃ first later, st.emitted = first ++ later ∧
      queue.delivered = first.filterMap BusEvent.toStream ∧
      (first.any BusEvent.endsQueue = true ∨ later = [])

end StreamState

open ServerState

variable {s : ServerState}

def PromptsKnown (s : ServerState) : Prop := ∀ call ∈ s.prompts, s.stateOf call.taskId ≠ none

/-- Tasks stay stored, and a new prompt is one of a new task. -/
structure Grows (s s' : ServerState) : Prop where
  known : ∀ id, s.stateOf id ≠ none → s'.stateOf id ≠ none
  prompts : ∀ call ∈ s'.prompts, call ∈ s.prompts ∨
    s.stateOf call.taskId = none ∧ s'.stateOf call.taskId ≠ none

theorem grows_update {s' : ServerState} {taskId : String} {status : TaskStatus} {now : Instant}
    (hstore : s'.taskStore = s.taskStore.updateStatus taskId status now)
    (hprompts : ∀ call ∈ s'.prompts, call ∈ s.prompts) : Grows s s' := by
  refine ⟨fun id hknown hnone => ?_, fun call hcall => Or.inl (hprompts call hcall)⟩
  unfold ServerState.stateOf at hnone
  rw [hstore, TaskStore.stateOf_updateStatus] at hnone
  exact hknown (map_eq_none_iff.mp hnone)

theorem grows_step (s : ServerState) (label : ServerLabel) : Grows s (s.step label) := by
  have hsame : ∀ s' : ServerState, s'.taskStore = s.taskStore → s'.prompts = s.prompts →
      Grows s s' := by
    intro s' hstore hprompts
    refine ⟨fun id hknown => ?_, fun call hcall => Or.inl ?_⟩
    · unfold ServerState.stateOf
      rw [hstore]
      exact hknown
    · rwa [hprompts] at hcall
  cases label with
  | message stream params taskNanoid sessionNanoid now =>
    obtain hnothing | ⟨state, hcreated⟩ :=
      message_created stream s params taskNanoid sessionNanoid now
    · rw [hnothing]
      exact hsame s rfl rfl
    · refine ⟨fun id hknown => ?_, fun call hcall => ?_⟩
      · rw [hcreated.states]
        split
        · exact some_ne_none _
        · exact hknown
      · refine (hcreated.prompts call hcall).imp_right fun hnew => ?_
        rw [hnew.1, hcreated.states, if_pos rfl]
        exact ⟨hcreated.fresh, some_ne_none _⟩
  | settle taskId outcome now =>
    cases hcall : s.promptOf taskId with
    | none =>
      rw [ServerState.step_settle_none hcall]
      exact hsame _ rfl rfl
    | some call =>
      rw [ServerState.step_settle_some hcall]
      refine grows_update (settle_taskStore _ _ _ _) fun call hcall => ?_
      rw [settle_prompts] at hcall
      exact mem_of_mem_filter hcall
  | getTask taskId => exact hsame _ rfl rfl
  | listTasks contextId limit offset => exact hsame _ rfl rfl
  | cancel taskId isStreaming =>
    change Grows s (if cancelGoesOn s taskId isStreaming then _ else s)
    split
    · exact hsame _ rfl rfl
    · exact hsame _ rfl rfl
  | finishCancel taskId now =>
    change Grows s (if taskId ∈ s.cancels then finishCancel s taskId now else s)
    split
    · exact grows_update rfl fun _ h => h
    · exact hsame _ rfl rfl
  | createSession opts nanoid now =>
    obtain ⟨sessionStore, hstep⟩ := s.step_createSession opts nanoid now
    rw [hstep]
    exact hsame _ rfl rfl
  | deleteSession sessionId => exact hsame _ rfl rfl

theorem reachable_invariants (labels : List ServerLabel) :
    PromptsKnown (Run.run ServerState.step {} labels) ∧
      (Run.run ServerState.step {} labels).taskStore.Placeholders := by
  refine Run.run_induction (P := fun _ s => PromptsKnown s ∧ s.taskStore.Placeholders) ?_ ?_ labels
  · exact ⟨fun _ h => absurd h not_mem_nil, fun _ h => absurd h not_mem_nil⟩
  · intro _ label s hs
    have hgrows := grows_step s label
    refine ⟨fun call hcall => ?_, (step_requested hs.2 label).rows⟩
    rcases hgrows.prompts call hcall with hold | ⟨-, hknown⟩
    · exact hgrows.known _ (hs.1 call hold)
    · exact hknown

theorem promptOf_eq_none {id : String} :
    s.promptOf id = none ↔ ∀ call ∈ s.prompts, call.taskId ≠ id := by
  unfold ServerState.promptOf
  simp

theorem promptOf_step {id : String} (hknown : s.stateOf id ≠ none) (h : s.promptOf id = none)
    (label : ServerLabel) : (s.step label).promptOf id = none := by
  refine promptOf_eq_none.mpr fun call hcall hid => ?_
  rcases (grows_step s label).prompts call hcall with hold | ⟨hnew, -⟩
  · exact promptOf_eq_none.mp h call hold hid
  · rw [hid] at hnew
    exact hknown hnew

namespace StreamState

def newEvents (st : StreamState) : Label → List BusEvent
  | .server label => st.eventsOf label
  | .caught => (st.thrown.map (BusEvent.error st.taskId)).toList
  | .resume => []

def Follows (missed received : List BusEvent) (st : StreamState) : Prop :=
  st.emitted = missed ++ received ∧
    ∃ queue, st.queue = some queue ∧ queue.Tracks st.taskId received

variable {st : StreamState} {missed received : List BusEvent}

theorem settle_events (call : PromptCall) (outcome : Except String String) (now : Instant) :
    ∀ event ∈ (settle s call outcome now).2, event.taskId = call.taskId ∧
      ∀ taskId contextId status final,
        event.toStream = some (.statusUpdate taskId contextId status final) →
        isTerminalState status.state = true := by
  have hterminal : isTerminalState (settledStatus call outcome now).state = true := by
    rcases settledStatus_state call outcome now with h | h
    · rw [h]
      rfl
    · rw [h]
      rfl
  have hupdate : ∀ taskId contextId status final,
      (BusEvent.statusUpdate call.taskId call.contextId (settledStatus call outcome now)
        true).toStream = some (.statusUpdate taskId contextId status final) →
      isTerminalState status.state = true := by
    intro taskId contextId status final h
    cases h
    exact hterminal
  intro event hevent
  change event ∈ settledEvents call outcome now _ at hevent
  unfold settledEvents at hevent
  simp only at hevent
  split at hevent
  · rcases mem_cons.mp hevent with rfl | hcomplete
    · exact ⟨rfl, hupdate⟩
    · obtain ⟨task, -, rfl⟩ : ∃ task, _ ∧ BusEvent.complete call.taskId task = event := by
        simpa using hcomplete
      exact ⟨rfl, fun _ _ _ _ h => by cases h⟩
  · rw [mem_singleton.mp hevent]
    exact ⟨rfl, hupdate⟩
  · exact absurd hevent not_mem_nil

theorem newEvents_about (st : StreamState) (label : Label) :
    ∀ event ∈ st.newEvents label, event.taskId = st.taskId ∧
      ∀ taskId contextId status final,
        event.toStream = some (.statusUpdate taskId contextId status final) →
        isTerminalState status.state = true := by
  intro event hevent
  cases label with
  | server label =>
    change event ∈ st.eventsOf label at hevent
    unfold eventsOf at hevent
    split at hevent
    · split at hevent
      · rename_i hid
        split at hevent
        · rename_i call hcall
          obtain ⟨hevent, hterminal⟩ := settle_events call _ _ event hevent
          exact ⟨hevent.trans ((promptOf_spec hcall).2.trans hid), hterminal⟩
        · exact absurd hevent not_mem_nil
      · exact absurd hevent not_mem_nil
    · exact absurd hevent not_mem_nil
  | caught =>
    obtain ⟨message, -, rfl⟩ := map_eq_some_iff.mp (mem_toList.mp hevent)
    exact ⟨rfl, fun _ _ _ _ h => by cases h⟩
  | resume => exact absurd hevent not_mem_nil

theorem eventsOf_nil (hprompt : st.server.promptOf st.taskId = none) (label : ServerLabel) :
    st.eventsOf label = [] := by
  unfold eventsOf
  split
  · split
    · rename_i hid
      rw [hid, hprompt]
    · rfl
  · rfl

theorem newEvents_nil (hprompt : st.server.promptOf st.taskId = none) (hthrown : st.thrown = none)
    (label : Label) : st.newEvents label = [] := by
  cases label with
  | server label => exact eventsOf_nil hprompt label
  | caught =>
    change (st.thrown.map _).toList = []
    rw [hthrown]
    rfl
  | resume => rfl

@[simp] theorem step_taskId (st : StreamState) (label : Label) :
    (st.step label).taskId = st.taskId := by
  cases label with
  | caught =>
    change StreamState.taskId (match st.thrown with
      | some message => { st with thrown := none }.emit [.error st.taskId message]
      | none => st) = _
    split <;> rfl
  | _ => rfl

theorem Follows.step (h : Follows missed received st) (label : Label) :
    Follows missed (received ++ st.newEvents label) (st.step label) := by
  obtain ⟨hemitted, queue, hqueue, htracks⟩ := h
  have habout := fun event hevent => (newEvents_about st label event hevent).1
  have hemit : ∀ st' : StreamState, st'.emitted = st.emitted → st'.queue = st.queue →
      st'.taskId = st.taskId → Follows missed (received ++ st.newEvents label)
        (st'.emit (st.newEvents label)) := by
    intro st' hemitted' hqueue' hid
    refine ⟨?_, (st.newEvents label).foldl (EventQueue.receive st.taskId) queue, ?_, ?_⟩
    · change st'.emitted ++ _ = _
      rw [hemitted', hemitted, append_assoc]
    · change st'.queue.map _ = _
      rw [hqueue', hqueue, hid]
      rfl
    · change EventQueue.Tracks st'.taskId _ _
      rw [hid]
      exact htracks.receive_all habout
  cases label with
  | server label => exact hemit { st with server := st.server.step label } rfl rfl rfl
  | caught =>
    cases hthrown : st.thrown with
    | none =>
      have hstep : st.step .caught = st := by
        unfold StreamState.step
        rw [hthrown]
      have hnew : st.newEvents .caught = [] := by
        unfold newEvents
        rw [hthrown]
        rfl
      rw [hstep, hnew, append_nil]
      exact ⟨hemitted, queue, hqueue, htracks⟩
    | some message =>
      have hstep : st.step .caught =
          { st with thrown := none }.emit (st.newEvents .caught) := by
        unfold StreamState.step newEvents
        rw [hthrown]
        rfl
      rw [hstep]
      exact hemit { st with thrown := none } rfl rfl rfl
  | resume =>
    refine ⟨?_, queue.resume, ?_, ?_⟩
    · rw [newEvents, append_nil]
      exact hemitted
    · change st.queue.map _ = _
      rw [hqueue]
      rfl
    · rw [newEvents, append_nil]
      exact htracks.resume

/-- The reader has missed a status. What comes later is not it: nothing comes, or only terminal
states do. -/
def Deaf (taskId contextId : String) (status : TaskStatus) (final : Bool) (st : StreamState) :
    Prop :=
  st.thrown = none ∧ st.server.stateOf st.taskId ≠ none ∧ ∃ missed received,
    Follows (.statusUpdate taskId contextId status final :: missed) received st ∧
    (received = [] ∧ st.server.promptOf st.taskId = none ∨
      isTerminalState status.state = false ∧ ∀ event ∈ received,
        ∀ taskId contextId status final,
          event.toStream = some (.statusUpdate taskId contextId status final) →
          isTerminalState status.state = true)

theorem step_thrown (st : StreamState) (label : Label) (h : st.thrown = none) :
    (st.step label).thrown = none ∧
      ((st.step label).server = st.server ∨
        ∃ label', (st.step label).server = st.server.step label') := by
  cases label with
  | server label => exact ⟨h, Or.inr ⟨label, rfl⟩⟩
  | caught =>
    have hstep : st.step .caught = st := by
      unfold StreamState.step
      rw [h]
    rw [hstep]
    exact ⟨h, Or.inl rfl⟩
  | resume => exact ⟨h, Or.inl rfl⟩

theorem deaf_step {taskId contextId : String} {status : TaskStatus} {final : Bool}
    (h : Deaf taskId contextId status final st) (label : Label) :
    Deaf taskId contextId status final (st.step label) := by
  obtain ⟨hthrown, hknown, missed, received, hfollows, hlater⟩ := h
  obtain ⟨hthrown', hserver⟩ := step_thrown st label hthrown
  have hknown' : (st.step label).server.stateOf st.taskId ≠ none := by
    rcases hserver with hsame | ⟨label', hstep⟩
    · rw [hsame]
      exact hknown
    · rw [hstep]
      exact (grows_step _ _).known _ hknown
  refine ⟨hthrown', by rw [step_taskId]; exact hknown', missed, _, hfollows.step label, ?_⟩
  rcases hlater with ⟨hnone, hprompt⟩ | ⟨hopen, hterminal⟩
  · left
    rw [newEvents_nil hprompt hthrown, step_taskId, append_nil]
    refine ⟨hnone, ?_⟩
    rcases hserver with hsame | ⟨label', hstep⟩
    · rw [hsame]
      exact hprompt
    · rw [hstep]
      exact promptOf_step hknown hprompt label'
  · right
    refine ⟨hopen, forall_mem_append.mpr ⟨hterminal, fun event hevent => ?_⟩⟩
    exact (newEvents_about st label event hevent).2

theorem not_complete_of_deaf {taskId contextId : String} {status : TaskStatus} {final : Bool}
    (h : Deaf taskId contextId status final st) : ¬ st.Complete := by
  rintro ⟨queue, hqueue, hclosed, first, later, hemitted, hdelivered, hfinal⟩
  obtain ⟨-, -, missed, received, ⟨hall, queue', hqueue', htracks⟩, hlater⟩ := h
  obtain rfl := Option.some.inj (hqueue.symm.trans hqueue')
  -- the first event that was emitted is among those that were to be delivered
  have hmem : StreamEvent.statusUpdate taskId contextId status final ∈ queue.delivered := by
    rw [hall] at hemitted
    cases first with
    | nil =>
      rcases hfinal with hnever | hnil
      · exact absurd hnever Bool.false_ne_true
      · rw [hnil] at hemitted
        cases hemitted
    | cons event first =>
      obtain ⟨rfl, -⟩ := List.cons.inj hemitted
      rw [hdelivered]
      exact mem_cons_self
  obtain ⟨seen, rest, hreceived, hdelivered', -⟩ := htracks.closes hclosed
  rw [hdelivered'] at hmem
  obtain ⟨event, hevent, hstream⟩ := mem_filterMap.mp hmem
  have hin : event ∈ received := by
    rw [hreceived]
    exact mem_append_left _ hevent
  rcases hlater with ⟨hnone, -⟩ | ⟨hopen, hterminal⟩
  · rw [hnone] at hin
    exact absurd hin not_mem_nil
  · have hclash := hterminal event hin _ _ _ _ hstream
    rw [hopen] at hclash
    cases hclash

/-- The executor emits nothing, and its rejection ends the stream. -/
def Throws (st : StreamState) : Prop :=
  st.server.promptOf st.taskId = none ∧ st.server.stateOf st.taskId ≠ none ∧ ∃ received,
    Follows [] received st ∧
    ((∃ message, st.thrown = some message) ∧ received = [] ∨
      st.thrown = none ∧ ∃ message, received = [.error st.taskId message])

theorem throws_step (h : Throws st) (label : Label) : Throws (st.step label) := by
  obtain ⟨hprompt, hknown, received, hfollows, hlater⟩ := h
  have hafter := hfollows.step label
  cases label with
  | server label =>
    refine ⟨promptOf_step hknown hprompt label, (grows_step _ _).known _ hknown, received, ?_,
      hlater⟩
    have hnew : st.newEvents (.server label) = [] := eventsOf_nil hprompt label
    rwa [hnew, append_nil] at hafter
  | caught =>
    cases hthrown : st.thrown with
    | none =>
      have hstep : st.step .caught = st := by
        unfold StreamState.step
        rw [hthrown]
      rw [hstep]
      exact ⟨hprompt, hknown, received, hfollows, hlater⟩
    | some message =>
      have hstep : st.step .caught =
          { st with thrown := none }.emit [.error st.taskId message] := by
        unfold StreamState.step
        rw [hthrown]
      have hnew : st.newEvents .caught = [.error st.taskId message] := by
        unfold newEvents
        rw [hthrown]
        rfl
      rcases hlater with ⟨-, hnone⟩ | ⟨hcaught, -⟩
      · rw [hnew, hnone, nil_append] at hafter
        rw [hstep] at hafter ⊢
        exact ⟨hprompt, hknown, _, hafter, Or.inr ⟨rfl, message, rfl⟩⟩
      · rw [hthrown] at hcaught
        cases hcaught
  | resume =>
    refine ⟨hprompt, hknown, received, ?_, hlater⟩
    have hnew : st.newEvents .resume = [] := rfl
    rwa [hnew, append_nil] at hafter

theorem complete_of_throws (h : Throws st) (hfinished : st.Finished) (hidle : st.ReaderIdle) :
    st.Complete := by
  obtain ⟨-, -, received, ⟨hemitted, queue, hqueue, htracks⟩, hlater⟩ := h
  obtain ⟨hclosed, first, later, hreceived, hdelivered, hfinal⟩ := htracks.idle (hidle queue hqueue)
  refine ⟨queue, hqueue, hclosed.mpr ?_, first, later, hemitted.trans hreceived, hdelivered, hfinal⟩
  rcases hlater with ⟨⟨message, hthrown⟩, -⟩ | ⟨-, message, herror⟩
  · rw [hfinished.2] at hthrown
    cases hthrown
  · rw [herror]
    rfl

end StreamState

open StreamState

/-- The message has a text, but no session can be found or made for it: the executor throws before
it emits anything. -/
def NoSession (s : ServerState) (params : MessageSendParams) (taskNanoid sessionNanoid : String) :
    Prop :=
  (SessionStore.truthy (extractText params.message)).isSome ∧
    ¬(contextOf taskNanoid params.message ≠ "" ∧
      (s.sessionStore.get (contextOf taskNanoid params.message)).isSome) ∧
    (s.sessionStore.get sessionNanoid).isSome

theorem follows_subscribe (st : StreamState) (events : List BusEvent) (h : st.emitted = []) :
    Follows events [] (st.emit events).subscribe := by
  refine ⟨?_, _, rfl, EventQueue.Tracks.subscribed _⟩
  change st.emitted ++ events = _
  rw [h, nil_append, append_nil]

theorem start_cases {params : MessageSendParams} {taskNanoid sessionNanoid : String} {now : Instant}
    {st : StreamState} (hprompts : PromptsKnown s) (hrows : s.taskStore.Placeholders)
    (h : start s params taskNanoid sessionNanoid now = .ok st) :
    NoSession s params taskNanoid sessionNanoid ∧ Throws st ∨
      ¬ NoSession s params taskNanoid sessionNanoid ∧
        ∃ taskId contextId status final, Deaf taskId contextId status final st := by
  unfold start at h
  obtain ⟨e, he⟩ | ⟨created, hcreated, hok⟩ :=
    handleMessage_cases true s params taskNanoid sessionNanoid now
  · rw [he] at h
    cases h
  rw [hok] at h
  obtain rfl := Except.ok.inj h
  obtain ⟨store, rfl, hmade⟩ := createTask_made hrows hcreated
  obtain ⟨hfresh, store', hstore, -, hstates⟩ := createTask_states hcreated
  obtain rfl : store = store' := congrArg ServerState.taskStore hstore
  have hknown : store.stateOf taskNanoid ≠ none := by
    rw [hstates, if_pos rfl]
    exact some_ne_none _
  have hwritten : ∀ status : TaskStatus,
      (store.updateStatus taskNanoid status now).stateOf taskNanoid ≠ none := by
    intro status
    rw [TaskStore.stateOf_updateStatus_known hknown, if_pos rfl]
    exact some_ne_none _
  have hprompt : s.promptOf taskNanoid = none := by
    refine promptOf_eq_none.mpr fun call hcall hid => ?_
    have hcallKnown := hprompts call hcall
    rw [hid] at hcallKnown
    exact hcallKnown hfresh
  cases htext : SessionStore.truthy (extractText params.message) with
  | none =>
    rw [execute_no_text htext]
    refine Or.inr ⟨fun hnoSession => ?_, _, _, _, _, rfl, hwritten _, [], [],
      follows_subscribe _ _ rfl, Or.inl ⟨rfl, hprompt⟩⟩
    have htextSome := hnoSession.1
    rw [htext] at htextSome
    cases htextSome
  | some text =>
    have hruns : ∀ sessionStore sessionId,
        resolveSession { s with taskStore := store } (contextOf taskNanoid params.message) text
          sessionNanoid now = .ok (sessionStore, sessionId) →
        ∃ taskId contextId status final, Deaf taskId contextId status final
          (opened s taskNanoid (execute true { s with taskStore := store } taskNanoid params
            sessionNanoid now)) := by
      intro sessionStore sessionId hsession
      rw [execute_prompts htext hsession]
      refine ⟨_, _, _, _, ?_, ?_, _, _, follows_subscribe _ _ rfl, Or.inr ⟨rfl, fun event hevent =>
        absurd hevent not_mem_nil⟩⟩
      · cases (params.configuration.bind MessageSendConfiguration.blocking).getD true <;> rfl
      · cases (params.configuration.bind MessageSendConfiguration.blocking).getD true <;>
          exact hwritten _
    by_cases hexists : contextOf taskNanoid params.message ≠ "" ∧
        (s.sessionStore.get (contextOf taskNanoid params.message)).isSome
    · refine Or.inr ⟨fun hnoSession => hnoSession.2.1 hexists, ?_⟩
      exact hruns _ _ (resolveSession_reuses _ _ _ hmade.found hexists)
    · rcases resolveSession_creates (s := { s with taskStore := store }) text sessionNanoid now
        hmade.found hexists with ⟨htaken, e, hsession⟩ | ⟨hfree, sessionStore, hsession⟩
      · rw [execute_threw htext hsession]
        refine Or.inl ⟨⟨by rw [htext]; rfl, hexists, htaken⟩, hprompt, hknown, [],
          follows_subscribe _ _ rfl, Or.inl ⟨⟨_, rfl⟩, rfl⟩⟩
      · refine Or.inr ⟨fun hnoSession => ?_, hruns _ _ hsession⟩
        have htaken := hnoSession.2.2
        rw [show s.sessionStore.get sessionNanoid = none from hfree] at htaken
        cases htaken

theorem not_complete_of_session (before : List ServerLabel) (params : MessageSendParams)
    (taskNanoid sessionNanoid : String) (now : Instant) {st : StreamState}
    (hstart : start (Run.run ServerState.step {} before) params taskNanoid sessionNanoid now =
      .ok st)
    (hsession : ¬ NoSession (Run.run ServerState.step {} before) params taskNanoid sessionNanoid)
    (labels : List Label) : ¬ (Run.run StreamState.step st labels).Complete := by
  obtain ⟨hprompts, hrows⟩ := reachable_invariants before
  obtain ⟨hnoSession, -⟩ | ⟨-, taskId, contextId, status, final, hdeaf⟩ :=
    start_cases hprompts hrows hstart
  · exact absurd hnoSession hsession
  · have hafter : Deaf taskId contextId status final (Run.run StreamState.step st labels) :=
      Run.run_induction (P := fun _ st => Deaf taskId contextId status final st) hdeaf
        (fun _ label _ h => deaf_step h label) labels
    exact not_complete_of_deaf hafter

/-- A stream whose executor is done and whose reader is idle has delivered everything up to the
first final event and is closed exactly when the executor threw before it emitted anything. -/
theorem stream_complete_iff (before : List ServerLabel) (params : MessageSendParams)
    (taskNanoid sessionNanoid : String) (now : Instant) {st : StreamState}
    (hstart : start (Run.run ServerState.step {} before) params taskNanoid sessionNanoid now =
      .ok st) (labels : List Label) (hfinished : (Run.run StreamState.step st labels).Finished)
    (hidle : (Run.run StreamState.step st labels).ReaderIdle) :
    (Run.run StreamState.step st labels).Complete ↔
      NoSession (Run.run ServerState.step {} before) params taskNanoid sessionNanoid := by
  refine ⟨fun hcomplete => ?_, fun hnoSession => ?_⟩
  · by_contra hsession
    exact not_complete_of_session before _ _ _ _ hstart hsession labels hcomplete
  · obtain ⟨hprompts, hrows⟩ := reachable_invariants before
    obtain ⟨-, hthrows⟩ | ⟨hsession, -⟩ := start_cases hprompts hrows hstart
    · have hafter : Throws (Run.run StreamState.step st labels) :=
        Run.run_induction (P := fun _ st => Throws st) hthrows
          (fun _ label _ h => throws_step h label) labels
      exact complete_of_throws hafter hfinished hidle
    · exact absurd hnoSession hsession

def streamedMessage : MessageSendParams where
  message := { messageId := "m", role := .user, parts := [.text "report"] }

/-- The prompt settles, and the reader takes what there is. -/
def streamedLabels : List Label :=
  [.server (.settle "task" (.ok "done") 1), .resume, .resume, .resume]

/-- The statement at this message. -/
theorem stream_complete_iff_streamed : ∃ st,
    start {} streamedMessage "task" "session" 0 = .ok st ∧
      ((Run.run StreamState.step st streamedLabels).Complete ↔
        NoSession {} streamedMessage "task" "session") :=
  ⟨_, rfl, stream_complete_iff [] streamedMessage "task" "session" 0 rfl streamedLabels
    ⟨by decide, by decide⟩ fun queue hqueue => by
      obtain rfl := Option.some.inj hqueue
      exact Or.inl (by decide)⟩

/-- The stream of a message with a text is closed without `submitted` and `working`. -/
theorem stream_misses_status : ¬ ∀ (before : List ServerLabel) (params : MessageSendParams)
    (taskNanoid sessionNanoid : String) (now : Instant) (st : StreamState),
    start (Run.run ServerState.step {} before) params taskNanoid sessionNanoid now = .ok st →
    ∀ labels, (Run.run StreamState.step st labels).Finished →
      (Run.run StreamState.step st labels).ReaderIdle →
      (Run.run StreamState.step st labels).Complete := by
  intro hall
  have hsession : ¬ NoSession {} streamedMessage "task" "session" := by
    rintro ⟨-, -, htaken⟩
    revert htaken
    decide
  refine not_complete_of_session [] streamedMessage "task" "session" 0 rfl hsession streamedLabels
    (hall [] streamedMessage "task" "session" 0 _ rfl streamedLabels ⟨by decide, by decide⟩ ?_)
  intro queue hqueue
  obtain rfl := Option.some.inj hqueue
  exact Or.inl (by decide)

end CrabbyKit.A2A
