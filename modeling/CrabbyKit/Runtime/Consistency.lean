import CrabbyKit.Runtime.References

/-!
# Consistency of sessions and connections

The steps that delete a session or refer to one that they do not look for are sound under a
condition on the state they are taken in, and a run stays consistent exactly when all of its steps
are sound.
-/

namespace CrabbyKit.Sessions

open List

namespace AgentRuntime

variable {s s' : AgentRuntime} {d : Draws} {sessionId text : String}

variable {connection : String}

theorem consistent_setSessionId_iff (h : Consistent s)
    (hconnected : s.connected connection = true) :
    Consistent (s.setSessionId connection sessionId) ↔ sessionId ∈ s.sessionIds := by
  constructor
  · intro h'
    obtain ⟨c, hc, hid⟩ := any_eq_true.mp hconnected
    have hmem := h'.connections _ (mem_map_of_mem hc)
    rw [if_pos (of_decide_eq_true hid)] at hmem
    exact hmem
  · intro hmem
    exact (grows_setSessionId hmem connection).consistent h

def Queues (d : Draws) (sessionId : String) (s : AgentRuntime) : Prop :=
  s.isStreaming sessionId = true → s.queueStore.get d.queueId = none → sessionId ∈ s.sessionIds

theorem consistent_enqueue_iff (h : Consistent s) :
    Consistent (s.enqueue d sessionId text) ↔
      (s.queueStore.get d.queueId = none → sessionId ∈ s.sessionIds) := by
  constructor
  · intro h' hfree
    have hqueue : s.queueStore.enqueue sessionId text d.queueId d.now =
        .ok { rows := s.queueStore.rows ++ [⟨d.queueId, sessionId, text, d.now⟩] } := by
      rw [QueueStore.enqueue]
      rw [hfree]
      rfl
    have hmem := h'.queue
    unfold enqueue at hmem
    rw [hqueue] at hmem
    exact hmem _ (mem_append_right _ (mem_singleton_self _))
  · intro hexists
    cases hget : s.queueStore.get d.queueId with
    | none => exact (grows_enqueue (hexists hget)).consistent h
    | some item =>
      rw [enqueue, QueueStore.enqueue]
      rw [hget]
      exact (grows_fail _).consistent h

theorem consistent_checkStreaming_iff (h : Consistent s) :
    Consistent (s.checkStreaming d sessionId text) ↔ s.Queues d sessionId := by
  rw [checkStreaming, Queues]
  split_ifs with hstreaming
  · rw [consistent_enqueue_iff h]
    exact ⟨fun hmem _ => hmem, fun hmem => hmem hstreaming⟩
  · exact ⟨fun _ hbusy => absurd hbusy hstreaming, fun _ => (grows_suspend _).consistent h⟩

theorem consistent_queueMessage_iff (h : Consistent s) :
    Consistent (s.queueMessage d sessionId text) ↔ s.Queues d sessionId := by
  rw [queueMessage, Queues]
  split_ifs with hstreaming
  · rw [consistent_enqueue_iff h]
    exact ⟨fun hmem _ => hmem, fun hmem => hmem hstreaming⟩
  · exact ⟨fun _ hbusy => absurd hbusy hstreaming, fun _ => grows_handlePrompt.consistent h⟩

/-- The runs of a session that go on are of its registered agent. -/
def Stops (sessionId : String) (s : AgentRuntime) : Prop :=
  ∀ run ∈ s.runs, run.sessionId = sessionId → run.aborted = false →
    s.sessionAgents.lookup sessionId = some run.agent

theorem abort_stops_iff : (∀ run ∈ (s.abort sessionId).runs, run.aborted = false →
    run.sessionId ≠ sessionId) ↔ s.Stops sessionId := by
  rw [abort, Stops]
  cases hlookup : s.sessionAgents.lookup sessionId with
  | none =>
    constructor
    · intro h run hrun hsession hgoing
      exact absurd hsession (h run hrun hgoing)
    · intro h run hrun hgoing hsession
      cases h run hrun hsession hgoing
  | some agent =>
    simp only [forall_mem_map]
    constructor
    · intro h run hrun hsession hgoing
      by_contra hne
      have hother : ¬ run.agent = agent := fun heq => hne (congrArg some heq.symm)
      have hrun' := h run hrun
      rw [if_neg hother] at hrun'
      exact hrun' hgoing hsession
    · intro h run hrun
      split_ifs with hagent
      · intro haborted
        cases haborted
      · intro hgoing hsession
        exact hagent (Option.some.inj (h run hrun hsession hgoing)).symm

/-- A run is started for an existing session only. -/
def Starts (h : PromptHandler) (s : AgentRuntime) : Prop :=
  ∀ agent, s.sessionAgents.lookup h.sessionId = some agent → s.streams agent = false →
    h.sessionId ∈ s.sessionIds

theorem consistent_resumed_iff (hs : Consistent s) (h : PromptHandler) :
    Consistent (s.resumed h) ↔ (h ∈ s.handlers → h.stage = .created → s.Starts h) := by
  have hfinished : Consistent (s.finish h) := (grows_finish h).consistent hs
  rw [resumed]
  by_cases hready : h ∈ s.handlers ∧ h.stage = .created
  · rw [if_pos hready]
    simp only [hready.1, hready.2, forall_const, Starts]
    have hlookup : (s.finish h).sessionAgents.lookup h.sessionId =
        s.sessionAgents.lookup h.sessionId := rfl
    rw [hlookup]
    cases s.sessionAgents.lookup h.sessionId with
    | none =>
      refine ⟨fun _ _ hagent => ?_, fun _ => (grows_fail _).consistent hfinished⟩
      cases hagent
    | some agent =>
      have hstreams : (s.finish h).streams agent = s.streams agent := rfl
      simp only [hstreams, Option.some.injEq, forall_eq']
      cases s.streams agent with
      | true =>
        refine ⟨fun _ hidle => ?_, fun _ => (grows_fail _).consistent hfinished⟩
        cases hidle
      | false =>
        simp only [Bool.false_eq_true, if_false, forall_const]
        constructor
        · intro h'
          exact h'.runs _ (mem_append_right _ (mem_singleton_self _)) rfl
        · intro hmem
          refine ⟨hs.session, hs.connections, hs.queue, fun run hrun hgoing => ?_, hs.entries⟩
          rcases mem_append.mp hrun with hold | hnew
          · exact hs.runs run hold hgoing
          · rw [mem_singleton.mp hnew]
            exact hmem
  · rw [if_neg hready]
    exact ⟨fun _ hmem hstage => absurd ⟨hmem, hstage⟩ hready, fun _ => hs⟩

theorem abort_eq (sessionId : String) (s : AgentRuntime) :
    s.abort sessionId = { s with runs := (s.abort sessionId).runs } := by
  rw [abort]
  split
  · rfl
  · rfl

theorem mem_delete {sessionStore : SessionStore} {other : String} :
    other ∈ (sessionStore.delete sessionId).sessions.map Session.id ↔
      other ∈ sessionStore.sessions.map Session.id ∧ other ≠ sessionId := by
  simp only [SessionStore.delete, mem_map, mem_filter, decide_eq_true_eq]
  constructor
  · rintro ⟨session, ⟨hmem, hne⟩, rfl⟩
    exact ⟨⟨session, hmem, rfl⟩, hne⟩
  · rintro ⟨⟨session, hmem, rfl⟩, hne⟩
    exact ⟨session, ⟨hmem, hne⟩, rfl⟩

theorem foldl_setSessionId (affected : List Connection) (target : String) (s : AgentRuntime) :
    affected.foldl (fun s connection => s.setSessionId connection.id target) s =
      { s with connections := s.connections.map fun c =>
          if c.id ∈ affected.map Connection.id then { c with sessionId := target } else c } := by
  induction affected generalizing s with
  | nil => simp
  | cons a rest ih =>
    rw [foldl_cons, ih]
    simp only [setSessionId, map_map, map_cons, mem_cons]
    congr 1
    apply map_congr_left
    intro c _
    by_cases ha : c.id = a.id
    · simp only [Function.comp_apply, ha, if_true, true_or]
      split_ifs
      · rfl
      · rfl
    · simp only [Function.comp_apply, ha, if_false, false_or]

theorem exists_other (sessionId : String) (hkeyed : s.sessionIds.Nodup)
    (hmany : 1 < s.sessionStore.list.length) : (s.sessionStore.delete sessionId).list ≠ [] := by
  intro hlist
  have hnone : (s.sessionStore.delete sessionId).sessions = [] :=
    list_eq_nil (s := { s with sessionStore := s.sessionStore.delete sessionId }) hlist
  have hall : ∀ other ∈ s.sessionIds, other = sessionId := by
    intro other hother
    by_contra hne
    have hmem := mem_delete.mpr ⟨hother, hne⟩
    rw [hnone] at hmem
    cases hmem
  have hlength : s.sessionStore.list.length = s.sessionIds.length := by
    rw [sessionIds, SessionStore.list]
    rw [length_insertionSort, length_map]
  have hle : s.sessionIds.length ≤ 1 := by
    rw [eq_replicate_of_mem hall] at hkeyed
    exact nodup_replicate.mp hkeyed
  omega

/-- A deleted session is shown by connections that are tracked only, and its runs stop. -/
def Deletes (sessionId : String) (s : AgentRuntime) : Prop :=
  (∀ c ∈ s.connections, c.sessionId = sessionId →
    c.id ∈ (s.getConnectionsForSession sessionId).map Connection.id) ∧ s.Stops sessionId

theorem deleteSession_eq (sessionId : String) (hkeyed : s.sessionIds.Nodup)
    (hmany : 1 < s.sessionStore.list.length) :
    ∃ target, target ∈ s.sessionIds ∧ target ≠ sessionId ∧
      s.deleteSession sessionId = { s with
        sessionStore := s.sessionStore.delete sessionId
        queueStore := s.queueStore.deleteAll sessionId
        runs := (s.abort sessionId).runs
        connections := s.connections.map fun c =>
          if c.id ∈ (s.getConnectionsForSession sessionId).map Connection.id then
            { c with sessionId := target } else c } := by
  obtain ⟨target, rest, hlist⟩ := exists_cons_of_ne_nil (exists_other sessionId hkeyed hmany)
  have hmem : target.id ∈ (s.sessionStore.delete sessionId).sessions.map Session.id :=
    mem_list (s := { s with sessionStore := s.sessionStore.delete sessionId })
      (hlist ▸ mem_cons_self)
  obtain ⟨hexists, hne⟩ := mem_delete.mp hmem
  refine ⟨target.id, hexists, hne, ?_⟩
  rw [deleteSession]
  rw [if_neg (not_le_of_gt hmany), abort_eq]
  simp only [hlist, foldl_setSessionId]
  rfl

theorem consistent_remove_iff (h : Consistent s) (sessionId : String) :
    Consistent { s with sessionStore := s.sessionStore.delete sessionId } ↔
      (∃ other ∈ s.sessionIds, other ≠ sessionId) ∧
        (∀ c ∈ s.connections, c.sessionId ≠ sessionId) ∧
        (∀ m ∈ s.queueStore.rows, m.sessionId ≠ sessionId) ∧
        ∀ run ∈ s.runs, run.aborted = false → run.sessionId ≠ sessionId := by
  constructor
  · intro h'
    obtain ⟨other, hother⟩ := exists_mem_of_ne_nil _ h'.session
    exact ⟨⟨other, mem_delete.mp hother⟩, fun c hc => (mem_delete.mp (h'.connections c hc)).2,
      fun m hm => (mem_delete.mp (h'.queue m hm)).2,
      fun run hrun hgoing => (mem_delete.mp (h'.runs run hrun hgoing)).2⟩
  · rintro ⟨⟨other, hother, hne⟩, hconnections, hqueue, hruns⟩
    refine ⟨ne_nil_of_mem (mem_delete.mpr ⟨hother, hne⟩),
      fun c hc => mem_delete.mpr ⟨h.connections c hc, hconnections c hc⟩,
      fun m hm => mem_delete.mpr ⟨h.queue m hm, hqueue m hm⟩,
      fun run hrun hgoing => mem_delete.mpr ⟨h.runs run hrun hgoing, hruns run hrun hgoing⟩,
      fun e he => ?_⟩
    -- the entries of the session go with it
    obtain ⟨hmem, hentry⟩ := mem_filter.mp he
    exact mem_delete.mpr ⟨h.entries e hmem, of_decide_eq_true hentry⟩

theorem consistent_deleteSession_iff (h : Consistent s) (hkeyed : s.sessionIds.Nodup) :
    Consistent (s.deleteSession sessionId) ↔
      (1 < s.sessionStore.list.length → s.Deletes sessionId) := by
  by_cases hmany : 1 < s.sessionStore.list.length
  · obtain ⟨target, htarget, hne, heq⟩ := deleteSession_eq sessionId hkeyed hmany
    have hmoved : Consistent { s with
        queueStore := s.queueStore.deleteAll sessionId
        runs := (s.abort sessionId).runs
        connections := s.connections.map fun c =>
          if c.id ∈ (s.getConnectionsForSession sessionId).map Connection.id then
            { c with sessionId := target } else c } := by
      have haborted : Consistent { s with runs := (s.abort sessionId).runs } :=
        abort_eq sessionId s ▸ (grows_abort sessionId).consistent h
      have hqueue : Consistent { s with
          queueStore := s.queueStore.deleteAll sessionId
          runs := (s.abort sessionId).runs } :=
        (Grows.queue filter_sublist.subset).consistent haborted
      refine (Grows.connections fun c hc => ?_).consistent hqueue
      obtain ⟨c', hc', rfl⟩ := mem_map.mp hc
      split_ifs
      · exact Or.inr htarget
      · exact Or.inl ⟨c', hc', rfl⟩
    have hremoved := consistent_remove_iff hmoved sessionId
    simp only at hremoved
    rw [heq, hremoved, abort_stops_iff]
    simp only [hmany, forall_const, Deletes, forall_mem_map]
    constructor
    · rintro ⟨-, hconnections, -, hstops⟩
      refine ⟨fun c hc hshows => ?_, hstops⟩
      by_contra hasleep
      have hshown := hconnections c hc
      rw [if_neg hasleep] at hshown
      exact hshown hshows
    · rintro ⟨htracked, hstops⟩
      refine ⟨⟨target, htarget, hne⟩, fun c hc => ?_, fun m hm => ?_, hstops⟩
      · split_ifs with hmoves
        · exact hne
        · exact fun hshows => hmoves (htracked c hc hshows)
      · exact of_decide_eq_true (mem_filter.mp hm).2
  · rw [deleteSession]
    rw [if_pos (not_lt.mp hmany)]
    exact ⟨fun _ h' => absurd h' hmany, fun _ => h⟩

/-- A cleared session is not the new one, is shown by no connection but the one that clears it,
has no queued prompts, and its runs stop. -/
def Clears (d : Draws) (connection sessionId : String) (s : AgentRuntime) : Prop :=
  sessionId ≠ d.sessionId ∧ (∀ c ∈ s.connections, c.sessionId = sessionId → c.id = connection) ∧
    (∀ m ∈ s.queueStore.rows, m.sessionId ≠ sessionId) ∧ s.Stops sessionId

theorem handleClearCommand_taken (h : d.sessionId ∈ s.sessionIds) (connection sessionId : String) :
    ∃ e, s.handleClearCommand d connection sessionId = (s.abort sessionId).failStore e := by
  rw [handleClearCommand]
  simp only
  split
  · exact ⟨_, rfl⟩
  · rename_i hcreate
    obtain ⟨-, hfresh, -⟩ := grows_create hcreate
    rw [abort_eq] at hfresh
    exact absurd h hfresh

theorem handleClearCommand_fresh (hfresh : d.sessionId ∉ s.sessionIds) (hs : s.sessionIds ≠ [])
    (connection sessionId : String) :
    ∃ shown : AgentRuntime, Grows s shown ∧ shown.queueStore = s.queueStore ∧
      shown.runs = (s.abort sessionId).runs ∧ d.sessionId ∈ shown.sessionIds ∧
      shown.connections = s.connections.map (fun c =>
        if c.id = connection then { c with sessionId := d.sessionId } else c) ∧
      s.handleClearCommand d connection sessionId =
        { shown with sessionStore := shown.sessionStore.delete sessionId } := by
  have hnone : (s.abort sessionId).sessionStore.get d.sessionId = none := by
    rw [abort_eq]
    exact not_not.mp fun hget => hfresh (mem_sessionIds.mpr hget)
  have hcreate := SessionStore.create_of_none hnone {} d.now
  have hgrows := (grows_abort sessionId).trans (grows_show hcreate connection)
  obtain ⟨-, -, hids, -⟩ := grows_create hcreate
  refine ⟨_, hgrows, ?_, rfl, ?_, ?_, ?_⟩
  · rw [abort_eq]
    rfl
  · have hmem := mem_append_right (s.abort sessionId).sessionIds (mem_singleton_self d.sessionId)
    rw [← hids] at hmem
    exact hmem
  · rw [abort_eq]
    rfl
  · have hmany : 1 < (SessionStore.list { (s.abort sessionId).sessionStore with
        sessions := (s.abort sessionId).sessionStore.sessions ++
          [SessionStore.newSession {} d.sessionId d.now] }).length := by
      have hsome : 0 < s.sessionStore.sessions.length := by
        apply length_pos_of_ne_nil
        rintro hnil
        exact hs (congrArg (List.map Session.id) hnil)
      rw [SessionStore.list, length_insertionSort, length_append, abort_eq]
      simp only [length_singleton]
      omega
    rw [handleClearCommand]
    simp only [hcreate]
    exact if_pos hmany

theorem consistent_handleClearCommand_iff (h : Consistent s)
    (hconnected : s.connected connection = true) :
    Consistent (s.handleClearCommand d connection sessionId) ↔
      (d.sessionId ∉ s.sessionIds → s.Clears d connection sessionId) := by
  by_cases hfresh : d.sessionId ∈ s.sessionIds
  · obtain ⟨e, heq⟩ := handleClearCommand_taken hfresh connection sessionId
    rw [heq]
    have haborted := (grows_abort sessionId).consistent h
    exact ⟨fun _ hnew => absurd hfresh hnew, fun _ => (grows_fail _).consistent haborted⟩
  · obtain ⟨shown, hgrows, hqueue, hruns, hnew, hconnections, heq⟩ :=
      handleClearCommand_fresh hfresh h.session connection sessionId
    obtain ⟨c₀, hc₀, hid₀⟩ := any_eq_true.mp hconnected
    rw [heq, consistent_remove_iff (hgrows.consistent h) sessionId, hqueue, hruns, hconnections,
      abort_stops_iff]
    simp only [hfresh, not_false_eq_true, forall_const, Clears, forall_mem_map]
    constructor
    · rintro ⟨-, hshown, hrows, hstops⟩
      refine ⟨fun heq => ?_, fun c hc hshows => ?_, hrows, hstops⟩
      · have hmoved := hshown c₀ hc₀
        rw [if_pos (of_decide_eq_true hid₀)] at hmoved
        exact hmoved heq.symm
      · by_contra hother
        have hkept := hshown c hc
        rw [if_neg hother] at hkept
        exact hkept hshows
    · rintro ⟨hne, hclears, hrows, hstops⟩
      refine ⟨⟨d.sessionId, hnew, hne.symm⟩, fun c hc => ?_, hrows, hstops⟩
      split_ifs with hid
      · exact hne.symm
      · exact fun hshows => hid (hclears c hc hshows)

/-- A client message that leaves no reference dangling: it switches to a session that exists,
deletes or clears one that nothing else needs, or queues for one that exists. -/
def MessageSound (d : Draws) (connection : String) (s : AgentRuntime) : ClientMessage → Prop
  | .switchSession sessionId => sessionId ∈ s.sessionIds
  | .deleteSession sessionId => 1 < s.sessionStore.list.length → s.Deletes sessionId
  | .clear sessionId => d.sessionId ∉ s.sessionIds → s.Clears d connection sessionId
  | .queueMessage sessionId _ => s.Queues d sessionId
  | _ => True

/-- An event that leaves no reference dangling: so does its message, and a handler that goes on
queues and starts runs for sessions that exist only. -/
def Sound (s : AgentRuntime) (e : RuntimeEvent × Draws) : Prop :=
  match e.1 with
  | .message connection msg =>
    s.connected connection = true → (s.wake connection).MessageSound e.2 connection msg
  | .bundleReturned h handled =>
    h ∈ s.handlers → h.stage = .dispatching → handled = false → s.Queues e.2 h.sessionId
  | .resumed h => h ∈ s.handlers → h.stage = .created → s.Starts h
  | _ => True

theorem consistent_bundleReturned_iff (hs : Consistent s) (h : PromptHandler) (handled : Bool) :
    Consistent (s.bundleReturned d h handled) ↔
      (h ∈ s.handlers → h.stage = .dispatching → handled = false → s.Queues d h.sessionId) := by
  have hfinished : Consistent (s.finish h) := (grows_finish h).consistent hs
  rw [bundleReturned]
  by_cases hready : h ∈ s.handlers ∧ h.stage = .dispatching
  · rw [if_pos hready]
    simp only [hready.1, hready.2, forall_const]
    cases handled with
    | true => exact ⟨fun _ hfalse => (by cases hfalse), fun _ => hfinished⟩
    | false =>
      simp only [Bool.false_eq_true, if_false, forall_const]
      exact consistent_checkStreaming_iff hfinished
  · rw [if_neg hready]
    exact ⟨fun _ hmem hstage => absurd ⟨hmem, hstage⟩ hready, fun _ => hs⟩

theorem consistent_message_iff (h : Consistent s) (hkeyed : s.sessionIds.Nodup)
    (hconnected : s.connected connection = true) (msg : ClientMessage) :
    Consistent (s.handleClientMessage d connection msg) ↔ s.MessageSound d connection msg := by
  cases msg with
  | prompt sessionId text => exact iff_of_true (grows_handlePrompt.consistent h) trivial
  | steer sessionId text => exact iff_of_true (grows_handleSteer.consistent h) trivial
  | abort sessionId => exact iff_of_true ((grows_abort sessionId).consistent h) trivial
  | switchSession sessionId => exact consistent_setSessionId_iff h hconnected
  | newSession name => exact iff_of_true ((grows_newSession connection name).consistent h) trivial
  | deleteSession sessionId => exact consistent_deleteSession_iff h hkeyed
  | clear sessionId => exact consistent_handleClearCommand_iff h hconnected
  | queueMessage sessionId text => exact consistent_queueMessage_iff h
  | queueDelete sessionId queueId =>
    exact iff_of_true ((grows_queueDelete queueId).consistent h) trivial
  | queueSteer sessionId queueId =>
    exact iff_of_true ((grows_queueSteer queueId).consistent h) trivial

theorem connected_wake (h : s.connected connection = true) :
    (s.wake connection).connected connection = true := by
  obtain ⟨c, hc, hid⟩ := any_eq_true.mp h
  refine any_eq_true.mpr ⟨_, mem_map_of_mem hc, ?_⟩
  split_ifs
  · exact hid
  · exact hid

theorem consistent_step_iff (h : Consistent s) (hkeyed : s.sessionIds.Nodup)
    (e : RuntimeEvent × Draws) : Consistent (s.step e) ↔ s.Sound e := by
  obtain ⟨event, d⟩ := e
  cases event with
  | opened connection =>
    exact iff_of_true ((grows_handleTransportOpen connection).consistent h) trivial
  | closed connection => exact iff_of_true ((grows_closed connection).consistent h) trivial
  | message connection msg =>
    simp only [step, Sound]
    by_cases hconnected : s.connected connection = true
    · have hwake : Grows s (s.wake connection) := grows_wake connection
      simp only [hconnected, if_true, forall_const]
      exact consistent_message_iff (hwake.consistent h) (hwake.keyed hkeyed)
        (connected_wake hconnected) msg
    · rw [if_neg hconnected]
      exact iff_of_true h fun hc => absurd hc hconnected
  | bundleReturned handler handled => exact consistent_bundleReturned_iff h handler handled
  | agentCreated handler outcome =>
    exact iff_of_true ((grows_agentCreated handler outcome).consistent h) trivial
  | resumed handler => exact consistent_resumed_iff h handler
  | agentAppended run data =>
    exact iff_of_true ((grows_agentAppended run data).consistent h) trivial
  | agentEnded run => exact iff_of_true ((grows_agentEnded run).consistent h) trivial
  | hibernated => exact iff_of_true (grows_hibernate.consistent h) trivial

/-- Session ids are unique, and there is one: what every step keeps. -/
structure Tabled (s : AgentRuntime) : Prop where
  keyed : s.sessionIds.Nodup
  session : s.sessionIds ≠ []

theorem Grows.tabled (h : Grows s s') (hs : Tabled s) : Tabled s' := by
  obtain ⟨id, hid⟩ := exists_mem_of_ne_nil _ hs.session
  exact ⟨h.keyed hs.keyed, ne_nil_of_mem (h.sessions hid)⟩

theorem Tabled.of_eq (hs : Tabled s) (h : s'.sessionStore = s.sessionStore) : Tabled s' := by
  obtain ⟨hkeyed, hsession⟩ := hs
  unfold sessionIds at hkeyed hsession
  rw [← h] at hkeyed hsession
  exact ⟨hkeyed, hsession⟩

theorem enqueue_sessionStore : (s.enqueue d sessionId text).sessionStore = s.sessionStore := by
  rw [enqueue]
  split
  · rfl
  · rfl

theorem checkStreaming_sessionStore :
    (s.checkStreaming d sessionId text).sessionStore = s.sessionStore := by
  rw [checkStreaming]
  split_ifs
  · exact enqueue_sessionStore
  · rfl

theorem Tabled.deleteSession (h : Tabled s) : Tabled (s.deleteSession sessionId) := by
  by_cases hmany : 1 < s.sessionStore.list.length
  · obtain ⟨target, htarget, hne, heq⟩ :=
      deleteSession_eq sessionId h.keyed hmany
    rw [heq]
    exact ⟨h.keyed.sublist (filter_sublist.map _), ne_nil_of_mem (mem_delete.mpr ⟨htarget, hne⟩)⟩
  · rw [AgentRuntime.deleteSession]
    rw [if_pos (not_lt.mp hmany)]
    exact h

theorem Tabled.handleClearCommand (h : Tabled s) (connection : String) :
    Tabled (s.handleClearCommand d connection sessionId) := by
  by_cases hfresh : d.sessionId ∈ s.sessionIds
  · obtain ⟨e, heq⟩ := handleClearCommand_taken hfresh connection sessionId
    rw [heq]
    exact ((grows_abort sessionId).trans (grows_fail _)).tabled h
  · obtain ⟨shown, hgrows, -, -, hnew, -, heq⟩ :=
      handleClearCommand_fresh hfresh h.session connection sessionId
    rw [heq]
    refine ⟨(hgrows.keyed h.keyed).sublist (filter_sublist.map _), ?_⟩
    by_cases hself : sessionId = d.sessionId
    · obtain ⟨other, hother⟩ := exists_mem_of_ne_nil _ h.session
      refine ne_nil_of_mem (mem_delete.mpr ⟨hgrows.sessions hother, ?_⟩)
      rintro rfl
      exact hfresh (hself ▸ hother)
    · exact ne_nil_of_mem (mem_delete.mpr ⟨hnew, Ne.symm hself⟩)

theorem Tabled.step (h : Tabled s) (e : RuntimeEvent × Draws) : Tabled (s.step e) := by
  obtain ⟨event, d⟩ := e
  cases event with
  | opened connection => exact (grows_handleTransportOpen connection).tabled h
  | closed connection => exact (grows_closed connection).tabled h
  | message connection msg =>
    simp only [AgentRuntime.step]
    split_ifs
    · have hwake : Tabled (s.wake connection) := (grows_wake connection).tabled h
      cases msg with
      | prompt sessionId text => exact grows_handlePrompt.tabled hwake
      | steer sessionId text => exact grows_handleSteer.tabled hwake
      | abort sessionId => exact (grows_abort sessionId).tabled hwake
      | switchSession sessionId => exact hwake.of_eq rfl
      | newSession name => exact (grows_newSession connection name).tabled hwake
      | deleteSession sessionId => exact hwake.deleteSession
      | clear sessionId => exact hwake.handleClearCommand connection
      | queueMessage sessionId text =>
        simp only [handleClientMessage, queueMessage]
        split_ifs
        · exact hwake.of_eq enqueue_sessionStore
        · exact grows_handlePrompt.tabled hwake
      | queueDelete sessionId queueId => exact (grows_queueDelete queueId).tabled hwake
      | queueSteer sessionId queueId => exact (grows_queueSteer queueId).tabled hwake
    · exact h
  | bundleReturned handler handled =>
    simp only [AgentRuntime.step, bundleReturned]
    split_ifs
    · exact h.of_eq rfl
    · exact h.of_eq checkStreaming_sessionStore
    · exact h
  | agentCreated handler outcome => exact (grows_agentCreated handler outcome).tabled h
  | resumed handler =>
    refine h.of_eq ?_
    simp only [AgentRuntime.step, resumed]
    split_ifs
    · split
      · rfl
      · split_ifs
        · rfl
        · rfl
    · rfl
  | agentAppended run data => exact (grows_agentAppended run data).tabled h
  | agentEnded run => exact (grows_agentEnded run).tabled h
  | hibernated => exact grows_hibernate.tabled h

/-- A new agent, once its first connection has opened. -/
def started (hasBundle : Bool) (connection : String) (d : Draws) : AgentRuntime :=
  { hasBundle := hasBundle : AgentRuntime }.handleTransportOpen d connection

theorem started_eq (hasBundle : Bool) (connection : String) (d : Draws) :
    started hasBundle connection d =
      { sessionStore := { sessions := [SessionStore.newSession {} d.sessionId d.now] }
        connections := [⟨connection, d.sessionId, true⟩]
        hasBundle := hasBundle } := by
  have hcreate : ({} : SessionStore).create {} d.sessionId d.now = .ok (_, _) :=
    SessionStore.create_of_none rfl {} d.now
  have hlist : ({} : SessionStore).list = [] := rfl
  rw [started, handleTransportOpen]
  simp only [hlist, hcreate, setSessionId, nil_append, map_cons, map_nil, if_true]
  rfl

theorem consistent_started (hasBundle : Bool) (connection : String) (d : Draws) :
    Consistent (started hasBundle connection d) := by
  rw [started_eq]
  refine ⟨cons_ne_nil _ _, fun c hc => ?_, fun m hm => absurd hm not_mem_nil,
    fun run hrun => absurd hrun not_mem_nil, fun e he => absurd he not_mem_nil⟩
  obtain rfl := mem_singleton.mp hc
  exact mem_singleton_self _

/-- A run is consistent in every state exactly when all of its steps are sound. -/
theorem consistent_run_iff (hasBundle : Bool) (connection : String) (d : Draws)
    (events : List (RuntimeEvent × Draws)) :
    (∀ before after, events = before ++ after →
      Consistent (Run.run step (started hasBundle connection d) before)) ↔
      Run.Allowed Sound step (started hasBundle connection d) events := by
  have hstart : Tabled (started hasBundle connection d) := by
    rw [started_eq]
    exact ⟨nodup_singleton _, cons_ne_nil _ _⟩
  exact Run.always_iff_allowed (I := Tabled) hstart (consistent_started hasBundle connection d)
    (fun _ e h => h.step e) (fun _ e hI h => consistent_step_iff h hI.keyed e) events

def drawn (nanoid : String) (now : Instant) : Draws := ⟨nanoid, nanoid, nanoid, now⟩

/-- A second connection opens, and the first clears the session that both show. -/
def clearEvents : List (RuntimeEvent × Draws) :=
  [(.opened "b", drawn "n1" 1), (.message "a" (.clear "s1"), drawn "s2" 2)]

/-- The second connection shows a session that is gone. -/
theorem cleared_dangles :
    ¬ Consistent (Run.run step (started false "a" (drawn "s1" 0)) clearEvents) := by
  intro h
  have hshows : Connection.mk "b" "s1" true ∈
      (Run.run step (started false "a" (drawn "s1" 0)) clearEvents).connections := by decide
  have hgone : "s1" ∉
      (Run.run step (started false "a" (drawn "s1" 0)) clearEvents).sessionIds := by decide
  exact hgone (h.connections _ hshows)

end AgentRuntime

end CrabbyKit.Sessions
