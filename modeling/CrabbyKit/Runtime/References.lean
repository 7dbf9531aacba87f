import CrabbyKit.Runtime.Sessions

/-!
# References to sessions

Connections, queued prompts, runs and entries refer to sessions. Most steps delete no session and
add references to sessions that exist only.
-/

namespace CrabbyKit.Sessions

open List

namespace AgentRuntime

def sessionIds (s : AgentRuntime) : List String := s.sessionStore.sessions.map Session.id

/-- Every connection shows a session that exists, every queued prompt and every entry belongs to
one, there is a session, and every run that was not aborted is for a session that exists. -/
structure Consistent (s : AgentRuntime) : Prop where
  session : s.sessionIds ≠ []
  connections : ∀ c ∈ s.connections, c.sessionId ∈ s.sessionIds
  queue : ∀ m ∈ s.queueStore.rows, m.sessionId ∈ s.sessionIds
  runs : ∀ run ∈ s.runs, run.aborted = false → run.sessionId ∈ s.sessionIds
  entries : ∀ e ∈ s.sessionStore.entries, e.sessionId ∈ s.sessionIds

/-- A session id that something refers to. -/
inductive Refers (s : AgentRuntime) : String → Prop
  | connection {c : Connection} (hc : c ∈ s.connections) : Refers s c.sessionId
  | queued {m : QueuedMessage} (hm : m ∈ s.queueStore.rows) : Refers s m.sessionId
  | run {run : SessionRun} (hrun : run ∈ s.runs) (hgoing : run.aborted = false) :
    Refers s run.sessionId
  | entry {e : SessionEntry} (he : e ∈ s.sessionStore.entries) : Refers s e.sessionId

theorem consistent_iff {s : AgentRuntime} :
    Consistent s ↔ s.sessionIds ≠ [] ∧ ∀ id, s.Refers id → id ∈ s.sessionIds := by
  constructor
  · intro h
    refine ⟨h.session, fun id hid => ?_⟩
    cases hid with
    | connection hc => exact h.connections _ hc
    | queued hm => exact h.queue _ hm
    | run hrun hgoing => exact h.runs _ hrun hgoing
    | entry he => exact h.entries _ he
  · rintro ⟨hsession, hrefers⟩
    exact ⟨hsession, fun _ hc => hrefers _ (.connection hc), fun _ hm => hrefers _ (.queued hm),
      fun _ hrun hgoing => hrefers _ (.run hrun hgoing), fun _ he => hrefers _ (.entry he)⟩

/-- A step that deletes no session and adds references to existing sessions only. -/
structure Grows (s s' : AgentRuntime) : Prop where
  sessions : s.sessionIds ⊆ s'.sessionIds
  refers : ∀ id, s'.Refers id → s.Refers id ∨ id ∈ s'.sessionIds
  keyed : s.sessionIds.Nodup → s'.sessionIds.Nodup

variable {s s' : AgentRuntime} {d : Draws} {sessionId text : String}

theorem Grows.refl : Grows s s := ⟨fun _ h => h, fun _ h => Or.inl h, fun h => h⟩

theorem Grows.trans {s'' : AgentRuntime} (h : Grows s s') (h' : Grows s' s'') : Grows s s'' where
  sessions := fun _ hid => h'.sessions (h.sessions hid)
  refers := by
    intro id hid
    rcases h'.refers id hid with hold | hnew
    · exact (h.refers id hold).imp_right fun hid => h'.sessions hid
    · exact Or.inr hnew
  keyed := fun h₀ => h'.keyed (h.keyed h₀)

theorem Grows.consistent (h : Grows s s') (hs : Consistent s) : Consistent s' := by
  rw [consistent_iff] at hs ⊢
  obtain ⟨hsession, hrefers⟩ := hs
  obtain ⟨id, hid⟩ := exists_mem_of_ne_nil _ hsession
  refine ⟨ne_nil_of_mem (h.sessions hid), fun id hid => ?_⟩
  rcases h.refers id hid with hold | hnew
  · exact h.sessions (hrefers id hold)
  · exact hnew

theorem Grows.of_frame (hstore : s'.sessionStore = s.sessionStore)
    (hqueue : s'.queueStore = s.queueStore) (hconnections : s'.connections = s.connections)
    (hruns : s'.runs = s.runs) : Grows s s' := by
  have hids : s'.sessionIds = s.sessionIds := by
    unfold sessionIds
    rw [hstore]
  refine ⟨hids ▸ fun _ h => h, fun id hid => Or.inl ?_, fun h => hids ▸ h⟩
  cases hid with
  | connection hc => exact .connection (hconnections ▸ hc)
  | queued hm => exact .queued (hqueue ▸ hm)
  | run hrun hgoing => exact .run (hruns ▸ hrun) hgoing
  | entry he => exact .entry (hstore ▸ he)

theorem grows_fail (e : String) : Grows s (s.fail e) := .of_frame rfl rfl rfl rfl

theorem grows_suspend (h : PromptHandler) : Grows s (s.suspend h) := .of_frame rfl rfl rfl rfl

theorem grows_finish (h : PromptHandler) : Grows s (s.finish h) := .of_frame rfl rfl rfl rfl

theorem Grows.queue {queueStore : QueueStore} (h : queueStore.rows ⊆ s.queueStore.rows) :
    Grows s { s with queueStore := queueStore } := by
  refine ⟨fun _ h => h, fun id hid => Or.inl ?_, fun h => h⟩
  cases hid with
  | connection hc => exact .connection hc
  | queued hm => exact .queued (h hm)
  | run hrun hgoing => exact .run hrun hgoing
  | entry he => exact .entry he

theorem Grows.runs {runs : List SessionRun}
    (h : ∀ run ∈ runs, run.aborted = false → run ∈ s.runs) : Grows s { s with runs := runs } := by
  refine ⟨fun _ h => h, fun id hid => Or.inl ?_, fun h => h⟩
  cases hid with
  | connection hc => exact .connection hc
  | queued hm => exact .queued hm
  | run hrun hgoing => exact .run (h _ hrun hgoing) hgoing
  | entry he => exact .entry he

theorem Grows.connections {connections : List Connection}
    (h : ∀ c ∈ connections, (∃ c' ∈ s.connections, c'.sessionId = c.sessionId) ∨
      c.sessionId ∈ s.sessionIds) : Grows s { s with connections := connections } := by
  refine ⟨fun _ h => h, fun id hid => ?_, fun h => h⟩
  cases hid with
  | @connection c hc =>
    refine (h c hc).imp_left ?_
    rintro ⟨c', hc', heq⟩
    rw [← heq]
    exact .connection hc'
  | queued hm => exact Or.inl (.queued hm)
  | run hrun hgoing => exact Or.inl (.run hrun hgoing)
  | entry he => exact Or.inl (.entry he)

variable {sessionStore : SessionStore}

theorem Grows.store (hids : s.sessionIds ⊆ sessionStore.sessions.map Session.id)
    (hentries : ∀ e ∈ sessionStore.entries, e ∈ s.sessionStore.entries ∨
      e.sessionId ∈ sessionStore.sessions.map Session.id)
    (hkeyed : s.sessionIds.Nodup → (sessionStore.sessions.map Session.id).Nodup) :
    Grows s { s with sessionStore := sessionStore } := by
  refine ⟨hids, fun id hid => ?_, hkeyed⟩
  cases hid with
  | connection hc => exact Or.inl (.connection hc)
  | queued hm => exact Or.inl (.queued hm)
  | run hrun hgoing => exact Or.inl (.run hrun hgoing)
  | entry he => exact (hentries _ he).imp_left fun he => .entry he

theorem mem_sessionIds : sessionId ∈ s.sessionIds ↔ s.sessionStore.get sessionId ≠ none := by
  rw [Ne, SessionStore.get, Table.lookup_eq_none]
  rw [sessionIds]
  simp only [mem_map, ne_eq, not_forall, not_not, exists_prop]

theorem grows_setSessionId (h : sessionId ∈ s.sessionIds) (connection : String) :
    Grows s (s.setSessionId connection sessionId) := by
  refine Grows.connections fun c hc => ?_
  obtain ⟨c', hc', rfl⟩ := mem_map.mp hc
  split_ifs
  · exact Or.inr h
  · exact Or.inl ⟨c', hc', rfl⟩

theorem grows_abort (sessionId : String) : Grows s (s.abort sessionId) := by
  rw [abort]
  split
  · exact .refl
  · refine Grows.runs fun run hrun hgoing => ?_
    obtain ⟨run', hrun', rfl⟩ := mem_map.mp hrun
    split_ifs at hgoing ⊢
    exact hrun'

variable (connection : String)

theorem grows_wake : Grows s (s.wake connection) := by
  refine Grows.connections fun c hc => Or.inl ?_
  obtain ⟨c', hc', rfl⟩ := mem_map.mp hc
  refine ⟨c', hc', ?_⟩
  split_ifs
  · rfl
  · rfl

theorem grows_enqueue (h : sessionId ∈ s.sessionIds) : Grows s (s.enqueue d sessionId text) := by
  rw [enqueue]
  split
  · rename_i queueStore hqueue
    unfold QueueStore.enqueue at hqueue
    split_ifs at hqueue
    cases hqueue
    refine ⟨fun _ h => h, fun id hid => ?_, fun h => h⟩
    cases hid with
    | connection hc => exact Or.inl (.connection hc)
    | queued hm =>
      rcases mem_append.mp hm with hold | hnew
      · exact Or.inl (.queued hold)
      · obtain rfl := mem_singleton.mp hnew
        exact Or.inr h
    | run hrun hgoing => exact Or.inl (.run hrun hgoing)
    | entry he => exact Or.inl (.entry he)
  · exact grows_fail _

theorem grows_nameSession : Grows s (s.nameSession d sessionId text) := by
  rw [nameSession]
  split
  · split_ifs
    · have hids : ∀ name, (s.sessionStore.rename sessionId name d.now).sessions.map Session.id =
          s.sessionIds := fun _ => Table.map_key_modify fun _ => rfl
      exact Grows.store (hids _ ▸ fun _ h => h) (fun _ he => Or.inl he) fun h => hids _ ▸ h
    · exact .refl
  · exact .refl

theorem grows_append {data : EntryData} {e : SessionEntry}
    (h : s.sessionStore.appendEntry sessionId data d.entryId d.now = .ok (sessionStore, e)) :
    sessionId ∈ s.sessionIds ∧ Grows s { s with sessionStore := sessionStore } := by
  have hentries := SessionStore.entries_appendEntry h
  obtain ⟨-, hsession, -⟩ := SessionStore.data_appendEntry h
  obtain ⟨row, hget, -, -, -, hstore⟩ := SessionStore.appendEntry_ok h
  have hmem : sessionId ∈ s.sessionIds := mem_sessionIds.mpr (hget ▸ Option.some_ne_none row)
  have hids : sessionStore.sessions.map Session.id = s.sessionIds := by
    rw [hstore]
    exact Table.map_key_modify (SessionStore.advanceLeaf_id d.entryId data d.now)
  refine ⟨hmem, Grows.store (hids ▸ fun _ h => h) (fun e' he' => ?_) fun h => hids ▸ h⟩
  rw [hentries] at he'
  rcases mem_append.mp he' with hold | hnew
  · exact Or.inl hold
  · rw [mem_singleton.mp hnew, hsession, hids]
    exact Or.inr hmem

variable {opts : CreateOpts} {session : Session}

theorem grows_create
    (h : s.sessionStore.create opts d.sessionId d.now = .ok (sessionStore, session)) :
    session.id = d.sessionId ∧ d.sessionId ∉ s.sessionIds ∧
      sessionStore.sessions.map Session.id = s.sessionIds ++ [d.sessionId] ∧
      Grows s { s with sessionStore := sessionStore } := by
  obtain ⟨hnone, rfl, rfl⟩ := SessionStore.create_ok h
  have hfresh : d.sessionId ∉ s.sessionIds := fun hmem => mem_sessionIds.mp hmem hnone
  have hids : (s.sessionStore.sessions ++ [SessionStore.newSession opts d.sessionId d.now]).map
      Session.id = s.sessionIds ++ [d.sessionId] := map_append
  refine ⟨rfl, hfresh, hids, Grows.store ?_ (fun _ he => Or.inl he) fun hkeyed => ?_⟩
  · rw [hids]
    exact subset_append_left _ _
  · rw [hids]
    exact hkeyed.append (nodup_singleton _) (by simpa using hfresh)

theorem grows_show (h : s.sessionStore.create opts d.sessionId d.now = .ok (sessionStore, session))
    (connection : String) :
    Grows s ({ s with sessionStore := sessionStore }.setSessionId connection session.id) := by
  obtain ⟨hid, -, hids, hgrows⟩ := grows_create h
  refine hgrows.trans (grows_setSessionId ?_ connection)
  rw [sessionIds]
  rw [hid, hids]
  exact mem_append_right _ (mem_singleton_self _)

theorem grows_checkStreaming (h : sessionId ∈ s.sessionIds) :
    Grows s (s.checkStreaming d sessionId text) := by
  rw [checkStreaming]
  split_ifs
  · exact grows_enqueue h
  · exact grows_suspend _

theorem grows_handlePrompt : Grows s (s.handlePrompt d sessionId text) := by
  have hnamed : Grows s (s.nameSession d sessionId text) := grows_nameSession
  rw [handlePrompt]
  simp only
  split
  · exact hnamed.trans (grows_fail _)
  · rename_i happend
    obtain ⟨hmem, hgrows⟩ := grows_append happend
    refine (hnamed.trans hgrows).trans ?_
    split_ifs
    · exact grows_suspend _
    · exact grows_checkStreaming (hgrows.sessions hmem)

theorem grows_handleSteer : Grows s (s.handleSteer d sessionId text) := by
  rw [handleSteer]
  split
  · exact grows_fail _
  · rename_i happend
    exact (grows_append happend).2

theorem grows_newSession (name : Option String) : Grows s (s.newSession d connection name) := by
  rw [newSession]
  split
  · exact grows_fail _
  · rename_i hcreate
    exact grows_show hcreate connection

theorem grows_queueDelete (queueId : String) :
    Grows s { s with queueStore := s.queueStore.delete queueId } :=
  Grows.queue filter_sublist.subset

theorem grows_queueSteer (queueId : String) : Grows s (s.queueSteer d sessionId queueId) := by
  rw [queueSteer]
  split
  · exact .refl
  · exact (grows_queueDelete queueId).trans grows_handleSteer

theorem mem_list (h : session ∈ s.sessionStore.list) : session.id ∈ s.sessionIds :=
  mem_map_of_mem ((mem_insertionSort _).mp h)

theorem list_eq_nil (h : s.sessionStore.list = []) : s.sessionStore.sessions = [] := by
  have hperm : s.sessionStore.list.Perm s.sessionStore.sessions := perm_insertionSort _ _
  rw [h] at hperm
  exact hperm.symm.eq_nil

theorem grows_connect (h : sessionId ∈ s.sessionIds) (connection : String) :
    Grows s ({ s with connections := s.connections ++ [Connection.mk connection "" true] }
      |>.setSessionId connection sessionId) := by
  refine Grows.connections fun c hc => ?_
  obtain ⟨c', hc', rfl⟩ := mem_map.mp hc
  split_ifs with hid
  · exact Or.inr h
  · rcases mem_append.mp hc' with hold | hnew
    · exact Or.inl ⟨c', hold, rfl⟩
    · exact absurd (congrArg Connection.id (mem_singleton.mp hnew)) hid

theorem grows_handleTransportOpen : Grows s (s.handleTransportOpen d connection) := by
  rw [handleTransportOpen]
  simp only
  split
  · rename_i session rest hlist
    have hmem : session ∈ s.sessionStore.list := hlist ▸ mem_cons_self
    exact grows_connect (mem_list hmem) connection
  · rename_i hlist
    split
    · rename_i hcreate
      have hnone : s.sessionStore.get d.sessionId = none := by
        rw [SessionStore.get, list_eq_nil hlist]
        rfl
      rw [SessionStore.create_of_none hnone] at hcreate
      cases hcreate
    · rename_i sessionStore session hcreate
      obtain ⟨hid, -, hids, hgrows⟩ := grows_create hcreate
      refine hgrows.trans (grows_connect (?_ : session.id ∈ sessionIds { s with
        sessionStore := sessionStore }) connection)
      rw [sessionIds]
      rw [hid, hids]
      exact mem_append_right _ (mem_singleton_self _)

theorem grows_processQueue : Grows s (s.processQueue d sessionId) := by
  rw [processQueue]
  split
  · exact .refl
  · rename_i queueStore next hdequeue
    have hrows : queueStore.rows ⊆ s.queueStore.rows := by
      unfold QueueStore.dequeue at hdequeue
      split at hdequeue
      · cases (Prod.mk.inj hdequeue).2
      · rw [← (Prod.mk.inj hdequeue).1]
        exact filter_sublist.subset
    exact (Grows.queue hrows).trans grows_handlePrompt

theorem grows_agentEnded (run : SessionRun) : Grows s (s.agentEnded d run) := by
  rw [agentEnded]
  split_ifs
  · have hruns : Grows s { s with runs := s.runs.erase run } :=
      Grows.runs fun run' hrun' _ => mem_of_mem_erase hrun'
    have hagents : Grows { s with runs := s.runs.erase run } { s with
        runs := s.runs.erase run
        sessionAgents := s.sessionAgents.filter (·.1 ≠ run.sessionId) } :=
      .of_frame rfl rfl rfl rfl
    exact (hruns.trans hagents).trans grows_processQueue
  · exact .refl

theorem grows_agentAppended (run : SessionRun) (data : EntryData) :
    Grows s (s.agentAppended d run data) := by
  rw [agentAppended]
  split_ifs
  · split
    · exact (grows_fail _).trans (grows_agentEnded run)
    · rename_i happend
      exact (grows_append happend).2
  · exact .refl

theorem grows_agentCreated (h : PromptHandler) (outcome : Except String Unit) :
    Grows s (s.agentCreated h outcome) := by
  rw [agentCreated]
  split_ifs
  · cases outcome with
    | error e => exact .of_frame rfl rfl rfl rfl
    | ok _ => exact .of_frame rfl rfl rfl rfl
  · exact .refl

theorem grows_hibernate : Grows s s.hibernate := by
  have hconnections : Grows s { s with
      connections := s.connections.map fun c => { c with awake := false } } := by
    refine Grows.connections fun c hc => Or.inl ?_
    obtain ⟨c', hc', rfl⟩ := mem_map.mp hc
    exact ⟨c', hc', rfl⟩
  have hruns : Grows { s with connections := s.connections.map fun c => { c with awake := false } }
      { s with
        connections := s.connections.map fun c => { c with awake := false }
        runs := [] } := Grows.runs fun _ hrun => absurd hrun not_mem_nil
  exact (hconnections.trans hruns).trans (.of_frame rfl rfl rfl rfl)

theorem grows_closed : Grows s { s with connections := s.connections.filter (·.id ≠ connection) } :=
  Grows.connections fun c hc => Or.inl ⟨c, (mem_filter.mp hc).1, rfl⟩

end AgentRuntime

end CrabbyKit.Sessions
