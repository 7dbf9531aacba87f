import CrabbyKit.AgentCore.Invariant
import CrabbyKit.Runtime.Turn

/-!
# Persisted and in-memory messages of a run

What a run persists is compared with the context its loop holds. Messages are compared
by what the model sees of them; a kind of message that neither side gains during the run
is counted on both sides.
-/

namespace CrabbyKit.Runtime

open AgentCore SessionStore List Option

structure MessageView where
  role : Role
  content : Content
  toolCallId : Option String
  toolName : Option String
  isError : Option Bool
  deriving DecidableEq, Repr

def view (m : AgentMessage) : MessageView :=
  ⟨m.role, m.content, m.toolCallId, m.toolName, m.isError⟩

def userView (content : Content) : MessageView := ⟨.user, content, none, none, none⟩

def rebuiltViews (st : SessionStore) (sessionId : String) : List MessageView :=
  (contextSpec (st.path sessionId) 0).map view

section Views

variable {now now' : Instant}

theorem view_toContextMessage (e : SessionEntry) :
    (toContextMessage now e).map view = (toContextMessage now' e).map view := by
  unfold toContextMessage
  cases e.data with
  | message d =>
    simp only [map_some, entryMessage]
    cases d.role with
    | _ => rfl
  | _ => rfl

theorem view_messagesOf (entries : List SessionEntry) :
    (messagesOf now entries).map view = (messagesOf now' entries).map view := by
  unfold messagesOf
  rw [map_filterMap, map_filterMap]
  refine filterMap_congr fun e _ => ?_
  exact view_toContextMessage e

theorem view_contextSpec (path : List SessionEntry) :
    (contextSpec path now).map view = (contextSpec path now').map view := by
  unfold contextSpec
  cases latestCompaction path with
  | none => exact view_messagesOf path
  | some found =>
    simp only [map_append, summaryPart]
    rw [view_messagesOf (contextEntries path)]
    split_ifs
    · rfl
    · rfl

theorem fromEntry_snoc {id : Option String} {e : SessionEntry} (hid : some e.id ≠ id)
    (path : List SessionEntry) :
    fromEntry id (path ++ [e]) = (fromEntry id path).map (· ++ [e]) := by
  induction path with
  | nil => simp [fromEntry, hid]
  | cons q path ih =>
    rw [cons_append, fromEntry, fromEntry, ih]
    split_ifs
    · rfl
    · rfl

theorem contextSpec_snoc {path : List SessionEntry} {e : SessionEntry} (hc : e.compaction = none)
    (hid : ∀ q ∈ path, ∀ d, q.compaction = some d → d.firstKeptEntryId ≠ some e.id) :
    contextSpec (path ++ [e]) now = contextSpec path now ++ messagesOf now [e] := by
  unfold contextSpec contextEntries
  rw [latestCompaction_snoc, hc]
  cases hl : latestCompaction path with
  | none => exact messagesOf_append now path [e]
  | some found =>
    obtain ⟨d, later⟩ := found
    obtain ⟨older, c, hpath, hcd, -⟩ := latestCompaction_split hl
    have hne : some e.id ≠ d.firstKeptEntryId := by
      refine Ne.symm (hid c ?_ d hcd)
      rw [hpath]
      simp
    simp only [map_some, fromEntry_snoc hne]
    cases fromEntry d.firstKeptEntryId path with
    | none => simp only [map_none, getD_none, messagesOf_append, append_assoc]
    | some kept =>
      simp only [map_some, getD_some, messagesOf_append, append_assoc]

def dataView : EntryData → Option MessageView
  | .message d => some (view (entryMessage 0 d))
  | _ => none

theorem view_messagesOf_singleton (e : SessionEntry) :
    (messagesOf now [e]).map view = (dataView e.data).toList := by
  have hclock : (messagesOf now [e]).map view = (messagesOf 0 [e]).map view :=
    view_messagesOf [e]
  rw [hclock]
  unfold messagesOf toContextMessage dataView
  rw [filterMap_cons]
  cases e.data with
  | _ => rfl

end Views

/-- No entry carries the id, and no compaction keeps from it. -/
def Unmentioned (st : SessionStore) (id : String) : Prop :=
  (∀ e ∈ st.entries, e.id ≠ id) ∧
    ∀ e ∈ st.entries, ∀ d, e.compaction = some d → d.firstKeptEntryId ≠ some id

/-- A runtime whose appends succeed: a well-formed store that holds the session, and ids
still to be drawn that are fresh. -/
structure Ready (env : Environment) (sessionId : String) (r : SessionRuntime) : Prop where
  store : r.store.WellFormed
  session : ∃ s, r.store.get sessionId = some s
  fresh : ∀ i, r.draws ≤ i → env.nanoid i ≠ "" ∧ Unmentioned r.store (env.nanoid i)
  distinct : ∀ i j, r.draws ≤ i → r.draws ≤ j → env.nanoid i = env.nanoid j → i = j

def isCompaction : EntryData → Bool
  | .compaction _ => true
  | _ => false

theorem compaction_eq_none {e : SessionEntry} {data : EntryData} (he : e.data = data)
    (hd : isCompaction data = false) : e.compaction = none := by
  unfold SessionEntry.compaction
  rw [he]
  cases data with
  | compaction d => cases hd
  | _ => rfl

section Append

variable {env : Environment} {sessionId : String} {r : SessionRuntime} {data : EntryData}

theorem Ready.exists_append (h : Ready env sessionId r) (data : EntryData) :
    ∃ st' e, r.store.appendEntry sessionId data (env.nanoid r.draws) (r.now env) = .ok (st', e) ∧
      (r.append env sessionId data).store = st' := by
  obtain ⟨s, hs⟩ := h.session
  have hnew := (h.fresh r.draws (le_refl _)).2.1
  have hlookup : Table.lookup SessionEntry.id r.store.entries (env.nanoid r.draws) = none :=
    Table.lookup_eq_none.mpr hnew
  have happend :
      ∃ p, r.store.appendEntry sessionId data (env.nanoid r.draws) (r.now env) = .ok p := by
    unfold SessionStore.appendEntry
    rw [hs]
    simp only [hlookup, isSome_none, Bool.false_eq_true, if_false]
    exact ⟨_, rfl⟩
  obtain ⟨⟨st', e⟩, hp⟩ := happend
  refine ⟨st', e, hp, ?_⟩
  simp only [SessionRuntime.append, hp]
  rfl

theorem Ready.append (h : Ready env sessionId r) (hd : isCompaction data = false) :
    Ready env sessionId (r.append env sessionId data) := by
  obtain ⟨st', e, hp, hst⟩ := h.exists_append data
  obtain ⟨hne, -⟩ := h.fresh r.draws (le_refl _)
  obtain ⟨hid, -, hdata⟩ := data_appendEntry hp
  have hentries := entries_appendEntry hp
  have hcompact := compaction_eq_none hdata hd
  refine ⟨?_, ?_, fun i hi => ?_, fun i j hi hj => ?_⟩
  · rw [hst]
    exact h.store.appendEntry hne hp
  · obtain ⟨s, hs⟩ := h.session
    have hget := get_appendEntry hp sessionId
    rw [hs] at hget
    rw [hst]
    exact ⟨_, hget⟩
  · have hi' : r.draws ≤ i := Nat.le_of_succ_le hi
    obtain ⟨hnonempty, hids, hkept⟩ := h.fresh i hi'
    have hother : e.id ≠ env.nanoid i := by
      rw [hid]
      intro heq
      have hij := h.distinct r.draws i (le_refl _) hi' heq
      have hlt : r.draws + 1 ≤ i := hi
      omega
    refine ⟨hnonempty, ?_, ?_⟩
    · rw [hst, hentries]
      intro q hq
      rcases mem_append.mp hq with hq | hq
      · exact hids q hq
      · rw [mem_singleton.mp hq]
        exact hother
    · rw [hst, hentries]
      intro q hq d hqd
      rcases mem_append.mp hq with hq | hq
      · exact hkept q hq d hqd
      · rw [mem_singleton.mp hq, hcompact] at hqd
        cases hqd
  · exact h.distinct i j (Nat.le_of_succ_le hi) (Nat.le_of_succ_le hj)

theorem Ready.rebuiltViews_append (h : Ready env sessionId r) (hd : isCompaction data = false) :
    rebuiltViews (r.append env sessionId data).store sessionId =
      rebuiltViews r.store sessionId ++ (dataView data).toList := by
  obtain ⟨st', e, hp, hst⟩ := h.exists_append data
  obtain ⟨hne, -, hkept⟩ := h.fresh r.draws (le_refl _)
  obtain ⟨hid, -, hdata⟩ := data_appendEntry hp
  have hcompact := compaction_eq_none hdata hd
  have hkept' : ∀ q ∈ r.store.path sessionId, ∀ d, q.compaction = some d →
      d.firstKeptEntryId ≠ some e.id := by
    intro q hq d hqd
    rw [hid]
    exact hkept q (h.store.mem_path hq).1 d hqd
  rw [rebuiltViews, hst, h.store.path_appendEntry hne hp, contextSpec_snoc hcompact hkept',
    map_append, view_messagesOf_singleton, hdata, rebuiltViews]

theorem Ready.buildContext_views (h : Ready env sessionId r) {now : Instant}
    {messages : List AgentMessage} (hb : r.store.buildContext sessionId now = .ok messages) :
    messages.map view = rebuiltViews r.store sessionId := by
  rw [h.store.buildContext_spec, Except.ok.injEq] at hb
  rw [← hb]
  exact view_contextSpec _

end Append

section Await

variable {env : Environment} {sessionId : String} {P : SessionRuntime → Prop}

theorem await_keeps {r : SessionRuntime}
    (hreceive : ∀ r' input, input ∈ env.arrivals r.ticks → P r' →
      P (r'.receive env sessionId input))
    (htick : ∀ (r' : SessionRuntime) tick, P r' → P { r' with ticks := tick }) (h : P r) :
    P (r.await env sessionId) := by
  have harrivals : ∀ inputs ⊆ env.arrivals r.ticks, ∀ r', P r' →
      P (inputs.foldl (SessionRuntime.receive env sessionId) r') := by
    intro inputs hsub
    induction inputs with
    | nil => exact fun r' h' => h'
    | cons input rest ih =>
      intro r' h'
      have hrest : rest ⊆ env.arrivals r.ticks := fun i hi => hsub (mem_cons_of_mem input hi)
      exact ih hrest _ (hreceive r' input (hsub mem_cons_self) h')
  exact htick _ _ (harrivals _ (Subset.refl _) r h)

end Await

/-- Neither replies, tool results nor arriving steering messages are of the kind. -/
structure Neutral (env : Environment) (q : MessageView → Bool) : Prop where
  reply : ∀ content, q ⟨.assistant, content, none, none, none⟩ = false
  toolResult : ∀ content id name isError, q ⟨.toolResult, content, id, name, isError⟩ = false
  steer : ∀ tick text, .steer text ∈ env.arrivals tick → q (userView (.plain text)) = false

/-- The queues of an agent hold nothing of the kind. -/
def QuietQueues (q : MessageView → Bool) (a : Agent) : Prop :=
  (∀ m ∈ a.steeringQueue, q (view m) = false) ∧ a.followUpQueue = []

/-- A ready runtime whose rebuilt context shows exactly the given views of the kind, and
whose agent has none of the kind waiting. -/
structure Counted (env : Environment) (sessionId : String) (q : MessageView → Bool)
    (kept : List MessageView) (r : SessionRuntime) : Prop where
  ready : Ready env sessionId r
  views : (rebuiltViews r.store sessionId).filter q = kept
  queues : ∀ a, r.agent = some a → QuietQueues q a

section Counted

variable {env : Environment} {sessionId : String} {q : MessageView → Bool}
  {kept : List MessageView} {r : SessionRuntime}

theorem Counted.append (h : Counted env sessionId q kept r) {data : EntryData}
    (hd : isCompaction data = false) (hq : ∀ v, dataView data = some v → q v = false) :
    Counted env sessionId q kept (r.append env sessionId data) := by
  refine ⟨h.ready.append hd, ?_, h.queues⟩
  have hnil : (dataView data).toList.filter q = [] := by
    cases hv : dataView data with
    | none => rfl
    | some v => simp [hq v hv]
  rw [h.ready.rebuiltViews_append hd, filter_append, hnil, append_nil, h.views]

theorem Counted.updateAgent (h : Counted env sessionId q kept r) {f : Agent → Agent}
    (hf : ∀ a, QuietQueues q a → QuietQueues q (f a)) :
    Counted env sessionId q kept (r.updateAgent f) := by
  refine ⟨⟨h.ready.store, h.ready.session, h.ready.fresh, h.ready.distinct⟩, h.views, ?_⟩
  intro a ha
  obtain ⟨b, hb, rfl⟩ := map_eq_some_iff.mp ha
  exact hf b (h.queues b hb)

theorem Counted.withAgent (h : Counted env sessionId q kept r) {agent : Option Agent}
    (ha : ∀ a, agent = some a → QuietQueues q a) :
    Counted env sessionId q kept { r with agent := agent } :=
  ⟨⟨h.ready.store, h.ready.session, h.ready.fresh, h.ready.distinct⟩, h.views, ha⟩

theorem Counted.handleSteer (h : Counted env sessionId q kept r) {text : String}
    (hq : q (userView (.plain text)) = false) :
    Counted env sessionId q kept (r.handleSteer env sessionId text) := by
  have happend : Counted env sessionId q kept
      (r.append env sessionId (SessionRuntime.userEntryData text (r.now env))) := by
    refine h.append rfl fun v hv => ?_
    cases hv
    exact hq
  unfold SessionRuntime.handleSteer
  simp only
  split_ifs
  · refine happend.updateAgent fun a ha => ⟨fun m hm => ?_, ha.2⟩
    rcases mem_append.mp hm with hm | hm
    · exact ha.1 m hm
    · rw [mem_singleton.mp hm]
      exact hq
  · exact happend

theorem dequeueSteering_quiet {queue : List AgentMessage} (hq : ∀ m ∈ queue, q (view m) = false) :
    (∀ m ∈ (SessionRuntime.dequeueSteering env queue).1, q (view m) = false) ∧
      ∀ m ∈ (SessionRuntime.dequeueSteering env queue).2, q (view m) = false := by
  unfold SessionRuntime.dequeueSteering
  cases env.steeringMode with
  | oneAtATime =>
    exact ⟨fun m hm => hq m (mem_of_mem_take hm), fun m hm => hq m (mem_of_mem_drop hm)⟩
  | all =>
    refine ⟨hq, fun m hm => ?_⟩
    simp only [not_mem_nil] at hm

variable (hn : Neutral env q)
include hn

theorem Counted.await (h : Counted env sessionId q kept r) :
    Counted env sessionId q kept (r.await env sessionId) := by
  refine await_keeps (fun r' input hinput h' => ?_) (fun r' tick h' => ?_) h
  · cases input with
    | steer text => exact h'.handleSteer (hn.steer r.ticks text hinput)
    | abort => exact h'.updateAgent fun a ha => ha
  · exact ⟨⟨h'.ready.store, h'.ready.session, h'.ready.fresh, h'.ready.distinct⟩, h'.views,
      h'.queues⟩

theorem Counted.handleAgentEvent (h : Counted env sessionId q kept r) (event : AgentEvent) :
    Counted env sessionId q kept (r.handleAgentEvent env sessionId event) := by
  cases event with
  | messageEnd message =>
    simp only [SessionRuntime.handleAgentEvent]
    split_ifs with hrole
    · have hreply : Counted env sessionId q kept (r.append env sessionId (.message
          { role := .assistant, content := message.content, timestamp := some (r.now env) })) := by
        refine h.append rfl fun v hv => ?_
        cases hv
        exact hn.reply message.content
      cases message.cost with
      | none => exact hreply
      | some payload =>
        refine hreply.append rfl fun v hv => ?_
        cases hv
    · exact h
  | toolExecutionEnd call result isError =>
    refine h.append rfl fun v hv => ?_
    cases hv
    exact hn.toolResult _ _ _ _
  | _ => exact h

theorem Counted.notify (h : Counted env sessionId q kept r) (event : AgentEvent) :
    Counted env sessionId q kept (r.notify env sessionId event) := by
  have hevent := h.handleAgentEvent hn event
  cases event with
  | agentEnd messages => exact hevent.withAgent nofun
  | _ => exact hevent

theorem Counted.emit (h : Counted env sessionId q kept r) (event : AgentEvent) :
    Counted env sessionId q kept (r.emit env sessionId event) := by
  have hagent : Counted env sessionId q kept
      (r.updateAgent (SessionRuntime.agentEvent event)) := by
    refine h.updateAgent fun a ha => ?_
    cases event with
    | _ => exact ha
  exact (hagent.notify hn event).await hn

theorem hostKeeps_counted (kept : List MessageView) :
    HostKeeps (SessionRuntime.host env sessionId) (Counted env sessionId q kept)
      fun m => q (view m) where
  emit := fun e r h => h.emit hn e
  transformContext := fun _ r h => h.await hn
  streamFn := fun messages r h => Counted.await hn
    ⟨⟨h.ready.store, h.ready.session, h.ready.fresh, h.ready.distinct⟩, h.views, h.queues⟩
  sleep := fun _ r h => h.await hn
  steering := by
    intro r h
    simp only [SessionRuntime.host, SessionRuntime.getSteeringMessages]
    cases ha : r.agent with
    | none => exact h.await hn
    | some a =>
      obtain ⟨hsteering, hfollow⟩ := h.queues a ha
      refine Counted.await hn (h.withAgent fun b hb => ?_)
      cases hb
      exact ⟨(dequeueSteering_quiet hsteering).2, hfollow⟩
  steered := by
    intro r h
    simp only [SessionRuntime.host, SessionRuntime.getSteeringMessages]
    cases ha : r.agent with
    | none =>
      intro m hm
      simp only [not_mem_nil] at hm
    | some a => exact (dequeueSteering_quiet (h.queues a ha).1).1
  followUp := by
    intro r h
    simp only [SessionRuntime.host, SessionRuntime.getFollowUpMessages]
    cases ha : r.agent with
    | none => exact h.await hn
    | some a =>
      obtain ⟨hsteering, hfollow⟩ := h.queues a ha
      refine Counted.await hn (h.withAgent fun b hb => ?_)
      cases hb
      exact ⟨hsteering, by simp [hfollow]⟩
  followed := by
    intro r h
    simp only [SessionRuntime.host, SessionRuntime.getFollowUpMessages]
    cases ha : r.agent with
    | none =>
      intro m hm
      simp only [not_mem_nil] at hm
    | some a =>
      have hfollow := (h.queues a ha).2
      simp [hfollow]
  beforeToolCall := fun _ _ _ r h => h.await hn
  execute := fun _ _ _ r h => h.await hn
  afterToolCall := fun _ _ _ r h => h.await hn
  reply := fun m => hn.reply (.blocks m.content)
  toolResult := fun m => hn.toolResult _ _ _ _

end Counted

end CrabbyKit.Runtime
