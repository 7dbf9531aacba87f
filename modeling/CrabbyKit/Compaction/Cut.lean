import CrabbyKit.Core.Sorted
import CrabbyKit.Compaction.Hook

/-!
# Where a compaction cuts the context

The hook cuts a context list but names the cut by an index into the ids of all message
entries of the session. The two lists agree exactly when the context is an unbroken
beginning of the session's messages.
-/

namespace CrabbyKit.Compaction

open SessionStore List Option

variable {st st' : SessionStore} {sessionId : String} {now : Instant}

inductive ContextSource
  | summary (text : String)
  | entry (e : SessionEntry)
  deriving DecidableEq, Repr

def ContextSource.message (now : Instant) : ContextSource → Option AgentMessage
  | .summary text => some (summaryMessage text now)
  | .entry e => toContextMessage now e

/-- The summary text in front of the context of a path, if there is one. -/
def leadingSummary (path : List SessionEntry) : Option String :=
  truthy ((latestCompaction path).map fun found => found.1.summary)

def contextMessageEntries (path : List SessionEntry) : List SessionEntry :=
  (contextEntries path).filter SessionEntry.isMessage

def contextSources (path : List SessionEntry) : List ContextSource :=
  (leadingSummary path).toList.map ContextSource.summary ++
    (contextMessageEntries path).map ContextSource.entry

theorem isSome_toContextMessage (e : SessionEntry) :
    (toContextMessage now e).isSome = e.isMessage := by
  unfold toContextMessage SessionEntry.isMessage
  cases e.data with
  | _ => rfl

theorem map_toContextMessage (entries : List SessionEntry) :
    (entries.filter SessionEntry.isMessage).map (toContextMessage now) =
      (messagesOf now entries).map some := by
  induction entries with
  | nil => rfl
  | cons e entries ih =>
    have hsome : (toContextMessage now e).isSome = e.isMessage := isSome_toContextMessage e
    unfold messagesOf at ih ⊢
    cases hm : toContextMessage now e with
    | none =>
      rw [hm] at hsome
      rw [filterMap_cons_none hm, filter_cons_of_neg (by rw [← hsome]; simp), ih]
    | some m =>
      rw [hm] at hsome
      rw [filterMap_cons_some hm, filter_cons_of_pos (by rw [← hsome]; rfl),
        map_cons, map_cons, ih, hm]

theorem length_messagesOf (now : Instant) (entries : List SessionEntry) :
    (messagesOf now entries).length = (entries.filter SessionEntry.isMessage).length := by
  have h : ((entries.filter SessionEntry.isMessage).map (toContextMessage now)).length =
      ((messagesOf now entries).map some).length :=
    congrArg List.length (map_toContextMessage entries)
  simpa only [length_map] using h.symm

variable (path : List SessionEntry)

theorem contextSpec_split (now : Instant) :
    contextSpec path now =
      (leadingSummary path).toList.map (summaryMessage · now) ++
        messagesOf now (contextEntries path) := by
  unfold contextSpec contextEntries leadingSummary
  cases latestCompaction path with
  | none => rfl
  | some found =>
    simp only [summaryPart, map_some, truthy]
    by_cases hs : found.1.summary = ""
    · simp [hs]
    · simp [hs]

theorem contextSources_message (now : Instant) :
    (contextSources path).map (ContextSource.message now) = (contextSpec path now).map some := by
  rw [contextSpec_split, contextSources, List.map_append, List.map_append, List.map_map,
    List.map_map, List.map_map, contextMessageEntries, ← map_toContextMessage]
  rfl

theorem length_contextSources (now : Instant) :
    (contextSources path).length = (contextSpec path now).length := by
  have h := congrArg List.length (contextSources_message path now)
  simpa only [length_map] using h

/-- The i-th id of the list handed to the engine names the entry that produced the i-th
message of the context. -/
def Aligned (st : SessionStore) (sessionId : String) : Prop :=
  ∀ i < (contextSources (st.path sessionId)).length, ∃ e,
    (contextSources (st.path sessionId))[i]? = some (.entry e) ∧
      (messageEntryIds st sessionId)[i]? = some e.id

/-- A compaction of the context at `cutIndex` did what it says. -/
structure CutsContext (st : SessionStore) (sessionId : String) (cutIndex : Nat)
    (data : CompactionEntryData) (st' : SessionStore) : Prop where
  /-- The next context is the summary and the previous context from the cut on. -/
  context : ∀ now previous, st.buildContext sessionId now = .ok previous →
    st'.buildContext sessionId now =
      .ok (summaryMessage data.summary now :: previous.drop cutIndex)
  /-- The first kept entry is on the active path. -/
  kept : ∃ e ∈ st'.path sessionId, data.firstKeptEntryId = some e.id
  /-- Ids and messages line up. -/
  aligned : Aligned st sessionId

/-- The context has no leading summary, and every message entry of the session that is
older than a message of the context is in the context. -/
structure UnbrokenContext (st : SessionStore) (sessionId : String) : Prop where
  unsummarised : leadingSummary (st.path sessionId) = none
  unbroken : ∀ e ∈ st.entries, e.sessionId = sessionId → e.isMessage = true →
    ∀ m ∈ contextMessageEntries (st.path sessionId), e.seq < m.seq →
      e ∈ contextMessageEntries (st.path sessionId)

theorem fromEntry_suffix {id : Option String} {path kept : List SessionEntry}
    (h : fromEntry id path = some kept) : kept <:+ path := by
  induction path with
  | nil => cases h
  | cons e rest ih =>
    rw [fromEntry] at h
    split_ifs at h with he
    · cases h
      exact suffix_refl _
    · exact (ih h).trans (suffix_cons e rest)

theorem contextEntries_suffix : contextEntries path <:+ path := by
  unfold contextEntries
  cases hl : latestCompaction path with
  | none => exact suffix_refl _
  | some found =>
    obtain ⟨older, c, hpath, -, -⟩ := latestCompaction_split hl
    simp only
    cases hf : fromEntry found.1.firstKeptEntryId path with
    | none => exact ⟨older ++ [c], by rw [getD_none, hpath]; simp⟩
    | some kept => exact fromEntry_suffix hf

theorem fromEntry_append {before after : List SessionEntry} {k : SessionEntry}
    (hb : ∀ e ∈ before, e.id ≠ k.id) :
    fromEntry (some k.id) (before ++ k :: after) = some (k :: after) := by
  induction before with
  | nil => simp [fromEntry]
  | cons e before ih =>
    have hne : some e.id ≠ some k.id := by
      simpa using hb e mem_cons_self
    rw [cons_append, fromEntry, if_neg hne]
    exact ih fun q hq => hb q (mem_cons_of_mem e hq)

section WellFormed

variable (h : st.WellFormed)
include h

theorem messageEntries_ordered (sessionId : String) :
    ((st.getEntries sessionId).filter SessionEntry.isMessage).Pairwise fun a b => a.seq < b.seq :=
  (h.getEntries_ordered sessionId).filter _

theorem contextMessageEntries_mem {e : SessionEntry}
    (he : e ∈ contextMessageEntries (st.path sessionId)) :
    e ∈ (st.getEntries sessionId).filter SessionEntry.isMessage := by
  obtain ⟨hin, hm⟩ := mem_filter.mp he
  have hpath := (contextEntries_suffix (st.path sessionId)).subset hin
  exact mem_filter.mpr ⟨mem_getEntries.mpr (h.mem_path hpath), hm⟩

theorem contextMessageEntries_ordered (sessionId : String) :
    (contextMessageEntries (st.path sessionId)).Pairwise fun a b => a.seq < b.seq :=
  ((h.path_seq sessionId).sublist (contextEntries_suffix _).sublist).filter _

theorem contextMessageEntries_nodup (sessionId : String) :
    (contextMessageEntries (st.path sessionId)).Nodup :=
  ((h.path_nodup sessionId).sublist (contextEntries_suffix _).sublist).filter _

theorem UnbrokenContext.isPrefix (hu : UnbrokenContext st sessionId) :
    contextMessageEntries (st.path sessionId) <+:
      (st.getEntries sessionId).filter SessionEntry.isMessage := by
  refine Sorted.isPrefix_of_downClosed (messageEntries_ordered h sessionId)
    (contextMessageEntries_ordered h sessionId) (fun e => contextMessageEntries_mem h) ?_
  intro e he m hm hlt
  obtain ⟨hin, hmsg⟩ := mem_filter.mp he
  obtain ⟨hent, hsid⟩ := mem_getEntries.mp hin
  exact hu.unbroken e hent hsid hmsg m hm hlt

theorem UnbrokenContext.aligned (hu : UnbrokenContext st sessionId) : Aligned st sessionId := by
  have hsources : contextSources (st.path sessionId) =
      (contextMessageEntries (st.path sessionId)).map ContextSource.entry := by
    rw [contextSources, hu.unsummarised]
    rfl
  intro i hi
  rw [hsources, length_map] at hi
  have hget := (prefix_iff_getElem?.mp (hu.isPrefix h)) i hi
  refine ⟨(contextMessageEntries (st.path sessionId))[i], ?_, ?_⟩
  · rw [hsources, getElem?_map, getElem?_eq_getElem hi]
    rfl
  · rw [messageEntryIds, getElem?_map, hget]
    rfl

theorem Aligned.unbroken (ha : Aligned st sessionId)
    (hne : 0 < (contextSources (st.path sessionId)).length) : UnbrokenContext st sessionId := by
  have hsummary : leadingSummary (st.path sessionId) = none := by
    obtain ⟨e, he, -⟩ := ha 0 hne
    cases hs : leadingSummary (st.path sessionId) with
    | none => rfl
    | some text =>
      rw [contextSources, hs] at he
      cases he
  have hsources : contextSources (st.path sessionId) =
      (contextMessageEntries (st.path sessionId)).map ContextSource.entry := by
    rw [contextSources, hsummary]
    rfl
  have hpre : contextMessageEntries (st.path sessionId) <+:
      (st.getEntries sessionId).filter SessionEntry.isMessage := by
    refine prefix_iff_getElem?.mpr fun i hi => ?_
    have hmem := contextMessageEntries_mem h (getElem_mem hi)
    obtain ⟨e, he, hid⟩ := ha i (by rw [hsources, length_map]; exact hi)
    rw [hsources, getElem?_map, getElem?_eq_getElem hi, map_some,
      Option.some.injEq, ContextSource.entry.injEq] at he
    rw [messageEntryIds, getElem?_map] at hid
    obtain ⟨q, hq, hqid⟩ := map_eq_some_iff.mp hid
    have hqmem := mem_of_getElem? hq
    have hqe : q = (contextMessageEntries (st.path sessionId))[i] := by
      refine h.eq_of_id (mem_getEntries.mp (mem_filter.mp hqmem).1).1
        (mem_getEntries.mp (mem_filter.mp hmem).1).1 ?_
      rw [hqid, he]
    rw [hq, hqe]
  refine ⟨hsummary, fun e he hs hm m hmem hlt => ?_⟩
  have hin := mem_filter.mpr ⟨mem_getEntries.mpr ⟨he, hs⟩, hm⟩
  exact Sorted.downClosed_of_isPrefix (messageEntries_ordered h sessionId) hpre hin hmem hlt

theorem contextSpec_compacted (hsummary : leadingSummary (st.path sessionId) = none)
    {cutIndex : Nat} {k c : SessionEntry} {data : CompactionEntryData}
    (hk : (contextMessageEntries (st.path sessionId))[cutIndex]? = some k)
    (hc : c.data = .compaction data) (hkept : data.firstKeptEntryId = some k.id)
    (hne : data.summary ≠ "") (now : Instant) :
    contextSpec (st.path sessionId ++ [c]) now =
      summaryMessage data.summary now :: (contextSpec (st.path sessionId) now).drop cutIndex := by
  have hcompact : c.compaction = some data := by rw [SessionEntry.compaction, hc]
  have hlatest : latestCompaction (st.path sessionId ++ [c]) = some (data, []) := by
    rw [latestCompaction_snoc, hcompact]
  obtain ⟨a, ha⟩ := contextEntries_suffix (st.path sessionId)
  have hkin : k ∈ contextEntries (st.path sessionId) :=
    (mem_filter.mp (mem_of_getElem? hk)).1
  obtain ⟨b, after, hb⟩ := append_of_mem hkin
  have hpath : st.path sessionId = (a ++ b) ++ k :: after := by
    rw [← ha, hb, append_assoc]
  have hids : ∀ e ∈ a ++ b, e.id ≠ k.id := by
    intro e he hid
    have hnodup := h.path_nodup sessionId
    rw [hpath] at hnodup
    have hek : e = k := h.eq_of_id
      (h.mem_path (by rw [hpath]; exact mem_append_left _ he)).1
      (h.mem_path (by rw [hpath]; simp)).1 hid
    exact (nodup_append.mp hnodup).2.2 e he k mem_cons_self hek
  have hfrom : fromEntry (some k.id) (st.path sessionId ++ [c]) = some (k :: after ++ [c]) := by
    rw [hpath, append_assoc, cons_append]
    exact fromEntry_append hids
  have hcut : (messagesOf now b).length = cutIndex := by
    have hkmsg : k.isMessage = true := (mem_filter.mp (mem_of_getElem? hk)).2
    have hsplit : contextMessageEntries (st.path sessionId) =
        b.filter SessionEntry.isMessage ++ k :: after.filter SessionEntry.isMessage := by
      rw [contextMessageEntries, hb, filter_append, filter_cons_of_pos hkmsg]
    rw [length_messagesOf]
    exact Sorted.split_at_index (contextMessageEntries_nodup h sessionId) hk hsplit
  have hnone : messagesOf now [c] = [] := by
    unfold messagesOf toContextMessage
    simp [hc]
  rw [contextSpec_split (st.path sessionId), hsummary, hb]
  simp only [contextSpec, contextEntries, hlatest, hkept, hfrom, summaryPart, hne, if_false,
    getD_some, toList_none, map_nil, nil_append, singleton_append]
  rw [messagesOf_append, messagesOf_append, hnone, append_nil, ← hcut, drop_left]

end WellFormed

theorem Compacted.spec {ai : AiModule} {options : CompactionSummaryOptions}
    {messages : List AgentMessage} {nanoid : String} {cutIndex : Nat} {data : CompactionEntryData}
    (hc : Compacted ai options st sessionId messages nanoid now cutIndex data st') :
    0 < cutIndex ∧ cutIndex < messages.length ∧ data.summary ≠ "" ∧
      data.firstKeptEntryId = (messageEntryIds st sessionId)[cutIndex]? ∧
      ∃ c, st.appendEntry sessionId (.compaction data) nanoid now = .ok (st', c) := by
  obtain ⟨hhook, hcut, happend⟩ := hc
  obtain ⟨c, hac⟩ := fst_ok happend
  have hentries := entries_appendEntry hac
  rcases beforeInference_cases ai options st sessionId messages nanoid now with hsame |
    ⟨cut, data', st₁, c₁, hcut', hne, hkept, hac', hst₁⟩
  · have hlen := congrArg (fun s : SessionStore => s.entries.length) (hhook.symm.trans hsame)
    simp only [hentries, length_append, length_singleton] at hlen
    omega
  · obtain rfl : st₁ = st' := hst₁.symm.trans hhook
    obtain rfl : cut.cutIndex = cutIndex := by
      rw [hcut'] at hcut
      exact Option.some.inj hcut
    have hbound := findCutPoint_bound hcut'
    have hlen : (options.messagesToCompact messages).length = messages.length :=
      length_pruneToolOutputs messages _
    have hcc : c₁ = c := by
      have htail := append_cancel_left ((entries_appendEntry hac').symm.trans hentries)
      exact singleton_inj.mp htail
    have hdata : data' = data := by
      have h₁ := (data_appendEntry hac').2.2
      have h₂ := (data_appendEntry hac).2.2
      rw [hcc, h₂] at h₁
      exact (EntryData.compaction.inj h₁).symm
    subst hdata
    exact ⟨hbound.1, hlen ▸ hbound.2, hne, hkept, c, hac⟩

/-- In every reachable session in which the hook compacts, the compaction cuts the context
where it says, with ids and messages aligned, exactly when the context is unbroken. -/
theorem cutsContext_iff (calls : List StoreCall) (h : Fresh calls) (ai : AiModule)
    (options : CompactionSummaryOptions) (sessionId nanoid : String) (readAt now : Instant)
    (messages : List AgentMessage) (cutIndex : Nat) (data : CompactionEntryData)
    (st' : SessionStore) (hm : (run calls).buildContext sessionId readAt = .ok messages)
    (hn : nanoid ≠ "")
    (hc : Compacted ai options (run calls) sessionId messages nanoid now cutIndex data st') :
    CutsContext (run calls) sessionId cutIndex data st' ↔
      UnbrokenContext (run calls) sessionId := by
  have hw := wellFormed_run h
  obtain ⟨hpos, hlt, hne, hkept, c, happend⟩ := hc.spec
  have hlen : messages.length = (contextSources ((run calls).path sessionId)).length := by
    rw [hw.buildContext_spec, Except.ok.injEq] at hm
    rw [length_contextSources _ readAt, hm]
  constructor
  · intro hcuts
    exact hcuts.aligned.unbroken hw (by omega)
  · intro hu
    have haligned := hu.aligned hw
    obtain ⟨k, hk, hid⟩ := haligned cutIndex (hlen ▸ hlt)
    have hksource : (contextMessageEntries ((run calls).path sessionId))[cutIndex]? = some k := by
      rw [contextSources, hu.unsummarised, toList_none, map_nil, nil_append, getElem?_map] at hk
      obtain ⟨q, hq, hqk⟩ := map_eq_some_iff.mp hk
      rw [hq, ContextSource.entry.inj hqk]
    have hpath := hw.path_appendEntry hn happend
    have hkid : data.firstKeptEntryId = some k.id := hkept.trans hid
    refine ⟨fun later previous hprevious => ?_, ⟨k, ?_, hkid⟩, haligned⟩
    · rw [hw.buildContext_spec, Except.ok.injEq] at hprevious
      rw [(hw.appendEntry hn happend).buildContext_spec, hpath, ← hprevious,
        contextSpec_compacted hw hu.unsummarised hksource (data_appendEntry happend).2.2 hkid hne]
    · rw [hpath]
      have hin := (mem_filter.mp (mem_of_getElem? hksource)).1
      exact mem_append_left _ ((contextEntries_suffix _).subset hin)

/-- A provider that answers every request with the same summary. -/
def gistModule : AiModule where
  getModel := fun _ _ => true
  streamSimple := fun _ _ _ _ => .ok [.other, .done (some [.text "gist"])]

def smallWindow : CompactionSummaryOptions where
  provider := "openrouter"
  modelId := "summarizer"
  contextWindowTokens := some 10
  keepRecentTokens := some 1

/-- Three messages in a row. -/
def straightCalls : List StoreCall :=
  [⟨.create {}, "s", 0⟩, ⟨.appendEntry "s" (userEntry "first"), "m1", 1⟩,
    ⟨.appendEntry "s" (userEntry "second"), "m2", 2⟩,
    ⟨.appendEntry "s" (userEntry "third"), "m3", 3⟩]

/-- The third message follows the first on a branch that abandons the second. -/
def abandonedCalls : List StoreCall :=
  [⟨.create {}, "s", 0⟩, ⟨.appendEntry "s" (userEntry "first"), "m1", 1⟩,
    ⟨.appendEntry "s" (userEntry "second"), "m2", 2⟩, ⟨.branch "s" "m1", "b", 3⟩,
    ⟨.appendEntry "s" (userEntry "third"), "m3", 4⟩]

def compactCall (data : CompactionEntryData) : StoreCall :=
  ⟨.appendEntry "s" (.compaction data), "c", 9⟩

/-- The context messages of user entries read back at instant 9. -/
def userMessages (texts : List String) : List AgentMessage :=
  texts.map fun text => { role := .user, content := .plain text, timestamp := 9 }

/-- On the straight session the hook cuts where it says. -/
theorem cutsContext_iff_straight :
    CutsContext (run straightCalls) "s" 2 ⟨"gist", some "m3", 27⟩
      (run (straightCalls ++ [compactCall ⟨"gist", some "m3", 27⟩])) :=
  (cutsContext_iff straightCalls (by decide) gistModule smallWindow "s" "c" 9 9
    (userMessages ["first", "second", "third"]) 2 ⟨"gist", some "m3", 27⟩ _ (by decide) (by decide)
    ⟨by decide +kernel, by decide +kernel, by decide +kernel⟩).mpr ⟨by decide, by decide⟩

/-- On the branched session the hook keeps from the abandoned message on, and the third
message is lost. -/
theorem abandoned_not_cutsContext :
    Fresh abandonedCalls ∧
      (run abandonedCalls).buildContext "s" 9 = .ok (userMessages ["first", "third"]) ∧
      Compacted gistModule smallWindow (run abandonedCalls) "s" (userMessages ["first", "third"])
        "c" 9 1 ⟨"gist", some "m2", 18⟩
        (run (abandonedCalls ++ [compactCall ⟨"gist", some "m2", 18⟩])) ∧
      (run (abandonedCalls ++ [compactCall ⟨"gist", some "m2", 18⟩])).buildContext "s" 9 =
        .ok [summaryMessage "gist" 9] ∧
      ¬CutsContext (run abandonedCalls) "s" 1 ⟨"gist", some "m2", 18⟩
        (run (abandonedCalls ++ [compactCall ⟨"gist", some "m2", 18⟩])) := by
  have hprevious :
      (run abandonedCalls).buildContext "s" 9 = .ok (userMessages ["first", "third"]) := by decide
  have hnext :
      (run (abandonedCalls ++ [compactCall ⟨"gist", some "m2", 18⟩])).buildContext "s" 9 =
        .ok [summaryMessage "gist" 9] := by decide
  refine ⟨by decide, hprevious, ⟨by decide +kernel, by decide +kernel, by decide +kernel⟩,
    hnext, ?_⟩
  intro hcuts
  have hcontext := hcuts.context 9 _ hprevious
  rw [hnext] at hcontext
  revert hcontext
  decide

end CrabbyKit.Compaction
