import CrabbyKit.Session.PathOps

/-!
# Session trees of reachable stores

Every run of store calls keeps each session a tree whose parent links lower `seq`,
so that each leaf-to-root loop of the store returns and meets no entry twice.
-/

namespace CrabbyKit.SessionStore

variable {st : SessionStore} {sessionId : String}

/-- Leaves and parents stay in their session, parents are older, and `seq` numbers
the entries of a session without repetition. -/
structure SessionTree (st : SessionStore) : Prop where
  /-- A leaf is an entry of its own session. -/
  leaf : ∀ s ∈ st.sessions, ∀ l, s.leafId = some l →
    ∃ e ∈ st.entries, e.id = l ∧ e.sessionId = s.id
  /-- A parent is an entry of the same session with a smaller `seq`. -/
  parent : ∀ e ∈ st.entries, ∀ p, e.parentId = some p →
    ∃ q ∈ st.entries, q.id = p ∧ q.sessionId = e.sessionId ∧ q.seq < e.seq
  /-- The entries of a session have pairwise distinct `seq`. -/
  seqs : ∀ sessionId, ((st.getEntries sessionId).map SessionEntry.seq).Nodup

/-- The leaf-to-root loops of a session return, from whichever entry they start,
after meeting each entry of a duplicate-free list once. -/
structure WalksReturn (st : SessionStore) (sessionId : String) : Prop where
  /-- The loop that collects the path, and the mode walk over the same entries. -/
  walk : ∀ id, ∃ visited, st.walkFrom sessionId id = some visited ∧ visited.Nodup ∧
    st.walkActiveModeIdAt sessionId id = .ok (visited.findSome? modeAnswer).join
  /-- Building the context returns. -/
  context : ∀ now, ∃ messages, st.buildContext sessionId now = .ok messages
  /-- The collection of unreachable entries returns. -/
  collect : ∃ result, st.gc sessionId = .ok result

theorem WellFormed.sessionTree (h : st.WellFormed) : st.SessionTree where
  leaf := h.leaf
  parent := h.parent
  seqs := fun sessionId => by
    have hlt := h.getEntries_ordered sessionId
    exact List.pairwise_map.mpr (hlt.imp fun hab => hab.ne)

theorem WellFormed.walkActiveModeIdAt_eq (h : st.WellFormed) {id : String}
    {visited : List SessionEntry}
    (hc : st.EntryChain sessionId (st.entryMap sessionId id) visited) :
    st.walkActiveModeIdAt sessionId id = .ok (visited.findSome? modeAnswer).join := by
  have hlen := h.chain_length hc h.entryMap_mem
  simp only [walkActiveModeIdAt, hc.search_eq hlen]

theorem WellFormed.buildContext_eq (h : st.WellFormed) (sessionId : String) (now : Instant) :
    st.buildContext sessionId now = .ok (contextOfPath (st.path sessionId) now) := by
  have hempty : contextOfPath [] now = [] := rfl
  rw [buildContext, path_eq, leafOf]
  cases hl : (st.get sessionId).bind fun s => truthy s.leafId with
  | none => rw [hempty]
  | some l =>
    obtain ⟨visited, hw, -⟩ := h.exists_walkFrom sessionId l
    obtain ⟨e, -, he, hs, -⟩ := h.leafOf_mem hl
    have hne : (st.getEntries sessionId).isEmpty = false :=
      List.isEmpty_eq_false_iff_exists_mem.mpr ⟨e, mem_getEntries.mpr ⟨he, hs⟩⟩
    simp only [hne, Bool.false_eq_true, if_false, hw, pathTo, Option.getD_some]

theorem WellFormed.exists_gc (h : st.WellFormed) (sessionId : String) :
    ∃ result, st.gc sessionId = .ok result := by
  unfold SessionStore.gc
  cases (st.get sessionId).bind fun s => truthy s.leafId with
  | none => exact ⟨_, rfl⟩
  | some l =>
    obtain ⟨visited, hw, -⟩ := h.exists_walkFrom sessionId l
    simp only [hw]
    split
    · exact ⟨_, rfl⟩
    · exact ⟨_, rfl⟩

theorem WellFormed.walksReturn (h : st.WellFormed) (sessionId : String) :
    st.WalksReturn sessionId where
  walk := fun id => by
    obtain ⟨visited, hw, hc⟩ := h.exists_walkFrom sessionId id
    exact ⟨visited, hw, h.chain_nodup hc h.entryMap_mem, h.walkActiveModeIdAt_eq hc⟩
  context := fun now => ⟨_, h.buildContext_eq sessionId now⟩
  collect := h.exists_gc sessionId

/-- Every run of store calls with fresh ids ends in session trees whose parent walks
return, also after a collection freed a `seq` that a later append takes again. -/
theorem sessionTree_run (calls : List StoreCall) (h : Fresh calls) :
    (run calls).SessionTree ∧ ∀ sessionId, (run calls).WalksReturn sessionId :=
  have hw := wellFormed_run h
  ⟨hw.sessionTree, hw.walksReturn⟩

def userEntry (text : String) : EntryData := .message { role := .user, content := .plain text }

/-- A run in which a collection frees the highest `seq` of a session. -/
def reusedSeqCalls : List StoreCall :=
  [⟨.create {}, "s", 0⟩, ⟨.appendEntry "s" (userEntry "first"), "a", 1⟩,
    ⟨.appendEntry "s" (userEntry "second"), "b", 2⟩, ⟨.branch "s" "a", "c", 3⟩,
    ⟨.gc "s", "d", 4⟩, ⟨.appendEntry "s" (userEntry "third"), "e", 5⟩]

/-- In that run the third message takes the `seq` of the collected second one. -/
theorem sessionTree_run_reusedSeq :
    ((run reusedSeqCalls).getEntries "s").map (fun e => (e.id, e.seq)) = [("a", 1), ("e", 2)] ∧
      (run reusedSeqCalls).SessionTree ∧ ∀ sessionId, (run reusedSeqCalls).WalksReturn sessionId :=
  ⟨by decide, sessionTree_run reusedSeqCalls (by decide)⟩

end CrabbyKit.SessionStore

/-!
## The active-mode cache

`active_mode_id` is written incrementally by appends and recomputed by branches.
After every run of log operations it is the mode of the latest mode change on the
active path.
-/

namespace CrabbyKit

def SessionEntry.modeChange (e : SessionEntry) : Option ModeChangeEntryData :=
  match e.data with
  | .modeChange d => some d
  | _ => none

/-- Whether an operation writes the mode cache past the log. -/
def StoreOp.setsMode : StoreOp → Bool
  | .setActiveMode _ _ => true
  | _ => false

namespace SessionStore

variable {st st' : SessionStore} {sessionId nanoid : String} {now : Instant}

/-- The mode a root-to-leaf path leaves active: the one its latest mode change enters,
none when that change is an exit or there is no change. -/
def modeOnPath (path : List SessionEntry) : Option String :=
  (path.filterMap SessionEntry.modeChange).getLast?.bind ModeChangeEntryData.nextActiveModeId

theorem modeAnswer_eq (e : SessionEntry) :
    modeAnswer e = e.modeChange.map ModeChangeEntryData.nextActiveModeId := by
  unfold modeAnswer SessionEntry.modeChange
  cases e.data with
  | modeChange d => cases d <;> rfl
  | _ => rfl

theorem modeOnPath_snoc (path : List SessionEntry) (e : SessionEntry) :
    modeOnPath (path ++ [e]) = (modeAnswer e).getD (modeOnPath path) := by
  rw [modeAnswer_eq]
  unfold modeOnPath
  rw [List.filterMap_append]
  cases he : e.modeChange with
  | none => simp [he]
  | some d => simp [he]

theorem findSome?_modeAnswer (path : List SessionEntry) :
    (path.reverse.findSome? modeAnswer).join = modeOnPath path := by
  induction path using List.reverseRecOn with
  | nil => rfl
  | append_singleton path e ih =>
    rw [modeOnPath_snoc, List.reverse_append, List.reverse_singleton, List.singleton_append,
      List.findSome?_cons]
    cases modeAnswer e with
    | none => exact ih
    | some m => rfl

theorem WellFormed.walkActiveModeIdAt_pathTo (h : st.WellFormed) (sessionId id : String) :
    st.walkActiveModeIdAt sessionId id = .ok (modeOnPath (st.pathTo sessionId id)) := by
  have hc := h.pathTo_chain sessionId id
  rw [h.walkActiveModeIdAt_eq hc, findSome?_modeAnswer]

/-- The cache holds the mode of the active path, for every session. -/
def ModeCoherent (st : SessionStore) : Prop :=
  ∀ sessionId, st.readActiveModeId sessionId = modeOnPath (st.path sessionId)

theorem readActiveModeId_congr {id : String} (h : st'.get id = st.get id) :
    st'.readActiveModeId id = st.readActiveModeId id := by
  rw [readActiveModeId, readActiveModeId, h]

theorem readActiveModeId_updateSession {f : Session → Session} (hf : ∀ s, (f s).id = s.id)
    (id : String) :
    (st.updateSession sessionId f).readActiveModeId id =
      (st.get id).bind fun s => if id = sessionId then (f s).activeModeId else s.activeModeId := by
  rw [readActiveModeId, get_updateSession hf, Option.bind_map]
  refine Option.bind_congr fun s _ => ?_
  by_cases hid : id = sessionId
  · simp [hid]
  · simp [hid]

theorem ModeCoherent.updateRow (h : st.ModeCoherent) {f : Session → Session}
    (hid : ∀ s, (f s).id = s.id) (hleaf : ∀ s, (f s).leafId = s.leafId)
    (hmode : ∀ s, (f s).activeModeId = s.activeModeId) :
    (st.updateSession sessionId f).ModeCoherent := by
  intro id
  rw [path_updateRow hid hleaf, ← h id, readActiveModeId_updateSession hid, readActiveModeId]
  refine Option.bind_congr fun s _ => ?_
  simp [hmode]

theorem advanceLeaf_activeModeId (id : String) (data : EntryData) (s : Session)
    {e : SessionEntry} (he : e.data = data) :
    (advanceLeaf id data now s).activeModeId = (modeAnswer e).getD s.activeModeId := by
  rw [modeAnswer_eq, SessionEntry.modeChange, he]
  cases data <;> rfl

theorem ModeCoherent.create (h : st.ModeCoherent) {opts : CreateOpts} {s : Session}
    (hc : st.create opts nanoid now = .ok (st', s)) : st'.ModeCoherent := by
  intro id
  rw [path_create hc, ← h id]
  obtain ⟨hnone, -, rfl⟩ := create_ok hc
  rw [readActiveModeId, readActiveModeId]
  simp only [get, Table.lookup, List.find?_append] at hnone ⊢
  by_cases hid : nanoid = id
  · subst hid
    simp [hnone, newSession]
  · simp [newSession, hid]

theorem ModeCoherent.appendEntry (h : st.ModeCoherent) (hw : st.WellFormed) (hn : nanoid ≠ "")
    {data : EntryData} {e : SessionEntry}
    (ha : st.appendEntry sessionId data nanoid now = .ok (st', e)) : st'.ModeCoherent := by
  intro id
  have hget := get_appendEntry ha id
  by_cases hid : id = sessionId
  · subst hid
    rw [hw.path_appendEntry hn ha, modeOnPath_snoc, ← h id]
    obtain ⟨s, hs, -, -, -, -⟩ := appendEntry_ok ha
    have hdata := (data_appendEntry ha).2.2
    rw [readActiveModeId, readActiveModeId, hget, hs]
    simp only [if_true, Option.map_some, Option.bind_some]
    exact advanceLeaf_activeModeId nanoid data s hdata
  · rw [hw.path_appendEntry_of_ne hn ha hid, ← h id]
    refine readActiveModeId_congr ?_
    rw [hget]
    simp only [hid, if_false, Option.map_id']

theorem ModeCoherent.branch (h : st.ModeCoherent) (hw : st.WellFormed) {fromEntryId : String}
    (hb : st.branch sessionId fromEntryId now = .ok st') : st'.ModeCoherent := by
  intro id
  obtain ⟨e, -, -, -, mode, hmode, hst⟩ := branch_ok hb
  have hrow := branchRow_id fromEntryId mode now
  rw [hw.walkActiveModeIdAt_pathTo, Except.ok.injEq] at hmode
  by_cases hid : id = sessionId
  · subst hid
    cases hs : st.get id with
    | none =>
      have hnone : st'.get id = none := by
        rw [hst, get_updateSession hrow, hs]
        rfl
      rw [path_of_get_none hnone, readActiveModeId, hnone]
      rfl
    | some s =>
      rw [hw.path_branch hb hs, hst, readActiveModeId_updateSession hrow, hs, hmode]
      simp only [Option.bind_some, if_true, branchRow]
  · rw [path_branch_of_ne hb hid, ← h id]
    refine readActiveModeId_congr ?_
    rw [hst, get_updateSession hrow]
    simp only [hid, if_false, Option.map_id']

theorem ModeCoherent.gc (h : st.ModeCoherent) (hw : st.WellFormed) {n : Nat}
    (hg : st.gc sessionId = .ok (st', n)) : st'.ModeCoherent := by
  intro id
  obtain ⟨hsess, -⟩ := gc_ok hw hg
  rw [hw.path_gc hg, ← h id]
  refine readActiveModeId_congr ?_
  rw [get, get, hsess]

theorem ModeCoherent.delete (h : st.ModeCoherent) (hw : st.WellFormed) (sessionId : String) :
    (st.delete sessionId).ModeCoherent := by
  intro id
  by_cases hid : id = sessionId
  · subst hid
    have hnone : (st.delete id).get id = none := by
      refine Table.lookup_eq_none.mpr fun s hs => ?_
      simpa using (List.mem_filter.mp hs).2
    rw [path_delete, readActiveModeId, hnone]
    rfl
  · rw [hw.path_delete_of_ne hid, ← h id]
    exact readActiveModeId_congr (get_delete_of_ne hid)

theorem ModeCoherent.after (h : st.ModeCoherent) {r : Except StoreError SessionStore}
    (hr : ∀ st', r = .ok st' → st'.ModeCoherent) : (st.after r).ModeCoherent := by
  cases r with
  | ok st' => exact hr st' rfl
  | error _ => exact h

/-- Every call but `setActiveMode` keeps the cache coherent. -/
theorem ModeCoherent.exec (h : st.ModeCoherent) (hw : st.WellFormed) {c : StoreCall}
    (hn : c.nanoid ≠ "") (hc : c.op.setsMode = false) : (st.exec c).ModeCoherent := by
  obtain ⟨op, nanoid, now⟩ := c
  cases op with
  | create opts => exact h.after fun st' he => let ⟨_, hc⟩ := fst_ok he; h.create hc
  | appendEntry sessionId data =>
    exact h.after fun st' he => let ⟨_, ha⟩ := fst_ok he; h.appendEntry hw hn ha
  | branch sessionId fromEntryId => exact h.after fun st' hb => h.branch hw hb
  | gc sessionId => exact h.after fun st' he => let ⟨_, hg⟩ := fst_ok he; h.gc hw hg
  | delete sessionId => exact h.delete hw sessionId
  | rename sessionId name => exact h.updateRow (fun _ => rfl) (fun _ => rfl) fun _ => rfl
  | setActiveMode sessionId modeId => cases hc

/-- Every fresh run without `setActiveMode` keeps the cache coherent. -/
theorem modeCoherent_run {calls : List StoreCall} (h : Fresh calls)
    (hm : ∀ c ∈ calls, c.op.setsMode = false) : (run calls).ModeCoherent := by
  refine Run.run_induction
    (P := fun calls (st : SessionStore) => Fresh calls → (∀ c ∈ calls, c.op.setsMode = false) →
      st.WellFormed ∧ st.ModeCoherent) ?_ ?_ calls h hm |>.2
  · intro _ _
    exact ⟨wellFormed_empty, fun _ => rfl⟩
  · intro calls c st ih hf hm
    obtain ⟨hf, -, hn⟩ := fresh_snoc.mp hf
    obtain ⟨hw, hcoh⟩ := ih hf fun q hq => hm q (List.mem_append_left _ hq)
    have hc := hm c (List.mem_append_right _ (List.mem_singleton_self c))
    exact ⟨hw.exec hn, hcoh.exec hw hn hc⟩

/-- The mode the parent walk from the current leaf reads; none without a leaf. -/
def walkedMode (st : SessionStore) (sessionId : String) : Except StoreError (Option String) :=
  match st.leafOf sessionId with
  | none => .ok none
  | some leafId => st.walkActiveModeIdAt sessionId leafId

/-- After every run of appends, branches, collections and the other log operations the
cached mode of a session is what the walk from its leaf reads: the mode the latest mode
change on the active path enters, and none after an exit or without a change. -/
theorem readActiveModeId_run (calls : List StoreCall) (h : Fresh calls)
    (hm : ∀ c ∈ calls, c.op.setsMode = false) (sessionId : String) :
    (run calls).walkedMode sessionId = .ok ((run calls).readActiveModeId sessionId) ∧
      (run calls).readActiveModeId sessionId = modeOnPath ((run calls).path sessionId) := by
  have hcoh := modeCoherent_run h hm sessionId
  refine ⟨?_, hcoh⟩
  rw [hcoh, walkedMode, path_eq]
  cases (run calls).leafOf sessionId with
  | none => rfl
  | some leafId => exact (wellFormed_run h).walkActiveModeIdAt_pathTo sessionId leafId

/-- A run that enters a mode, leaves it, and branches back into it. -/
def modeCalls : List StoreCall :=
  [⟨.create {}, "s", 0⟩, ⟨.appendEntry "s" (.modeChange (.enter "plan")), "a", 1⟩,
    ⟨.appendEntry "s" (userEntry "hello"), "b", 2⟩,
    ⟨.appendEntry "s" (.modeChange (.exit "plan")), "c", 3⟩, ⟨.branch "s" "b", "d", 4⟩,
    ⟨.gc "s", "e", 5⟩]

/-- After that run the cache holds the mode entered before the branch point. -/
theorem readActiveModeId_run_branch :
    (run modeCalls).readActiveModeId "s" = some "plan" ∧
      (run modeCalls).walkedMode "s" = .ok ((run modeCalls).readActiveModeId "s") ∧
      (run modeCalls).readActiveModeId "s" = modeOnPath ((run modeCalls).path "s") :=
  ⟨by decide, readActiveModeId_run modeCalls (by decide) (by decide) "s"⟩

end SessionStore

end CrabbyKit
