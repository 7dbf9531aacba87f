import CrabbyKit.Session.Store

/-!
# Every operation keeps the session tree well formed

One inversion lemma says what a successful operation did; the invariant follows
from it. Deleting operations restrict the tables to a part that is closed under
leaves and parents, so a freed `seq` can be used again below no other entry.
-/

namespace CrabbyKit.SessionStore

open List

variable {st st' : SessionStore} {sessionId nanoid : String} {now : Instant}

/-- The entry an append inserts below a leaf. -/
def newEntry (st : SessionStore) (s : Session) (data : EntryData) (nanoid : String)
    (now : Instant) : SessionEntry :=
  { id := nanoid
    parentId := s.leafId
    sessionId := s.id
    seq := st.nextSeq s.id
    data := data
    createdAt := toISOString now }

/-- The row a creation inserts. -/
def newSession (opts : CreateOpts) (nanoid : String) (now : Instant) : Session :=
  { id := nanoid
    name := opts.name.getD ""
    source := opts.source.getD defaultSessionSource
    sender := opts.sender
    leafId := none
    activeModeId := none
    createdAt := datetimeNow now
    updatedAt := datetimeNow now }

theorem create_of_none (h : st.get nanoid = none) (opts : CreateOpts) (now : Instant) :
    st.create opts nanoid now =
      .ok ({ st with sessions := st.sessions ++ [newSession opts nanoid now] },
        newSession opts nanoid now) := by
  have hnew : ({ st with sessions := st.sessions ++ [newSession opts nanoid now] } :
      SessionStore).get nanoid = some (newSession opts nanoid now) := by
    simp only [get, Table.lookup] at h ⊢
    simp [find?_append, h, newSession]
  simp only [create, h, Option.isSome_none, Bool.false_eq_true, if_false]
  exact (by rw [← newSession, hnew])

variable {opts : CreateOpts} {s : Session}

theorem create_ok (h : st.create opts nanoid now = .ok (st', s)) :
    st.get nanoid = none ∧ s = newSession opts nanoid now ∧
      st' = { st with sessions := st.sessions ++ [newSession opts nanoid now] } := by
  cases hg : st.get nanoid with
  | some _ => simp [create, hg] at h
  | none =>
    rw [create_of_none hg] at h
    cases h
    exact ⟨rfl, rfl, rfl⟩

variable {e : SessionEntry}

theorem appendEntry_ok {data : EntryData}
    (h : st.appendEntry sessionId data nanoid now = .ok (st', e)) :
    ∃ s, st.get sessionId = some s ∧ s.id = sessionId ∧ (∀ q ∈ st.entries, q.id ≠ nanoid) ∧
      e = st.newEntry s data nanoid now ∧
      st' = ({ st with entries := st.entries ++ [e] } : SessionStore).updateSession sessionId
        (advanceLeaf nanoid data now) := by
  cases hg : st.get sessionId with
  | none => simp [appendEntry, hg] at h
  | some s =>
    have hs : s.id = sessionId := (Table.mem_of_lookup hg).2
    cases hl : Table.lookup SessionEntry.id st.entries nanoid with
    | some _ => simp [appendEntry, hg, hl] at h
    | none =>
      simp only [appendEntry, hg, hl, Option.isSome_none, Bool.false_eq_true, if_false,
        Except.ok.injEq, Prod.mk.injEq] at h
      obtain ⟨rfl, rfl⟩ := h
      refine ⟨s, rfl, hs, Table.lookup_eq_none.mp hl, ?_, rfl⟩
      rw [newEntry, hs]

def branchRow (fromEntryId : String) (mode : Option String) (now : Instant) (s : Session) :
    Session :=
  { s with leafId := some fromEntryId, updatedAt := datetimeNow now, activeModeId := mode }

@[simp] theorem branchRow_id (fromEntryId : String) (mode : Option String) (now : Instant)
    (s : Session) : (branchRow fromEntryId mode now s).id = s.id := rfl

@[simp] theorem branchRow_leafId (fromEntryId : String) (mode : Option String) (now : Instant)
    (s : Session) : (branchRow fromEntryId mode now s).leafId = some fromEntryId := rfl

variable {fromEntryId : String}

theorem branch_ok (h : st.branch sessionId fromEntryId now = .ok st') :
    ∃ e ∈ st.entries, e.id = fromEntryId ∧ e.sessionId = sessionId ∧
      ∃ mode, st.walkActiveModeIdAt sessionId fromEntryId = .ok mode ∧
        st' = st.updateSession sessionId (branchRow fromEntryId mode now) := by
  cases hf : st.entries.find? fun e => e.id = fromEntryId ∧ e.sessionId = sessionId with
  | none =>
    simp only [branch, hf] at h
    cases h
  | some e =>
    have hm := mem_of_find?_eq_some hf
    have hp : e.id = fromEntryId ∧ e.sessionId = sessionId := by simpa using find?_some hf
    cases hw : st.walkActiveModeIdAt sessionId fromEntryId with
    | error err =>
      simp only [branch, hf, hw, bind, Except.bind] at h
      cases h
    | ok mode =>
      simp only [branch, hf, hw, bind, Except.bind, pure, Except.pure, Except.ok.injEq] at h
      exact ⟨e, hm, hp.1, hp.2, mode, rfl, h.symm⟩

/-- The entries a collection of a session keeps: everything off the session, and of the
session exactly the visited entries. -/
def kept (sessionId : String) (visited : List SessionEntry) (e : SessionEntry) : Prop :=
  e.sessionId = sessionId → e ∈ visited

theorem gc_ok (hw : st.WellFormed) {n : Nat} (h : st.gc sessionId = .ok (st', n)) :
    st'.sessions = st.sessions ∧ st'.entries.Sublist st.entries ∧
      ((st' = st ∧ (st.get sessionId).bind (fun s => truthy s.leafId) = none) ∨
        ∃ leafId visited, (st.get sessionId).bind (fun s => truthy s.leafId) = some leafId ∧
          st.walkFrom sessionId leafId = some visited ∧
          ∀ e, e ∈ st'.entries ↔ e ∈ st.entries ∧ kept sessionId visited e) := by
  cases hl : (st.get sessionId).bind fun s => truthy s.leafId with
  | none =>
    simp only [gc, hl, Except.ok.injEq, Prod.mk.injEq] at h
    exact ⟨h.1 ▸ rfl, h.1 ▸ Sublist.refl _, .inl ⟨h.1.symm, rfl⟩⟩
  | some leafId =>
    obtain ⟨visited, hv, hc⟩ := hw.exists_walkFrom sessionId leafId
    have hmem := hw.chain_mem hc hw.entryMap_mem
    have hids : ∀ e ∈ st.entries, e.sessionId = sessionId →
        (e.id ∈ visited.map SessionEntry.id ↔ e ∈ visited) := by
      intro e he _
      refine ⟨fun hid => ?_, fun hv => mem_map_of_mem hv⟩
      obtain ⟨q, hq, hqe⟩ := mem_map.mp hid
      rwa [hw.eq_of_id he (hmem q hq).1 hqe.symm]
    have hkept : ∀ e, e ∈ st.entries →
        (e.id ∉ ((st.getEntries sessionId).filter fun q => q.id ∉ visited.map SessionEntry.id).map
          SessionEntry.id ↔ kept sessionId visited e) := by
      intro e he
      simp only [mem_map, mem_filter, mem_getEntries, decide_eq_true_eq, not_exists, not_and, kept]
      constructor
      · intro hall hs
        by_contra hne
        have hout : ¬∃ x ∈ visited, x.id = e.id := by
          rwa [← mem_map (f := SessionEntry.id), hids e he hs]
        exact hall e ⟨⟨he, hs⟩, fun x hx => fun hid => hout ⟨x, hx, hid⟩⟩ rfl
      · rintro hk q ⟨⟨hq, hqs⟩, hqv⟩ hqe
        obtain rfl := hw.eq_of_id hq he hqe
        exact hqv q (hk hqs) rfl
    simp only [gc, hl, hv] at h
    split at h
    · rename_i hempty
      simp only [Except.ok.injEq, Prod.mk.injEq] at h
      obtain ⟨rfl, -⟩ := h
      refine ⟨rfl, Sublist.refl _, .inr ⟨leafId, visited, rfl, hv, fun e => ?_⟩⟩
      refine ⟨fun he => ⟨he, (hkept e he).mp ?_⟩, And.left⟩
      rw [List.isEmpty_iff.mp hempty]
      simp
    · simp only [Except.ok.injEq, Prod.mk.injEq] at h
      obtain ⟨rfl, -⟩ := h
      refine ⟨rfl, filter_sublist, .inr ⟨leafId, visited, rfl, hv, fun e => ?_⟩⟩
      rw [mem_filter, decide_eq_true_eq]
      exact and_congr_right fun he => hkept e he

/-- Numbers folded with `max` stay below the fold. -/
theorem le_foldl_max (l : List Nat) (init : Nat) :
    init ≤ l.foldl max init ∧ ∀ n ∈ l, n ≤ l.foldl max init := by
  induction l generalizing init with
  | nil => simp
  | cons m l ih =>
    obtain ⟨hi, hl⟩ := ih (max init m)
    refine ⟨(le_max_left _ _).trans hi, fun n hn => ?_⟩
    rcases mem_cons.mp hn with rfl | hn
    · exact (le_max_right _ _).trans hi
    · exact hl n hn

/-- The next `seq` exceeds every `seq` in use in the session. -/
theorem seq_lt_nextSeq (he : e ∈ st.entries) (hs : e.sessionId = sessionId) :
    e.seq < st.nextSeq sessionId := by
  refine Nat.lt_succ_of_le ((le_foldl_max _ 0).2 _ ?_)
  exact mem_map_of_mem (mem_filter.mpr ⟨he, by simpa using hs⟩)

theorem wellFormed_empty : ({} : SessionStore).WellFormed where
  sessionIds := nodup_nil
  entryIds := nodup_nil
  named := by simp
  leaf := by simp
  parent := by simp
  ordered := by simp

variable {f : Session → Session}

theorem WellFormed.updateSession (h : st.WellFormed) (hid : ∀ s, (f s).id = s.id)
    (hleaf : ∀ s ∈ st.sessions, s.id = sessionId → ∀ l, (f s).leafId = some l →
      ∃ e ∈ st.entries, e.id = l ∧ e.sessionId = s.id) :
    (st.updateSession sessionId f).WellFormed where
  sessionIds := by
    rw [SessionStore.updateSession, Table.map_key_modify hid]
    exact h.sessionIds
  entryIds := h.entryIds
  named := h.named
  parent := h.parent
  ordered := h.ordered
  leaf := by
    intro s hs l hl
    obtain ⟨q, hq, rfl⟩ := Table.mem_modify.mp hs
    by_cases hk : q.id = sessionId
    · simp only [hk, if_true] at hl ⊢
      rw [hid, ← hk]
      exact hk ▸ hleaf q hq hk l hl
    · simp only [hk, if_false] at hl ⊢
      exact h.leaf q hq l hl

theorem WellFormed.restrict (h : st.WellFormed) (hsess : st'.sessions.Sublist st.sessions)
    (hent : st'.entries.Sublist st.entries)
    (hleaf : ∀ s ∈ st'.sessions, ∀ e ∈ st.entries, s.leafId = some e.id → e.sessionId = s.id →
      e ∈ st'.entries)
    (hparent : ∀ e ∈ st'.entries, ∀ q ∈ st.entries, e.parentId = some q.id →
      q.sessionId = e.sessionId → q ∈ st'.entries) : st'.WellFormed where
  sessionIds := h.sessionIds.sublist (hsess.map _)
  entryIds := h.entryIds.sublist (hent.map _)
  named := fun e he => h.named e (hent.subset he)
  leaf := by
    intro s hs l hl
    obtain ⟨e, he, rfl, hes⟩ := h.leaf s (hsess.subset hs) l hl
    exact ⟨e, hleaf s hs e he hl hes, rfl, hes⟩
  parent := by
    intro e he p hp
    obtain ⟨q, hq, rfl, hqs, hlt⟩ := h.parent e (hent.subset he) p hp
    exact ⟨q, hparent e he q hq hp hqs, rfl, hqs, hlt⟩
  ordered := fun sid => (h.ordered sid).sublist (hent.filter _)

theorem WellFormed.create (h : st.WellFormed)
    (hc : st.create opts nanoid now = .ok (st', s)) : st'.WellFormed := by
  obtain ⟨hnone, -, rfl⟩ := create_ok hc
  refine { h with sessionIds := ?_, leaf := ?_ }
  · rw [map_append, map_singleton, nodup_append]
    refine ⟨h.sessionIds, nodup_singleton _, fun a ha b hb => ?_⟩
    obtain ⟨q, hq, rfl⟩ := mem_map.mp ha
    rw [mem_singleton.mp hb]
    exact Table.lookup_eq_none.mp hnone q hq
  · intro q hq l hl
    rcases mem_append.mp hq with hq | hq
    · exact h.leaf q hq l hl
    · rw [mem_singleton.mp hq] at hl
      cases hl

@[simp] theorem advanceLeaf_id (id : String) (data : EntryData) (now : Instant) (s : Session) :
    (advanceLeaf id data now s).id = s.id := by
  cases data <;> rfl

@[simp] theorem advanceLeaf_leafId (id : String) (data : EntryData) (now : Instant)
    (s : Session) : (advanceLeaf id data now s).leafId = some id := by
  cases data <;> rfl

/-- The inserted entry hangs below the old leaf with a `seq` above everything in its session. -/
theorem WellFormed.insertEntry (h : st.WellFormed) (hs : s ∈ st.sessions)
    (hn : nanoid ≠ "") (hnew : ∀ q ∈ st.entries, q.id ≠ nanoid) (data : EntryData) (now : Instant) :
    ({ st with entries := st.entries ++ [st.newEntry s data nanoid now] } :
      SessionStore).WellFormed where
  sessionIds := h.sessionIds
  entryIds := by
    rw [map_append, map_singleton, nodup_append]
    refine ⟨h.entryIds, nodup_singleton _, fun a ha b hb => ?_⟩
    obtain ⟨q, hq, rfl⟩ := mem_map.mp ha
    rw [mem_singleton.mp hb]
    exact hnew q hq
  named := by
    intro e he
    rcases mem_append.mp he with he | he
    · exact h.named e he
    · rw [mem_singleton.mp he]
      exact hn
  leaf := by
    intro q hq l hl
    obtain ⟨e, he, hel, hes⟩ := h.leaf q hq l hl
    exact ⟨e, mem_append_left _ he, hel, hes⟩
  parent := by
    intro e he p hp
    rcases mem_append.mp he with he | he
    · obtain ⟨q, hq, hqp, hqs, hlt⟩ := h.parent e he p hp
      exact ⟨q, mem_append_left _ hq, hqp, hqs, hlt⟩
    · rw [mem_singleton.mp he] at hp ⊢
      obtain ⟨q, hq, hqp, hqs⟩ := h.leaf s hs p hp
      exact ⟨q, mem_append_left _ hq, hqp, hqs, seq_lt_nextSeq hq hqs⟩
  ordered := by
    intro sid
    rw [filter_append, pairwise_append]
    refine ⟨h.ordered sid, (pairwise_singleton _ _).filter _, fun a ha b hb => ?_⟩
    obtain ⟨ha, has⟩ := mem_filter.mp ha
    obtain ⟨hb, hbs⟩ := mem_filter.mp hb
    rw [mem_singleton.mp hb] at hbs ⊢
    have hsid : s.id = sid := of_decide_eq_true hbs
    exact seq_lt_nextSeq ha (by simpa [hsid] using has)

/-- An append keeps the tree, also when its `seq` was in use before a collection. -/
theorem WellFormed.appendEntry (h : st.WellFormed) (hn : nanoid ≠ "") {data : EntryData}
    (ha : st.appendEntry sessionId data nanoid now = .ok (st', e)) :
    st'.WellFormed := by
  obtain ⟨s, hg, hs, hnew, rfl, rfl⟩ := appendEntry_ok ha
  have hins := h.insertEntry (h.get_eq_some.mp hg).1 hn hnew data now
  refine hins.updateSession (advanceLeaf_id nanoid data now) fun q _ hq l hl => ?_
  rw [advanceLeaf_leafId, Option.some.injEq] at hl
  exact ⟨_, mem_append_right _ (mem_singleton_self _), hl, hs.trans hq.symm⟩

theorem WellFormed.branch (h : st.WellFormed)
    (hb : st.branch sessionId fromEntryId now = .ok st') : st'.WellFormed := by
  obtain ⟨e, he, hid, hs, mode, -, rfl⟩ := branch_ok hb
  refine h.updateSession (branchRow_id fromEntryId mode now) fun s _ hsid l hl => ?_
  obtain rfl : fromEntryId = l := Option.some.inj hl
  exact ⟨e, he, hid, hs.trans hsid.symm⟩

theorem WellFormed.gc (h : st.WellFormed) {n : Nat} (hg : st.gc sessionId = .ok (st', n)) :
    st'.WellFormed := by
  obtain ⟨hsess, hsub, ⟨rfl, -⟩ | ⟨leafId, visited, hleaf, hv, hk⟩⟩ := gc_ok h hg
  · exact h
  have hc := chain_of_walkFrom hv
  have hmem := h.chain_mem hc h.entryMap_mem
  refine h.restrict (hsess ▸ Sublist.refl _) hsub ?_ ?_
  · intro s hs e he hl hes
    refine (hk e).mpr ⟨he, fun hsid => ?_⟩
    obtain ⟨q, hq, ht⟩ := Option.bind_eq_some_iff.mp hleaf
    have hqs : q = s := by
      refine Table.eq_of_key h.sessionIds (h.get_eq_some.mp hq).1 (hsess ▸ hs) ?_
      rw [(h.get_eq_some.mp hq).2, ← hes, hsid]
    rw [hqs, truthy_eq_some, hl, Option.some.injEq] at ht
    have hmap : st.entryMap sessionId leafId = some e := h.entryMap_eq_some.mpr ⟨he, hsid, ht.1⟩
    rw [hmap] at hc
    exact hc.start_mem
  · intro e he q hq hp hqs
    obtain ⟨hin, hke⟩ := (hk e).mp he
    refine (hk q).mpr ⟨hq, fun hsid => ?_⟩
    refine hc.next_mem (hke (hqs ▸ hsid)) ?_
    rw [parentIn, hp, truthy, if_neg (h.named q hq), Option.bind_some]
    exact h.entryMap_eq_some.mpr ⟨hq, hsid, rfl⟩

theorem WellFormed.delete (h : st.WellFormed) (sessionId : String) :
    (st.delete sessionId).WellFormed := by
  refine h.restrict filter_sublist filter_sublist ?_ ?_
  · intro s hs e he _ hes
    have hne := (mem_filter.mp hs).2
    exact mem_filter.mpr ⟨he, by rw [hes]; exact hne⟩
  · intro e he q hq _ hqs
    have hne := (mem_filter.mp he).2
    exact mem_filter.mpr ⟨hq, by rw [hqs]; exact hne⟩

theorem WellFormed.updateRow (h : st.WellFormed)
    (hid : ∀ s, (f s).id = s.id) (hleaf : ∀ s, (f s).leafId = s.leafId) :
    (st.updateSession sessionId f).WellFormed :=
  h.updateSession hid fun s hs _ l hl => h.leaf s hs l (hleaf s ▸ hl)

theorem WellFormed.after (h : st.WellFormed) {r : Except StoreError SessionStore}
    (hr : ∀ st', r = .ok st' → st'.WellFormed) : (st.after r).WellFormed := by
  cases r with
  | ok st' => exact hr st' rfl
  | error _ => exact h

theorem fst_ok {α : Type} {r : Except StoreError (SessionStore × α)}
    (h : r.map Prod.fst = .ok st') : ∃ a, r = .ok (st', a) := by
  cases r with
  | error _ => cases h
  | ok p =>
    cases h
    exact ⟨p.2, rfl⟩

theorem WellFormed.exec (h : st.WellFormed) {c : StoreCall} (hn : c.nanoid ≠ "") :
    (st.exec c).WellFormed := by
  obtain ⟨op, nanoid, now⟩ := c
  cases op with
  | create opts => exact h.after fun st' he => let ⟨_, hc⟩ := fst_ok he; h.create hc
  | appendEntry sessionId data =>
    exact h.after fun st' he => let ⟨_, ha⟩ := fst_ok he; h.appendEntry hn ha
  | branch sessionId fromEntryId => exact h.after fun st' hb => h.branch hb
  | gc sessionId => exact h.after fun st' he => let ⟨_, hg⟩ := fst_ok he; h.gc hg
  | delete sessionId => exact h.delete sessionId
  | rename sessionId name => exact h.updateRow (fun _ => rfl) fun _ => rfl
  | setActiveMode sessionId modeId => exact h.updateRow (fun _ => rfl) fun _ => rfl

theorem wellFormed_run {calls : List StoreCall} (h : Fresh calls) : (run calls).WellFormed := by
  refine Run.run_induction (P := fun calls (st : SessionStore) => Fresh calls → st.WellFormed)
    (fun _ => wellFormed_empty) (fun calls c st ih hf => ?_) calls h
  obtain ⟨hf, -, hn⟩ := fresh_snoc.mp hf
  exact (ih hf).exec hn

end CrabbyKit.SessionStore
