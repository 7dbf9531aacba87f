import CrabbyKit.Session.Invariant

/-!
# The active path of a session

The list of entries from the root to the leaf is the abstract state of a session.
An append adds one entry at its end, a branch replaces it by the path to an older
entry, a collection and every operation on another session leave it as it is.
-/

namespace CrabbyKit.SessionStore

variable {st st' : SessionStore} {sessionId nanoid : String} {now : Instant}

/-- The entries from the root to an entry of the session, root first. -/
def pathTo (st : SessionStore) (sessionId id : String) : List SessionEntry :=
  ((st.walkFrom sessionId id).getD []).reverse

/-- The entries from the root to the leaf of a session; empty without a leaf. -/
def path (st : SessionStore) (sessionId : String) : List SessionEntry :=
  (st.activePath sessionId).getD []

def leafOf (st : SessionStore) (sessionId : String) : Option String :=
  (st.get sessionId).bind fun s => truthy s.leafId

theorem path_eq (st : SessionStore) (sessionId : String) :
    st.path sessionId = match st.leafOf sessionId with
      | none => []
      | some l => st.pathTo sessionId l := by
  rw [path, activePath, leafOf]
  cases (st.get sessionId).bind fun s => truthy s.leafId with
  | none => rfl
  | some l =>
    simp only [pathTo]
    cases st.walkFrom sessionId l <;> rfl

theorem WellFormed.pathTo_chain (h : st.WellFormed) (sessionId id : String) :
    st.EntryChain sessionId (st.entryMap sessionId id) (st.pathTo sessionId id).reverse := by
  obtain ⟨xs, hw, hc⟩ := h.exists_walkFrom sessionId id
  rw [pathTo, hw, Option.getD_some, List.reverse_reverse]
  exact hc

variable {id : String} {xs : List SessionEntry}

theorem WellFormed.pathTo_eq (h : st.WellFormed)
    (hc : st.EntryChain sessionId (st.entryMap sessionId id) xs) :
    st.pathTo sessionId id = xs.reverse := by
  rw [pathTo, h.walkFrom_eq hc, Option.getD_some]

theorem WellFormed.activePath_eq (h : st.WellFormed) (sessionId : String) :
    st.activePath sessionId = some (st.path sessionId) := by
  rw [path, activePath]
  cases (st.get sessionId).bind fun s => truthy s.leafId with
  | none => rfl
  | some l =>
    obtain ⟨xs, hw, -⟩ := h.exists_walkFrom sessionId l
    simp only [hw, Option.map_some, Option.getD_some]

variable {e : SessionEntry}

theorem WellFormed.mem_pathTo (h : st.WellFormed)
    (he : e ∈ st.pathTo sessionId id) : e ∈ st.entries ∧ e.sessionId = sessionId :=
  h.chain_mem (h.pathTo_chain sessionId id) h.entryMap_mem e (List.mem_reverse.mpr he)

theorem WellFormed.mem_path (h : st.WellFormed)
    (he : e ∈ st.path sessionId) : e ∈ st.entries ∧ e.sessionId = sessionId := by
  rw [path_eq] at he
  cases hl : st.leafOf sessionId with
  | none => simp [hl] at he
  | some l =>
    rw [hl] at he
    exact h.mem_pathTo he

/-- `seq` increases strictly along a path. -/
theorem WellFormed.pathTo_seq (h : st.WellFormed) (sessionId id : String) :
    (st.pathTo sessionId id).Pairwise fun a b => a.seq < b.seq := by
  rw [← List.pairwise_reverse]
  exact h.chain_seq (h.pathTo_chain sessionId id) h.entryMap_mem

/-- `seq` increases strictly along the active path. -/
theorem WellFormed.path_seq (h : st.WellFormed) (sessionId : String) :
    (st.path sessionId).Pairwise fun a b => a.seq < b.seq := by
  rw [path_eq]
  cases st.leafOf sessionId with
  | none => exact .nil
  | some l => exact h.pathTo_seq sessionId l

theorem WellFormed.path_nodup (h : st.WellFormed) (sessionId : String) :
    (st.path sessionId).Nodup :=
  (h.path_seq sessionId).imp fun hlt he => by rw [he] at hlt; exact lt_irrefl _ hlt

theorem WellFormed.leafOf_mem (h : st.WellFormed) {l : String} (hl : st.leafOf sessionId = some l) :
    ∃ e, st.entryMap sessionId l = some e ∧ e ∈ st.entries ∧ e.sessionId = sessionId ∧
      e.id = l := by
  obtain ⟨s, hs, ht⟩ := Option.bind_eq_some_iff.mp hl
  obtain ⟨hs, hid⟩ := h.get_eq_some.mp hs
  obtain ⟨e, he, rfl, hes⟩ := h.leaf s hs l (truthy_eq_some.mp ht).1
  exact ⟨e, h.entryMap_eq_some.mpr ⟨he, hes.trans hid, rfl⟩, he, hes.trans hid, rfl⟩

theorem WellFormed.chain_transport (h : st.WellFormed) (h' : st'.WellFormed)
    {start : Option SessionEntry} (hc : st.EntryChain sessionId start xs)
    (hs : ∀ e, start = some e → e ∈ st.entries ∧ e.sessionId = sessionId)
    (hkeep : ∀ e ∈ xs, e ∈ st'.entries) : st'.EntryChain sessionId start xs := by
  refine hc.congr fun e he => ?_
  have hmem := h.chain_mem hc hs e he
  rw [parentIn, parentIn]
  cases ht : truthy e.parentId with
  | none => rfl
  | some p =>
    obtain ⟨q, hq, hqp, hqs, -⟩ := h.parent e hmem.1 p (truthy_eq_some.mp ht).1
    have hold : st.entryMap sessionId p = some q :=
      h.entryMap_eq_some.mpr ⟨hq, hqs.trans hmem.2, hqp⟩
    have hin : q ∈ xs := hc.next_mem he (by rw [parentIn, ht]; exact hold)
    rw [Option.bind_some, Option.bind_some, hold]
    exact h'.entryMap_eq_some.mpr ⟨hkeep q hin, hqs.trans hmem.2, hqp⟩

theorem WellFormed.pathTo_frame (h : st.WellFormed) (h' : st'.WellFormed)
    (he : st.entryMap sessionId id = some e)
    (hkeep : ∀ q ∈ st.pathTo sessionId id, q ∈ st'.entries) :
    st'.pathTo sessionId id = st.pathTo sessionId id := by
  have hc := h.pathTo_chain sessionId id
  have hmem := h.entryMap_eq_some.mp he
  rw [he] at hc
  have hcls : ∀ q, some e = some q → q ∈ st.entries ∧ q.sessionId = sessionId := by
    intro q hq
    cases hq
    exact ⟨hmem.1, hmem.2.1⟩
  have hc' := h.chain_transport h' hc hcls fun q hq => hkeep q (List.mem_reverse.mp hq)
  have he' : st'.entryMap sessionId id = some e :=
    h'.entryMap_eq_some.mpr ⟨hkeep e (List.mem_reverse.mp hc.start_mem), hmem.2⟩
  rw [h'.pathTo_eq (he' ▸ hc'), List.reverse_reverse]

theorem WellFormed.path_frame (h : st.WellFormed) (h' : st'.WellFormed)
    (hleaf : st'.leafOf sessionId = st.leafOf sessionId)
    (hkeep : ∀ e ∈ st.path sessionId, e ∈ st'.entries) :
    st'.path sessionId = st.path sessionId := by
  rw [path_eq, path_eq, hleaf]
  cases hl : st.leafOf sessionId with
  | none => rfl
  | some l =>
    obtain ⟨e, he, -⟩ := h.leafOf_mem hl
    rw [path_eq, hl] at hkeep
    exact h.pathTo_frame h' he hkeep

theorem WellFormed.pathTo_snoc (h : st.WellFormed) (he : e ∈ st.entries)
    (hs : e.sessionId = sessionId) :
    st.pathTo sessionId e.id = (match truthy e.parentId with
      | none => []
      | some p => st.pathTo sessionId p) ++ [e] := by
  have hmap : st.entryMap sessionId e.id = some e := h.entryMap_eq_some.mpr ⟨he, hs, rfl⟩
  cases ht : truthy e.parentId with
  | none =>
    have hc : st.EntryChain sessionId (st.entryMap sessionId e.id) [e] := by
      rw [hmap]
      refine .cons ?_
      rw [parentIn, ht]
      exact .nil
    exact h.pathTo_eq hc
  | some p =>
    have hc : st.EntryChain sessionId (st.entryMap sessionId e.id)
        (e :: (st.pathTo sessionId p).reverse) := by
      rw [hmap]
      refine .cons ?_
      rw [parentIn, ht]
      exact h.pathTo_chain sessionId p
    rw [h.pathTo_eq hc, List.reverse_cons, List.reverse_reverse]

end CrabbyKit.SessionStore

/-!
## What each operation does to the active path

One lemma for each operation of the store, for the session it addresses and for
every other one.
-/

namespace CrabbyKit.SessionStore

variable {st st' : SessionStore} {sessionId other nanoid : String} {now : Instant}

variable {f : Session → Session}

theorem get_updateSession (hf : ∀ s, (f s).id = s.id) (id : String) :
    (st.updateSession sessionId f).get id =
      (st.get id).map fun s => if id = sessionId then f s else s :=
  Table.lookup_modify hf id

theorem leafOf_updateSession_of_ne (hf : ∀ s, (f s).id = s.id)
    (h : other ≠ sessionId) : (st.updateSession sessionId f).leafOf other = st.leafOf other := by
  rw [leafOf, get_updateSession hf, leafOf]
  simp only [h, if_false, Option.map_id']

theorem leafOf_updateSession (hf : ∀ s, (f s).id = s.id)
    (hl : ∀ s, (f s).leafId = s.leafId) (id : String) :
    (st.updateSession sessionId f).leafOf id = st.leafOf id := by
  rw [leafOf, get_updateSession hf, leafOf, Option.bind_map]
  refine Option.bind_congr fun s _ => ?_
  by_cases h : id = sessionId <;> simp [h, hl]

variable {s : Session}

theorem leafOf_updateSession_self (hf : ∀ s, (f s).id = s.id)
    {l : String} (hl : ∀ s, (f s).leafId = some l) (hne : l ≠ "")
    (hs : st.get sessionId = some s) :
    (st.updateSession sessionId f).leafOf sessionId = some l := by
  rw [leafOf, get_updateSession hf, hs]
  simp only [if_true, Option.map_some, Option.bind_some, hl, truthy, hne, if_false]

theorem pathTo_congr (h : st'.entries = st.entries) (id : String) :
    st'.pathTo sessionId id = st.pathTo sessionId id := by
  simp only [pathTo, walkFrom, entryMap, getEntries, h]

theorem path_congr (h : st'.entries = st.entries)
    (hl : st'.leafOf sessionId = st.leafOf sessionId) : st'.path sessionId = st.path sessionId := by
  rw [path_eq, path_eq, hl]
  cases st.leafOf sessionId with
  | none => rfl
  | some l => exact pathTo_congr h l

theorem path_of_get_none (h : st.get sessionId = none) : st.path sessionId = [] := by
  rw [path_eq, leafOf, h]
  rfl

theorem path_create {opts : CreateOpts}
    (hc : st.create opts nanoid now = .ok (st', s)) (id : String) : st'.path id = st.path id := by
  obtain ⟨hnone, -, rfl⟩ := create_ok hc
  refine path_congr rfl ?_
  rw [leafOf, leafOf]
  simp only [get, Table.lookup, List.find?_append] at hnone ⊢
  by_cases hid : nanoid = id
  · subst hid
    simp [hnone, newSession, truthy]
  · simp [newSession, hid]

variable {data : EntryData} {e : SessionEntry}

theorem get_appendEntry
    (ha : st.appendEntry sessionId data nanoid now = .ok (st', e)) (id : String) :
    st'.get id = (st.get id).map fun s =>
      if id = sessionId then advanceLeaf nanoid data now s else s := by
  obtain ⟨s, -, -, -, -, rfl⟩ := appendEntry_ok ha
  exact get_updateSession (advanceLeaf_id nanoid data now) id

theorem entries_appendEntry (ha : st.appendEntry sessionId data nanoid now = .ok (st', e)) :
    st'.entries = st.entries ++ [e] := by
  obtain ⟨s, -, -, -, -, rfl⟩ := appendEntry_ok ha
  rfl

theorem data_appendEntry (ha : st.appendEntry sessionId data nanoid now = .ok (st', e)) :
    e.id = nanoid ∧ e.sessionId = sessionId ∧ e.data = data := by
  obtain ⟨s, -, hs, -, rfl, -⟩ := appendEntry_ok ha
  exact ⟨rfl, hs, rfl⟩

theorem WellFormed.path_appendEntry (h : st.WellFormed) (hn : nanoid ≠ "")
    (ha : st.appendEntry sessionId data nanoid now = .ok (st', e)) :
    st'.path sessionId = st.path sessionId ++ [e] := by
  have h' := h.appendEntry hn ha
  have hent := entries_appendEntry ha
  obtain ⟨s, hg, hs, -, he, hst⟩ := appendEntry_ok ha
  have hleaf : st'.leafOf sessionId = some nanoid := by
    rw [hst]
    exact leafOf_updateSession_self (advanceLeaf_id nanoid data now)
      (advanceLeaf_leafId nanoid data now) hn hg
  have hmem : e ∈ st'.entries := hent ▸ List.mem_append_right _ (List.mem_singleton_self e)
  have hid : e.id = nanoid := he ▸ rfl
  have hparent : e.parentId = s.leafId := he ▸ rfl
  have hsid : e.sessionId = sessionId := he ▸ hs
  rw [path_eq, hleaf, path_eq, leafOf, hg, Option.bind_some]
  simp only
  rw [← hid, h'.pathTo_snoc hmem hsid, hparent]
  congr 1
  cases hl : truthy s.leafId with
  | none => rfl
  | some l =>
    have hsl : st.leafOf sessionId = some l := by rw [leafOf, hg]; exact hl
    obtain ⟨q, hq, -⟩ := h.leafOf_mem hsl
    refine h.pathTo_frame h' hq fun r hr => ?_
    rw [hent]
    exact List.mem_append_left _ (h.mem_pathTo hr).1

theorem WellFormed.path_appendEntry_of_ne (h : st.WellFormed) (hn : nanoid ≠ "")
    (ha : st.appendEntry sessionId data nanoid now = .ok (st', e)) (hne : other ≠ sessionId) :
    st'.path other = st.path other := by
  have h' := h.appendEntry hn ha
  have hent := entries_appendEntry ha
  obtain ⟨s, -, -, -, rfl, rfl⟩ := appendEntry_ok ha
  refine h.path_frame h' (leafOf_updateSession_of_ne (advanceLeaf_id nanoid data now) hne)
    fun q hq => ?_
  rw [hent]
  exact List.mem_append_left _ (h.mem_path hq).1

variable {fromEntryId : String}

theorem WellFormed.path_branch (h : st.WellFormed)
    (hb : st.branch sessionId fromEntryId now = .ok st')
    (hs : st.get sessionId = some s) : st'.path sessionId = st.pathTo sessionId fromEntryId := by
  obtain ⟨e, he, rfl, -, mode, -, hst⟩ := branch_ok hb
  have hleaf : st'.leafOf sessionId = some e.id := by
    rw [hst]
    exact leafOf_updateSession_self (branchRow_id e.id mode now) (branchRow_leafId e.id mode now)
      (h.named e he) hs
  rw [path_eq, hleaf]
  exact pathTo_congr (hst ▸ rfl) e.id

theorem path_branch_of_ne
    (hb : st.branch sessionId fromEntryId now = .ok st') (hne : other ≠ sessionId) :
    st'.path other = st.path other := by
  obtain ⟨e, -, -, -, mode, -, rfl⟩ := branch_ok hb
  exact path_congr rfl (leafOf_updateSession_of_ne (branchRow_id fromEntryId mode now) hne)

theorem WellFormed.path_gc (h : st.WellFormed) {n : Nat}
    (hg : st.gc sessionId = .ok (st', n)) (id : String) : st'.path id = st.path id := by
  have h' := h.gc hg
  obtain ⟨hsess, -, ⟨rfl, -⟩ | ⟨leafId, visited, hleaf, hv, hk⟩⟩ := gc_ok h hg
  · rfl
  have hl : ∀ id, st'.leafOf id = st.leafOf id := by
    intro id
    rw [leafOf, leafOf, get, get, hsess]
  refine h.path_frame h' (hl id) fun e he => (hk e).mpr ⟨(h.mem_path he).1, fun hs => ?_⟩
  obtain rfl : id = sessionId := (h.mem_path he).2.symm.trans hs
  rw [path_eq, leafOf, hleaf] at he
  simp only [pathTo, hv, Option.getD_some] at he
  exact List.mem_reverse.mp he

theorem path_delete (st : SessionStore) (sessionId : String) :
    (st.delete sessionId).path sessionId = [] := by
  refine path_of_get_none (Table.lookup_eq_none.mpr fun s hs => ?_)
  simpa using (List.mem_filter.mp hs).2

theorem get_delete_of_ne (hne : other ≠ sessionId) :
    (st.delete sessionId).get other = st.get other := by
  simp only [get, Table.lookup, SessionStore.delete, List.find?_filter]
  congr 1
  funext s
  by_cases hs : s.id = other <;> simp [hs, hne]

theorem WellFormed.path_delete_of_ne (h : st.WellFormed) (hne : other ≠ sessionId) :
    (st.delete sessionId).path other = st.path other := by
  refine h.path_frame (h.delete sessionId) ?_ fun e he => ?_
  · rw [leafOf, leafOf, get_delete_of_ne hne]
  · exact List.mem_filter.mpr ⟨(h.mem_path he).1, by simp [(h.mem_path he).2, hne]⟩

theorem path_updateRow (hf : ∀ s, (f s).id = s.id)
    (hl : ∀ s, (f s).leafId = s.leafId) (id : String) :
    (st.updateSession sessionId f).path id = st.path id :=
  path_congr rfl (leafOf_updateSession hf hl id)

theorem path_rename (st : SessionStore) (sessionId name : String) (now : Instant) (id : String) :
    (st.rename sessionId name now).path id = st.path id := by
  have hid : ∀ s : Session,
      ({ s with name := name, updatedAt := datetimeNow now } : Session).id = s.id := fun _ => rfl
  exact path_updateRow hid (fun _ => rfl) id

end CrabbyKit.SessionStore
