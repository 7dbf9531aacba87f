import CrabbyKit.Session.History

/-!
# Sessions of one store

All sessions share two tables. A call changes the rows of the session that it is about and reads
no others, so each session is what the calls on it alone make of it.
-/

namespace CrabbyKit

open List

def StoreCall.sessionId (c : StoreCall) : String :=
  match c.op with
  | .create _ => c.nanoid
  | .appendEntry sessionId _ => sessionId
  | .branch sessionId _ => sessionId
  | .gc sessionId => sessionId
  | .delete sessionId => sessionId
  | .rename sessionId _ => sessionId
  | .setActiveMode sessionId _ => sessionId

namespace SessionStore

def part (st : SessionStore) (sessionId : String) : SessionStore where
  sessions := st.sessions.filter fun s => s.id = sessionId
  entries := st.entries.filter fun e => e.sessionId = sessionId

variable {st : SessionStore} {sessionId id : String} {f : Session → Session} {now : Instant}

/-! ## Reading -/

@[simp] theorem get_part : (st.part sessionId).get sessionId = st.get sessionId := by
  simp only [get, part, Table.lookup, find?_filter]
  congr 1
  funext s
  simp

@[simp] theorem getEntries_part :
    (st.part sessionId).getEntries sessionId = st.getEntries sessionId := by
  simp [getEntries, part]

theorem getEntriesPaginated_part {options : PageOptions} :
    (st.part sessionId).getEntriesPaginated sessionId options =
      st.getEntriesPaginated sessionId options := by
  have hrows (afterSeq : Nat) : (st.part sessionId).entries.filter
        (fun e => e.sessionId = sessionId ∧ afterSeq < e.seq) =
      st.entries.filter fun e => e.sessionId = sessionId ∧ afterSeq < e.seq := by
    rw [part, filter_filter]
    exact filter_congr fun e _ => by simp +contextual
  simp only [getEntriesPaginated, hrows]

@[simp] theorem walkFrom_part :
    (st.part sessionId).walkFrom sessionId id = st.walkFrom sessionId id := by
  simp only [walkFrom, entryMap, getEntries_part]

@[simp] theorem walkActiveModeIdAt_part :
    (st.part sessionId).walkActiveModeIdAt sessionId id = st.walkActiveModeIdAt sessionId id := by
  simp only [walkActiveModeIdAt, entryMap, getEntries_part]

@[simp] theorem nextSeq_part : (st.part sessionId).nextSeq sessionId = st.nextSeq sessionId := by
  simp [nextSeq, part]

theorem buildContext_part :
    (st.part sessionId).buildContext sessionId now = st.buildContext sessionId now := by
  simp only [buildContext, get_part, getEntries_part, walkFrom_part]

/-! ## Writing -/

theorem part_updateSession (hf : ∀ s, (f s).id = s.id) :
    (st.updateSession id f).part sessionId = (st.part sessionId).updateSession id f := by
  simp only [updateSession, part, Table.modify, filter_map]
  congr 3
  funext s
  simp only [Function.comp_apply]
  split_ifs <;> simp [hf]

theorem part_updateSession_of_ne (hf : ∀ s, (f s).id = s.id) (hne : id ≠ sessionId) :
    (st.updateSession id f).part sessionId = st.part sessionId := by
  rw [part_updateSession hf]
  have hrows : Table.modify Session.id id f (st.part sessionId).sessions =
      (st.part sessionId).sessions := by
    refine (map_congr_left fun s hs => if_neg ?_).trans (map_id _)
    rw [of_decide_eq_true (mem_filter.mp hs).2]
    exact hne.symm
  rw [updateSession, hrows]

/-! ## Calls and runs -/

variable {c : StoreCall}

theorem part_after {r : Except StoreError SessionStore} :
    (st.after r).part sessionId =
      (st.part sessionId).after (r.map fun st' => st'.part sessionId) := by
  cases r <;> rfl

theorem create_part {opts : CreateOpts} :
    ((st.part id).create opts id now).map Prod.fst =
      ((st.create opts id now).map Prod.fst).map fun st' => st'.part id := by
  cases hg : st.get id with
  | some s => simp [create, hg, Except.map]
  | none =>
    rw [create_of_none hg, create_of_none (get_part.trans hg)]
    simp [Except.map, part, filter_append, newSession]

theorem appendEntry_part {data : EntryData} {nanoid : String}
    (hfresh : ∀ e ∈ st.entries, e.id ≠ nanoid) :
    ((st.part sessionId).appendEntry sessionId data nanoid now).map Prod.fst =
      ((st.appendEntry sessionId data nanoid now).map Prod.fst).map
        fun st' => st'.part sessionId := by
  cases hg : st.get sessionId with
  | none => simp [appendEntry, hg, Except.map]
  | some s =>
    have hall : Table.lookup SessionEntry.id st.entries nanoid = none :=
      Table.lookup_eq_none.mpr hfresh
    have hpart : Table.lookup SessionEntry.id (st.part sessionId).entries nanoid = none :=
      Table.lookup_eq_none.mpr fun e he => hfresh e (mem_filter.mp he).1
    simp only [appendEntry, get_part, hg, hall, hpart, Option.isSome_none, Bool.false_eq_true,
      if_false, nextSeq_part, Except.map, Except.ok.injEq]
    rw [part_updateSession (advanceLeaf_id nanoid data now)]
    simp [part, filter_append]

theorem branch_part {fromEntryId : String} :
    (st.part sessionId).branch sessionId fromEntryId now =
      (st.branch sessionId fromEntryId now).map fun st' => st'.part sessionId := by
  have hfind : (st.part sessionId).entries.find?
        (fun e => e.id = fromEntryId ∧ e.sessionId = sessionId) =
      st.entries.find? fun e => e.id = fromEntryId ∧ e.sessionId = sessionId := by
    simp only [part, find?_filter]
    congr 1
    funext e
    simp
  simp only [branch, hfind, walkActiveModeIdAt_part]
  cases st.entries.find? fun e => e.id = fromEntryId ∧ e.sessionId = sessionId with
  | none => rfl
  | some e =>
    cases st.walkActiveModeIdAt sessionId fromEntryId with
    | error _ => rfl
    | ok mode =>
      have hrow := @part_updateSession st sessionId sessionId (branchRow fromEntryId mode now)
        fun _ => rfl
      exact congrArg Except.ok hrow.symm

theorem gc_part :
    ((st.part sessionId).gc sessionId).map Prod.fst =
      ((st.gc sessionId).map Prod.fst).map fun st' => st'.part sessionId := by
  simp only [gc, get_part, walkFrom_part, getEntries_part]
  cases (st.get sessionId).bind fun s => truthy s.leafId with
  | none => rfl
  | some leafId =>
    cases hv : st.walkFrom sessionId leafId with
    | none => simp only [hv, Except.map]
    | some visited =>
      simp only [hv]
      split_ifs
      · rfl
      · simp only [Except.map, part]
        rw [filter_comm]

/-- A call on a session does to its rows what it would do if there were no others. -/
theorem part_exec (hfresh : ∀ e ∈ st.entries, e.id ≠ c.nanoid) :
    (st.exec c).part c.sessionId = (st.part c.sessionId).exec c := by
  obtain ⟨op, nanoid, now⟩ := c
  cases op with
  | create opts => exact part_after.trans (congrArg _ create_part.symm)
  | appendEntry sid data => exact part_after.trans (congrArg _ (appendEntry_part hfresh).symm)
  | branch sid fromEntryId => exact part_after.trans (congrArg _ branch_part.symm)
  | gc sid => exact part_after.trans (congrArg _ gc_part.symm)
  | delete sid =>
    simp only [exec, StoreCall.sessionId, delete, part, SessionStore.mk.injEq]
    constructor <;> rw [filter_comm]
  | rename sid name => exact part_updateSession fun _ => rfl
  | setActiveMode sid modeId => exact part_updateSession fun _ => rfl

/-- A call on another session leaves the rows of a session alone. -/
theorem part_exec_of_ne (hw : st.WellFormed) (hne : c.sessionId ≠ sessionId) :
    (st.exec c).part sessionId = st.part sessionId := by
  obtain ⟨op, nanoid, now⟩ := c
  have hafter {r} := @after_of_ok st (fun st' => st'.part sessionId = st.part sessionId) rfl r
  cases op with
  | create opts =>
    refine hafter fun st' hr => ?_
    obtain ⟨_, hc⟩ := fst_ok hr
    obtain ⟨-, -, rfl⟩ := create_ok hc
    have hid : (newSession opts nanoid now).id ≠ sessionId := hne
    simp [part, filter_append, hid]
  | appendEntry sid data =>
    refine hafter fun st' hr => ?_
    obtain ⟨_, ha⟩ := fst_ok hr
    obtain ⟨s, -, hs, -, rfl, rfl⟩ := appendEntry_ok ha
    have hsid : (st.newEntry s data nanoid now).sessionId ≠ sessionId := hs.trans_ne hne
    refine (part_updateSession_of_ne (advanceLeaf_id nanoid data now) hne).trans ?_
    simp [part, filter_append, hsid]
  | branch sid fromEntryId =>
    refine hafter fun st' hb => ?_
    obtain ⟨_, -, -, -, mode, -, rfl⟩ := branch_ok hb
    exact part_updateSession_of_ne (branchRow_id fromEntryId mode now) hne
  | gc sid =>
    refine hafter fun st' hr => ?_
    obtain ⟨_, hg⟩ := fst_ok hr
    obtain ⟨hsessions, hsub, ⟨rfl, -⟩ | ⟨leafId, visited, -, -, hkept⟩⟩ := gc_ok hw hg
    · rfl
    · simp only [part, hsessions, SessionStore.mk.injEq, true_and]
      have hnodup := (Nodup.of_map _ hw.entryIds).filter fun e => e.sessionId = sessionId
      refine (hsub.filter _).eq_of_length_le (hnodup.subperm fun e he => ?_).length_le
      obtain ⟨hmem, hid⟩ := mem_filter.mp he
      have hid := of_decide_eq_true hid
      exact mem_filter.mpr ⟨(hkept e).mpr ⟨hmem, fun hs => absurd (hs.symm.trans hid) hne⟩,
        decide_eq_true hid⟩
  | delete sid =>
    have hdiff : sid ≠ sessionId := hne
    simp only [exec, delete, part, SessionStore.mk.injEq, filter_filter]
    constructor
    · refine filter_congr fun s _ => ?_
      by_cases hs : s.id = sessionId <;> simp [hs, hdiff.symm]
    · refine filter_congr fun e _ => ?_
      by_cases he : e.sessionId = sessionId <;> simp [he, hdiff.symm]
  | rename sid name => exact part_updateSession_of_ne (fun _ => rfl) hne
  | setActiveMode sid modeId => exact part_updateSession_of_ne (fun _ => rfl) hne

/-- Whatever was done in between to other sessions, the rows of a session are those of a store
that only saw the calls on that session. -/
theorem part_run {calls : List StoreCall} (h : Fresh calls) (sessionId : String) :
    (run calls).part sessionId = run (calls.filter fun c => c.sessionId = sessionId) := by
  induction calls using List.reverseRecOn with
  | nil => rfl
  | append_singleton calls c ih =>
    have hw := wellFormed_run h.front
    have hfresh : ∀ e ∈ (run calls).entries, e.id ≠ c.nanoid := by
      intro e he hid
      have hdrawn := (@mem_run_entries _ [] _ h.front he).resolve_left not_mem_nil
      exact (fresh_snoc.mp h).2.1 (hid ▸ hdrawn)
    rw [filter_append, run, Run.run_snoc, ← run]
    by_cases hc : c.sessionId = sessionId
    · subst hc
      rw [part_exec hfresh, ih h.front, filter_cons_of_pos (by simp), filter_nil, run, run,
        Run.run_snoc]
    · rw [part_exec_of_ne hw hc, ih h.front, filter_cons_of_neg (by simpa using hc), filter_nil,
        append_nil]

/-- A session reads as if the calls on the others had not been made. -/
theorem session_alone {calls : List StoreCall} (h : Fresh calls) (sessionId : String) :
    let alone := run (calls.filter fun c => c.sessionId = sessionId)
    (run calls).get sessionId = alone.get sessionId ∧
      (run calls).getEntries sessionId = alone.getEntries sessionId ∧
      (run calls).readActiveModeId sessionId = alone.readActiveModeId sessionId ∧
      (∀ options, (run calls).getEntriesPaginated sessionId options =
        alone.getEntriesPaginated sessionId options) ∧
      (∀ id, (run calls).walkActiveModeIdAt sessionId id =
        alone.walkActiveModeIdAt sessionId id) ∧
      ∀ now, (run calls).buildContext sessionId now = alone.buildContext sessionId now := by
  intro alone
  have hpart : (run calls).part sessionId = alone := part_run h sessionId
  rw [← hpart]
  exact ⟨get_part.symm, getEntries_part.symm, congrArg (Option.bind · _) get_part.symm,
    fun _ => getEntriesPaginated_part.symm, fun _ => walkActiveModeIdAt_part.symm,
    fun _ => buildContext_part.symm⟩

/-- Two sessions in turn; the second is collected and deleted. -/
def interleavedCalls : List StoreCall :=
  [⟨.create {}, "s", 0⟩, ⟨.create {}, "t", 1⟩, appendCustom "s" "a" 2, appendCustom "t" "b" 3,
    appendCustom "s" "c" 4, ⟨.branch "s" "a", "d", 5⟩, ⟨.gc "t", "e", 6⟩, ⟨.delete "t", "f", 7⟩]

theorem session_alone_interleaved :
    (run interleavedCalls).get "s" =
      (run (interleavedCalls.filter fun c => c.sessionId = "s")).get "s" :=
  (@session_alone interleavedCalls (by decide) "s").1

end SessionStore

end CrabbyKit
