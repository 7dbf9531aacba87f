import CrabbyKit.Session.Mode
import CrabbyKit.Session.Sync

/-!
# Going back in a session

An entry is written once and never changed, and its id is not drawn again. A branch to a leaf
that the session had before gives it the path and the context of that time back, whatever was
appended, branched or collected since.
-/

namespace CrabbyKit.SessionStore

open List

variable {st : SessionStore} {sessionId leaf : String} {e : SessionEntry} {now : Instant}

theorem after_of_ok {P : SessionStore → Prop} (h : P st) {r : Except StoreError SessionStore}
    (hr : ∀ st', r = .ok st' → P st') : P (st.after r) := by
  cases r with
  | ok st' => exact hr st' rfl
  | error _ => exact h

theorem mem_exec_entries (hw : st.WellFormed) (c : StoreCall) :
    ∀ e ∈ (st.exec c).entries, e ∈ st.entries ∨ e.id = c.nanoid := by
  obtain ⟨op, nanoid, now⟩ := c
  have hsame : ∀ e ∈ st.entries, e ∈ st.entries ∨ e.id = nanoid := fun e => .inl
  have hafter {r} := @after_of_ok st
    (fun st' => ∀ e ∈ st'.entries, e ∈ st.entries ∨ e.id = nanoid) hsame r
  cases op with
  | create opts =>
    refine hafter fun st' hr => ?_
    obtain ⟨_, hc⟩ := fst_ok hr
    obtain ⟨-, -, rfl⟩ := create_ok hc
    exact hsame
  | appendEntry sid data =>
    refine hafter fun st' hr e he => ?_
    obtain ⟨_, ha⟩ := fst_ok hr
    rw [entries_appendEntry ha] at he
    rcases mem_append.mp he with he | he
    · exact .inl he
    · exact .inr (mem_singleton.mp he ▸ (data_appendEntry ha).1)
  | branch sid fromEntryId =>
    refine hafter fun st' hb => ?_
    obtain ⟨_, -, -, -, _, -, rfl⟩ := branch_ok hb
    exact hsame
  | gc sid =>
    refine hafter fun st' hr e he => ?_
    obtain ⟨_, hg⟩ := fst_ok hr
    exact .inl ((gc_ok hw hg).2.1.subset he)
  | delete sid => exact fun e he => .inl (mem_filter.mp he).1
  | rename sid name => exact hsame
  | setActiveMode sid modeId => exact hsame

theorem mem_run_entries {before later : List StoreCall} (h : Fresh (before ++ later))
    (he : e ∈ (run (before ++ later)).entries) :
    e ∈ (run before).entries ∨ e.id ∈ later.map StoreCall.nanoid := by
  induction later using List.reverseRecOn with
  | nil => exact .inl (append_nil before ▸ he)
  | append_singleton later c ih =>
    rw [← append_assoc] at h he
    rw [run, Run.run_snoc] at he
    rw [map_append, mem_append]
    rcases mem_exec_entries (wellFormed_run h.front) c e he with he | he
    · exact (ih h.front he).imp_right .inl
    · exact .inr (.inr (mem_singleton.mpr he))

/-- An entry with the id of an earlier one is that one. -/
theorem eq_of_mem_run {before later : List StoreCall} (h : Fresh (before ++ later))
    {q r : SessionEntry} (hq : q ∈ (run before).entries)
    (hr : r ∈ (run (before ++ later)).entries) (hid : q.id = r.id) : q = r := by
  have hdrawn := (@mem_run_entries _ [] _ h.front hq).resolve_left not_mem_nil
  refine (wellFormed_run h.front).eq_of_id hq ((mem_run_entries h hr).resolve_right ?_) hid
  rw [← hid]
  intro hlater
  have hdistinct := h.1
  rw [map_append] at hdistinct
  exact (nodup_append.mp hdistinct).2.2 _ hdrawn _ hlater rfl

/-- A session that is taken back to a leaf it had before has the path it had then, and the
context, whatever was done in between. -/
theorem branch_restores {before later : List StoreCall} (h : Fresh (before ++ later))
    (hleaf : (run before).leafOf sessionId = some leaf)
    (hthere : ((run (before ++ later)).get sessionId).isSome = true)
    (hb : (run (before ++ later)).branch sessionId leaf now = .ok st) :
    st.path sessionId = (run before).path sessionId ∧
      ∀ now', st.buildContext sessionId now' = (run before).buildContext sessionId now' := by
  have hold := wellFormed_run h.front
  have hnew := wellFormed_run h
  obtain ⟨s, hs⟩ := Option.isSome_iff_exists.mp hthere
  obtain ⟨e, he, heid, -, -⟩ := branch_ok hb
  obtain ⟨first, hfirst, hmem, hsid, hid⟩ := hold.leafOf_mem hleaf
  -- the chain of the leaf is there still: a parent of a stored entry is stored
  have hchain : ∀ q ∈ (run before).pathTo sessionId leaf,
      q ∈ (run (before ++ later)).entries := by
    have hc := hold.pathTo_chain sessionId leaf
    rw [hfirst] at hc
    intro q hq
    refine (hc.forall_mem (P := fun q => q ∈ (run before).entries ∧
      q ∈ (run (before ++ later)).entries) ?_ ?_ q (mem_reverse.mpr hq)).2
    · rintro q ⟨-, hq'⟩ r hparent
      obtain ⟨p, hp, hparent⟩ := Option.bind_eq_some_iff.mp hparent
      obtain ⟨hr, -, rfl⟩ := hold.entryMap_eq_some.mp hparent
      obtain ⟨r', hr', hid', -⟩ := hnew.parent q hq' r.id (truthy_eq_some.mp hp).1
      exact ⟨hr, eq_of_mem_run h hr hr' hid'.symm ▸ hr'⟩
    · rintro q ⟨⟩
      exact ⟨hmem, eq_of_mem_run h hmem he (hid.trans heid.symm) ▸ he⟩
  have hpath : st.path sessionId = (run before).path sessionId := by
    rw [hnew.path_branch hb hs, hold.pathTo_frame hnew hfirst hchain, path_eq, hleaf]
  refine ⟨hpath, fun now' => ?_⟩
  rw [(hnew.branch hb).buildContext_eq, hold.buildContext_eq, hpath]

/-- An entry, and then another, a branch back, a third and a collection of the second. -/
def branchedCalls : List StoreCall × List StoreCall :=
  ([⟨.create {}, "s", 0⟩, appendCustom "s" "a" 1],
    [appendCustom "s" "b" 2, ⟨.branch "s" "a", "c", 3⟩, appendCustom "s" "d" 4, ⟨.gc "s", "e", 5⟩])

theorem branch_restores_first : ∃ st,
    (run (branchedCalls.1 ++ branchedCalls.2)).branch "s" "a" 6 = .ok st ∧
      st.path "s" = (run branchedCalls.1).path "s" :=
  ⟨_, rfl, (@branch_restores _ "s" "a" 6 branchedCalls.1 branchedCalls.2 (by decide) (by decide)
    (by decide) rfl).1⟩

end CrabbyKit.SessionStore
