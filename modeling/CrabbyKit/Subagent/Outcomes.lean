import CrabbyKit.Subagent.Ownership

/-!
# Outcomes of subagents

The laws of the outcomes hold in every state of a run in which each subagent keeps to one owner:
no subagent ends twice, results reach the parent of a subagent that was not canceled, none is
reported as lost while it runs, and one that nothing works on has ended without a record or
waits as lost for the next client.
-/

namespace CrabbyKit.Subagent

open List Function

theorem After.subject_mem_remaining (next : After) : next.subject ∈ next.remaining := by
  cases next <;> exact mem_cons_self

variable {started : List PendingSubagent}

theorem After.remaining_subset {next : After}
    (h : next.Valid started) {id : String} (hid : id ∈ next.remaining) : id ∈ next.about := by
  cases next with
  | deliver sub result => exact hid
  | cancel sub => exact hid
  | orphan sub rest active => exact (h.2.map _).subset hid

variable {more : List PendingSubagent}

theorem After.Valid.mono {next : After}
    (h : next.Valid started) (hsub : started ⊆ more) : next.Valid more := by
  cases next with
  | deliver sub result => exact hsub h
  | cancel sub => exact h
  | orphan sub rest active => exact h

theorem Task.Valid.mono {task : Task}
    (h : task.Valid started) (hsub : started ⊆ more) : task.Valid more := by
  cases task with
  | writing record next => exact ⟨h.1.mono hsub, h.2⟩
  | after next => exact After.Valid.mono h hsub
  | prompting sub result => exact hsub h
  | launching sub name => exact h
  | aborting sub => exact h
  | canceled sub => exact h
  | orphaning todo active => exact h

namespace Subagents

variable {s s' : Subagents} {id : String} {i : Nat} {task : Task}

/-- The two ways of an `updateState` have the same subagents in their hands. -/
theorem updated_spec (h : s.Coherent) (subagentId : String) (state : SubagentState) (next : After)
    (hsubject : next.subject = subagentId) (hvalid : next.Valid s.started) :
    let new := s.updated subagentId state next
    new.Valid s.started ∧ new.about = next.about ∧ new.remaining = next.remaining ∧
      ¬ new.Launches ∧ ((Task.after next).Cancels → new.Cancels) := by
  subst hsubject
  unfold updated
  cases hget : s.pending.get next.subject with
  | none => exact ⟨hvalid, rfl, rfl, id, id⟩
  | some record =>
    refine ⟨⟨hvalid, h.keyed _ record hget⟩, rfl, rfl, id, fun hcancels => ?_⟩
    cases next <;> exact hcancels

theorem keyed_put (h : s.Coherent) (record : PendingSubagent) (id : String)
    (found : PendingSubagent)
    (hget : (s.pending.put record.subagentId record).get id = some found) :
    found.subagentId = id := by
  by_cases hid : id = record.subagentId
  · rw [hid, SortedMap.get_put] at hget
    rw [← Option.some.inj hget, hid]
  · rw [SortedMap.get_put_of_ne _ hid] at hget
    exact h.keyed id found hget

theorem keyed_delete (h : s.Coherent) (deleted id : String) (found : PendingSubagent)
    (hget : (s.pending.delete deleted).1.get id = some found) : found.subagentId = id := by
  by_cases hid : id = deleted
  · rw [hid, SortedMap.get_delete] at hget
    cases hget
  · rw [SortedMap.get_delete_of_ne _ hid] at hget
    exact h.keyed id found hget

variable {sub : PendingSubagent}

theorem coherent_launch (h : s.Coherent) {name : String}
    (htask : s.tasks i = some (.launching sub name)) (answer : HostAnswer) :
    (s.advance i answer (.launching sub name)).Coherent := by
  have howned := (h.phase sub.subagentId).owner htask (mem_singleton_self _)
  have hsub : s.started ⊆ s.started ++ [sub] := subset_append_left _ _
  have hended : ∀ id, (s.broadcasts ++ [Broadcast.status sub.subagentId sub.modeId .running
      (some sub.prompt) none]).filter (fun b => id ∈ b.ends) = s.ended id := by
    intro id
    rw [ended_tell, if_neg (by simp [Broadcast.ends]), append_nil]
  refine
    { phase := fun id => ?_
      keyed := h.keyed
      free := Table.free_update h.free le_rfl (h.lt_spawned htask)
      valid := valid_update (fun j t ht => (h.valid j t ht).mono hsub) fun t ht => by cases ht
      children := fun id child hsome => ?_
      addressed := fun message hmem => ?_
      sessions := fun started hstarted => ?_
      separate := fun b hb => ?_ }
  · by_cases hid : id = sub.subagentId
    · subst hid
      refine .waiting ⟨howned.session, howned.launching trivial, fun child hsome => ?_,
        fun j other hj hin => ?_, (hended _).trans howned.ended, howned.handed⟩
      · have hself : some ⟨sub, false⟩ = some child :=
          (update_self (f := s.children) _ _).symm.trans hsome
        rw [← Option.some.inj hself]
      · obtain ⟨hne, hold⟩ := Table.update_none_eq_some hj
        exact hne (howned.sole j other hold hin)
    · refine (h.phase id).frame Iff.rfl rfl (update_of_ne hid _ _) (hended id) rfl
        (tasks_update_iff (fun t ht => ?_) fun t ht => absurd ht (by simp))
      obtain rfl : Task.launching sub name = t := Option.some.inj (htask.symm.trans ht)
      exact fun hmem => hid (mem_singleton.mp hmem)
  · change Function.update s.children sub.subagentId _ id = some child at hsome
    rw [update_apply] at hsome
    split_ifs at hsome with hid
    · cases hsome
      exact ⟨hid.symm, mem_append_right _ (mem_singleton_self _)⟩
    · exact (h.children id child hsome).imp_right fun hmem => hsub hmem
  · obtain ⟨parent, hparent, heq⟩ := h.addressed message hmem
    exact ⟨parent, hsub hparent, heq⟩
  · rcases mem_append.mp hstarted with hold | hnew
    · exact h.sessions started hold
    · rw [mem_singleton.mp hnew]
      exact howned.session
  · rcases mem_append.mp hb with hold | hnew
    · exact h.separate b hold
    · rw [mem_singleton.mp hnew]
      exact nodup_nil

theorem coherent_finish (h : s.Coherent) (result : SubagentRunResult)
    (htask : s.tasks i = some task) (habout : task.about = [sub.subagentId])
    (hstarted : sub ∈ s.started) :
    (s.finish i sub result).Coherent ∧ ((s.inject sub result).finish i sub result).Coherent := by
  have hstate : result.state ≠ .running := by
    unfold SubagentRunResult.state
    split <;> decide
  have hends : (Broadcast.status sub.subagentId sub.modeId result.state none
      (some (formatResult sub.modeId result))).ends = task.about := by
    rw [habout, Broadcast.ends, if_neg hstate]
  have hresult : (Broadcast.status sub.subagentId sub.modeId result.state none
      (some (formatResult sub.modeId result))).IsResult := by
    change result.state = .completed ∨ result.state = .failed
    unfold SubagentRunResult.state
    split
    · exact .inl rfl
    · exact .inr rfl
  have hother : ∀ id, id ∉ task.about →
      (s.pending.delete sub.subagentId).1.get id = s.pending.get id := by
    intro id hid
    rw [habout, mem_singleton] at hid
    exact SortedMap.get_delete_of_ne _ hid
  have hgone : ∀ id ∈ task.about, (s.pending.delete sub.subagentId).1.get id = none := by
    intro id hid
    rw [habout, mem_singleton] at hid
    rw [hid]
    exact SortedMap.get_delete _ _
  have hnodup : task.about.Nodup := by
    rw [habout]
    exact nodup_singleton _
  constructor
  · exact h.finishAll htask (append_nil _).symm hends hnodup (keyed_delete h _) hother hgone
      (.inl rfl) fun subagents horphaned => by cases horphaned
  · refine h.finishAll htask rfl hends hnodup (keyed_delete h _) hother hgone
      (.inr ⟨hresult, _, rfl, habout, sub, hstarted, rfl, rfl⟩) fun subagents horphaned => ?_
    cases horphaned

variable {subagentId : String}

theorem abort_children {child : Child} (h : (s.abort subagentId).children id = some child) :
    ∃ old, s.children id = some old ∧ child.sub = old.sub ∧
      (id = subagentId → child.aborted = true) := by
  change Function.update s.children subagentId _ id = some child at h
  rw [update_apply] at h
  split_ifs at h with hid
  · obtain ⟨old, hold, rfl⟩ := Option.map_eq_some_iff.mp h
    exact ⟨old, hid ▸ hold, rfl, fun _ => rfl⟩
  · exact ⟨child, h, rfl, fun heq => absurd heq hid⟩

theorem coherent_advance (h : s.Coherent) (htask : s.tasks i = some task) {answer : HostAnswer}
    (hserial : s.Serial (.advance i answer)) : (s.advance i answer task).Coherent := by
  have hvalid := h.valid i task htask
  have hdeleted : ∀ id ∈ task.about, id ∉ task.remaining → s.pending.get id = none :=
    fun id hid => ((h.phase id).owner htask hid).deleted
  cases task with
  | launching sub name => exact coherent_launch h htask answer
  | writing record next =>
    have hsubject := After.remaining_subset hvalid.1 next.subject_mem_remaining
    refine h.goOn htask (show (Task.after next).Valid s.started from hvalid.1) rfl
      (fun hcancels => ?_) id (keyed_put h record)
      (fun id hid => ?_) fun id hid hnot => ?_
    · cases next <;> exact hcancels
    · refine SortedMap.get_put_of_ne _ ?_ _
      rintro rfl
      exact hid (hvalid.2 ▸ hsubject)
    · rw [SortedMap.get_put_of_ne]
      · exact hdeleted id hid hnot
      · rintro rfl
        exact hnot (hvalid.2 ▸ next.subject_mem_remaining)
  | prompting sub result =>
    have hfinish := coherent_finish h result htask rfl hvalid
    simp only [advance]
    split
    · exact hfinish.2
    · exact hfinish.1
  | aborting sub =>
    simp only [advance]
    split
    · refine (h.reply _).idleTask (fun old hold => ?_) le_rfl (h.lt_spawned htask) fun t ht => ?_
      · obtain rfl : Task.aborting sub = old := Option.some.inj (htask.symm.trans hold)
        rfl
      · cases ht
    · rename_i hfailure
      obtain ⟨hrunning, hidle⟩ := hserial sub htask hfailure
      obtain ⟨hnew, habout, hremaining, hlaunches, hcancels⟩ :=
        updated_spec h sub.subagentId .canceled (.cancel sub) rfl trivial
      refine h.takeUp (fun old hold => ?_) le_rfl (h.lt_spawned htask) hnew (fun id hid => ?_)
        (fun id hid => ?_) hlaunches (fun id child hsome => ?_) fun id hid => ?_
      · obtain rfl : Task.aborting sub = old := Option.some.inj (htask.symm.trans hold)
        rfl
      · rw [habout, After.about, mem_singleton] at hid
        rw [hid]
        exact (h.phase _).openOf hrunning hidle
      · rw [hremaining]
        rw [habout] at hid
        exact hid
      · obtain ⟨old, hold, hsub, haborted⟩ := abort_children hsome
        refine ⟨old, hold, hsub, fun hid => ⟨haborted ?_, hcancels trivial⟩⟩
        rw [habout, After.about, mem_singleton] at hid
        exact hid
      · rw [habout, After.about, mem_singleton] at hid
        exact update_of_ne hid _ _
  | canceled sub =>
    refine h.finishAll htask (append_nil _).symm rfl (nodup_singleton _) h.keyed
      (fun _ _ => rfl) (fun id hid => hdeleted id hid not_mem_nil) (.inl rfl)
      fun subagents horphaned => ?_
    cases horphaned
  | orphaning todo active =>
    cases todo with
    | nil =>
      exact h.finishAll htask (append_nil _).symm rfl hvalid.1 h.keyed (fun _ _ => rfl)
        (fun id hid => hdeleted id hid not_mem_nil) (.inl rfl) fun _ _ => id
    | cons sub rest =>
      obtain ⟨hnew, habout, hremaining, hlaunches, -⟩ :=
        updated_spec h sub.subagentId .failed (.orphan sub rest active) rfl hvalid
      refine h.goOn htask hnew habout (fun hcancels => hcancels.elim) hlaunches h.keyed
        (fun _ _ => rfl) fun id hid hnot => hdeleted id hid ?_
      rw [hremaining] at hnot
      exact hnot
  | after next =>
    cases next with
    | deliver sub result =>
      have hfinish := coherent_finish h result htask rfl hvalid
      simp only [advance]
      split
      · exact hfinish.2
      · exact h.goOn htask (show (Task.prompting sub result).Valid s.started from hvalid) rfl id id
          h.keyed (fun _ _ => rfl)
          hdeleted
    | cancel sub =>
      refine h.goOn htask (show (Task.canceled sub).Valid s.started from trivial) rfl id id
        (keyed_delete h _)
        (fun id hid => ?_) fun id hid _ => ?_
      · exact SortedMap.get_delete_of_ne _ fun heq => hid (mem_singleton.mpr heq)
      · rw [mem_singleton.mp hid]
        exact SortedMap.get_delete _ _
    | orphan sub rest active =>
      have hmem : sub.subagentId ∈ active.map PendingSubagent.subagentId :=
        (hvalid.2.map _).subset mem_cons_self
      have hrest : (Task.orphaning rest active).Valid s.started :=
        ⟨hvalid.1, (suffix_cons sub rest).trans hvalid.2⟩
      refine h.goOn htask hrest rfl id id (keyed_delete h _)
        (fun id hid => ?_) fun id hid hnot => ?_
      · refine SortedMap.get_delete_of_ne _ ?_
        rintro rfl
        exact hid hmem
      · by_cases heq : id = sub.subagentId
        · rw [heq]
          exact SortedMap.get_delete _ _
        · rw [SortedMap.get_delete_of_ne _ heq]
          refine hdeleted id hid fun hin => ?_
          rcases mem_cons.mp hin with hhead | htail
          · exact heq hhead
          · exact hnot htail

theorem coherent_spawn (h : s.Coherent) (name : String)
    (hsession : sub.subagentId ∉ s.sessions) (hstate : sub.state = .running) :
    ({ s.save sub with sessions := s.sessions ++ [sub.subagentId] }.spawn
      (.launching sub name)).Coherent := by
  have hfresh : s.Fresh sub.subagentId := by
    cases h.phase sub.subagentId with
    | fresh hfresh => exact hfresh
    | waiting hopen => exact absurd hopen.session hsession
    | owned i task howned => exact absurd howned.session hsession
    | closed hover => exact absurd hover.session hsession
  refine
    { phase := fun id => ?_
      keyed := keyed_put h sub
      free := Table.free_update h.free (Nat.le_succ _) (Nat.lt_succ_self _)
      valid := valid_update h.valid fun t ht => ?_
      children := h.children
      addressed := h.addressed
      sessions := fun started hmem => mem_append_left _ (h.sessions started hmem)
      separate := h.separate }
  · by_cases hid : id = sub.subagentId
    · subst hid
      refine .owned s.spawned (.launching sub name) ⟨mem_append_right _
        (mem_singleton_self _), update_self _ _ _, mem_singleton_self _,
        fun j other hj hin => ?_, fun hnot => absurd (mem_singleton_self _) hnot,
        fun _ => ⟨sub, SortedMap.get_put _ _ _, hstate⟩, fun child hsome => ?_, hfresh.ended,
        hfresh.handed⟩
      · by_contra hne
        exact hfresh.idle j other ((update_of_ne hne _ _).symm.trans hj) hin
      · exact absurd (hfresh.child.symm.trans hsome) (by simp)
    · refine (h.phase id).frame ?_ (SortedMap.get_put_of_ne _ hid _) rfl rfl rfl
        (tasks_update_iff (fun t ht => ?_) fun t ht => ?_)
      · change id ∈ s.sessions ++ [sub.subagentId] ↔ id ∈ s.sessions
        rw [mem_append, mem_singleton]
        exact or_iff_left hid
      · exact absurd ((h.free s.spawned le_rfl).symm.trans ht) (by simp)
      · obtain rfl : Task.launching sub name = t := Option.some.inj ht
        exact fun hmem => hid (mem_singleton.mp hmem)
  · obtain rfl : Task.launching sub name = t := Option.some.inj ht
    trivial

theorem listActive_spec (h : s.Coherent) :
    (s.listActive.map PendingSubagent.subagentId).Nodup ∧
      ∀ sub, sub ∈ s.listActive ↔
        s.pending.get sub.subagentId = some sub ∧ sub.state = .running := by
  have hkey : ∀ row ∈ s.pending.rows, row.2.subagentId = row.1 := fun row hrow =>
    h.keyed row.1 row.2 (s.pending.get_eq_some_iff.mpr hrow)
  constructor
  · have hids : (s.pending.rows.map Prod.snd).map PendingSubagent.subagentId =
        s.pending.rows.map Prod.fst := by
      rw [map_map]
      exact map_congr_left hkey
    have hnodup : (s.pending.rows.map Prod.fst).Nodup := by
      refine List.Pairwise.map _ ?_ s.pending.sorted
      exact fun _ _ hlt => hlt.ne
    rw [← hids] at hnodup
    exact hnodup.sublist (filter_sublist.map _)
  · intro sub
    rw [listActive, mem_filter, decide_eq_true_iff, mem_map]
    refine and_congr_left fun _ => ⟨fun hrow => ?_, fun hget => ?_⟩
    · obtain ⟨row, hrow, rfl⟩ := hrow
      rw [hkey row hrow]
      exact s.pending.get_eq_some_iff.mpr hrow
    · exact ⟨_, s.pending.get_eq_some_iff.mp hget, rfl⟩

theorem coherent_connect (h : s.Coherent) {broadcast : Bool}
    (hserial : s.Serial (.connect broadcast)) : (s.connect broadcast).Coherent := by
  obtain ⟨hnodup, hmem⟩ := listActive_spec h
  unfold connect
  simp only
  split_ifs with hactive
  · have hlost := hserial hactive.2
    have hvalid : (Task.orphaning s.listActive s.listActive).Valid s.started :=
      ⟨hnodup, suffix_rfl⟩
    refine h.takeUp (fun old hold => ?_) (Nat.le_succ _) (Nat.lt_succ_self _) hvalid
      (fun id hid => ?_)
      (fun id hid => hid) (fun hlaunches => hlaunches) (fun id child hsome => ?_) fun _ _ => rfl
    · rw [h.free s.spawned le_rfl] at hold
      cases hold
    · obtain ⟨sub, hsub, rfl⟩ := mem_map.mp hid
      obtain ⟨hget, hstate⟩ := (hmem sub).mp hsub
      exact (h.phase _).openOf ⟨sub, hget, hstate⟩ (hlost sub hsub).2
    · refine ⟨child, hsome, rfl, fun hid => ?_⟩
      obtain ⟨sub, hsub, rfl⟩ := mem_map.mp hid
      rw [(hlost sub hsub).1] at hsome
      cases hsome
  · exact h

theorem coherent_complete (h : s.Coherent) (result : SubagentRunResult)
    (hserial : s.Serial (.complete subagentId result)) :
    (s.complete subagentId result).Coherent := by
  unfold complete
  cases hchild : s.children subagentId with
  | none => exact h
  | some child =>
    obtain ⟨hsub, hstarted⟩ := h.children subagentId child hchild
    have hrunning := hserial child hchild
    have hopen : s.Open subagentId := by
      cases h.phase subagentId with
      | fresh hfresh => exact absurd (hfresh.child.symm.trans hchild) (by simp)
      | waiting hopen => exact hopen
      | owned i task howned =>
        rw [(howned.child child hchild).1] at hrunning
        cases hrunning
      | closed hover =>
        rw [hover.child child hchild] at hrunning
        cases hrunning
    obtain ⟨hnew, habout, hremaining, hlaunches, -⟩ :=
      updated_spec h subagentId result.state (.deliver child.sub result) hsub hstarted
    have hsingle : ∀ id ∈ (s.updated subagentId result.state (.deliver child.sub result)).about,
        id = subagentId := by
      intro id hid
      rw [habout, After.about, mem_singleton] at hid
      exact hid.trans hsub
    refine h.takeUp (fun old hold => ?_) (Nat.le_succ _) (Nat.lt_succ_self _) hnew
      (fun id hid => ?_) (fun id hid => ?_) hlaunches (fun id found hsome => ?_) fun id hid => ?_
    · rw [h.free s.spawned le_rfl] at hold
      cases hold
    · rw [hsingle id hid]
      exact hopen
    · rw [hremaining]
      rw [habout] at hid
      exact hid
    · obtain ⟨hid, hold⟩ := Table.update_none_eq_some hsome
      exact ⟨found, hold, rfl, fun hin => absurd (hsingle id hin) hid⟩
    · refine update_of_ne ?_ _ _
      rintro rfl
      rw [habout, After.about, mem_singleton] at hid
      exact hid hsub.symm

theorem coherent_hibernate (h : s.Coherent) (hserial : s.Serial .hibernate) :
    Coherent { s with children := fun _ => none, tasks := fun _ => none } where
  phase id := by
    have hidle : Idle { s with children := fun _ => none, tasks := fun _ => none } id :=
      fun j task htask => by cases htask
    have hnone : ∀ child : Child, none ≠ some child := fun child => (Option.some_ne_none child).symm
    cases h.phase id with
    | fresh hfresh =>
      exact .fresh ⟨hfresh.session, hfresh.record, rfl, hidle, hfresh.ended, hfresh.handed⟩
    | waiting hopen =>
      exact .waiting ⟨hopen.session, hopen.running,
        fun child hsome => absurd hsome (hnone child), hidle, hopen.ended, hopen.handed⟩
    | owned i task howned =>
      exact .waiting ⟨howned.session, hserial i task howned.task_eq id howned.about,
        fun child hsome => absurd hsome (hnone child), hidle, howned.ended, howned.handed⟩
    | closed hover =>
      obtain ⟨broadcast, hended, hhanded, -⟩ := hover.ended
      exact .closed ⟨hover.session, hover.record,
        fun child hsome => absurd hsome (hnone child), hidle, broadcast, hended, hhanded,
        fun _ _ => rfl⟩
  keyed := h.keyed
  free _ _ := rfl
  valid j task htask := by cases htask
  children id child hsome := by cases hsome
  addressed := h.addressed
  sessions := h.sessions
  separate := h.separate

theorem coherent_start (h : s.Coherent) (modes : List Mode) (mode prompt : String)
    (taskId : Option String) (sessionId parentSessionId : String) :
    (s.start modes mode prompt taskId sessionId parentSessionId).Coherent := by
  unfold start
  split
  · exact h.reply _
  · split_ifs with hused
    · exact h
    · exact coherent_spawn h _ hused rfl

theorem coherent_cancel (h : s.Coherent) (subagentId : String) :
    (s.cancel subagentId).Coherent := by
  unfold cancel
  split
  · exact h.reply _
  · rename_i pending hpending
    split_ifs with hstate
    · exact h.reply _
    · refine h.idleTask (fun old hold => ?_) (Nat.le_succ _) (Nat.lt_succ_self _) fun t ht => ?_
      · rw [h.free s.spawned le_rfl] at hold
        cases hold
      · obtain rfl : Task.aborting pending = t := Option.some.inj ht
        exact ⟨rfl, trivial⟩

theorem coherent_step (h : s.Coherent) (modes : List Mode) {label : Label}
    (hserial : s.Serial label) : (s.step modes label).Coherent := by
  cases label with
  | start mode prompt taskId sessionId parentSessionId =>
    exact coherent_start h modes mode prompt taskId sessionId parentSessionId
  | check subagentId =>
    simp only [step, check]
    split
    · exact h.reply _
    · exact h.reply _
  | cancel subagentId => exact coherent_cancel h subagentId
  | connect broadcast => exact coherent_connect h hserial
  | complete subagentId result => exact coherent_complete h result hserial
  | hibernate => exact coherent_hibernate h hserial
  | advance i answer =>
    simp only [step]
    cases htask : s.tasks i with
    | none => exact h
    | some task => exact coherent_advance h htask hserial

end Subagents

end CrabbyKit.Subagent
