import CrabbyKit.Subagent.Outcomes

/-!
# Every subagent ends once

In a run of serial steps the outcomes of subagents are lawful in every state, and the next client
that connects after a hibernation is told of those that were lost.
-/

namespace CrabbyKit.Subagent.Subagents

open List Function

variable {s s' : Subagents} {id : String} {i : Nat}

variable (modes : List Mode)

/-- Nothing is under way, and no child runs. -/
structure Quiet (s : Subagents) : Prop where
  tasks : ∀ i, s.tasks i = none
  children : ∀ id child, s.children id = some child → child.aborted = true

/-- The outcomes of subagents so far. -/
structure Lawful (s : Subagents) : Prop where
  /-- The end of a subagent is told once. -/
  once : ∀ id, (s.ended id).length ≤ 1
  separate : ∀ broadcast ∈ s.broadcasts, broadcast.ends.Nodup
  /-- A session is handed a result once, and only that of a subagent that ended with it. -/
  handed : ∀ id, (s.handed id).length ≤ 1
  result : ∀ message ∈ s.messages, ∃ broadcast, s.ended message.subagentId = [broadcast] ∧
    broadcast.IsResult
  /-- The session is that of the parent. -/
  parent : ∀ message ∈ s.messages, ∃ sub ∈ s.started,
    sub.subagentId = message.subagentId ∧ sub.parentSessionId = message.sessionId
  /-- What was reported as lost does not run. -/
  truthful : ∀ subagents, .orphaned subagents ∈ s.broadcasts → ∀ sub ∈ subagents,
    s.children sub.subagentId = none
  /-- What ended has no record when nothing works on it. -/
  cleared : ∀ id, s.Idle id → s.ended id ≠ [] → s.pending.get id = none
  /-- A started subagent that neither runs nor is in hand has ended, or waits as lost. -/
  settled : ∀ sub ∈ s.started, s.Idle sub.subagentId →
    (∀ child, s.children sub.subagentId = some child → child.aborted = true) →
    (s.ended sub.subagentId).length = 1 ∨ (s.Running sub.subagentId ∧ s.ended sub.subagentId = [])

theorem Phase.over_of_ended (h : s.Phase id) (hended : s.ended id ≠ []) : s.Over id := by
  cases h with
  | fresh h => exact absurd h.ended hended
  | waiting h => exact absurd h.ended hended
  | owned i task h => exact absurd h.ended hended
  | closed h => exact h

theorem Phase.over_of_handed (h : s.Phase id) (hhanded : s.handed id ≠ []) : s.Over id := by
  cases h with
  | fresh h => exact absurd h.handed hhanded
  | waiting h => exact absurd h.handed hhanded
  | owned i task h => exact absurd h.handed hhanded
  | closed h => exact h

theorem Coherent.lawful (h : s.Coherent) : s.Lawful where
  once id := by
    by_cases hended : s.ended id = []
    · rw [hended]
      exact Nat.zero_le _
    · obtain ⟨broadcast, hone, -⟩ := ((h.phase id).over_of_ended hended).ended
      rw [hone]
      exact le_rfl
  separate := h.separate
  handed id := by
    by_cases hhanded : s.handed id = []
    · rw [hhanded]
      exact Nat.zero_le _
    · obtain ⟨broadcast, -, hnil | ⟨-, message, hone⟩, -⟩ :=
        ((h.phase id).over_of_handed hhanded).ended
      · exact absurd hnil hhanded
      · rw [hone]
        exact le_rfl
  result message hmem := by
    have hin : message ∈ s.handed message.subagentId :=
      mem_filter.mpr ⟨hmem, decide_eq_true rfl⟩
    obtain ⟨broadcast, hone, hnil | ⟨hresult, -⟩, -⟩ :=
      ((h.phase message.subagentId).over_of_handed (ne_nil_of_mem hin)).ended
    · rw [hnil] at hin
      cases hin
    · exact ⟨broadcast, hone, hresult⟩
  parent := h.addressed
  truthful subagents hmem sub hsub := by
    have hin : .orphaned subagents ∈ s.ended sub.subagentId :=
      mem_filter.mpr ⟨hmem, decide_eq_true (mem_map_of_mem hsub)⟩
    obtain ⟨broadcast, hone, -, horphaned⟩ :=
      ((h.phase sub.subagentId).over_of_ended (ne_nil_of_mem hin)).ended
    rw [hone, mem_singleton] at hin
    exact horphaned subagents hin.symm
  cleared id _ hended := ((h.phase id).over_of_ended hended).record
  settled sub hstarted hidle hchild := by
    cases h.phase sub.subagentId with
    | fresh hfresh => exact absurd (h.sessions sub hstarted) hfresh.session
    | waiting hopen => exact .inr ⟨hopen.running, hopen.ended⟩
    | owned i task howned => exact absurd howned.about (hidle i task howned.task_eq)
    | closed hover =>
      obtain ⟨broadcast, hone, -⟩ := hover.ended
      rw [hone]
      exact .inl rfl

/-- The hook has these subagents left, and nothing else is under way. -/
structure Reporting (s : Subagents) (i : Nat) (todo active : List PendingSubagent) : Prop where
  coherent : s.Coherent
  task : s.tasks i = some (.orphaning todo active)
  alone : ∀ j, j ≠ i → s.tasks j = none
  children : ∀ id child, s.children id = some child → child.aborted = true
  left : ∀ id, s.Running id → id ∈ todo.map PendingSubagent.subagentId

theorem serial_advance {task : Task} (htask : s.tasks i = some task)
    (hnot : ∀ sub, task ≠ .aborting sub) (answer : HostAnswer) : s.Serial (.advance i answer) := by
  intro sub hsub
  exact absurd (Option.some.inj (htask.symm.trans hsub)) (hnot sub)

theorem step_advance {task : Task} (htask : s.tasks i = some task) (answer : HostAnswer) :
    step modes s (.advance i answer) = s.advance i answer task := by
  simp only [step, htask]

theorem Reporting.next {sub : PendingSubagent} {rest active : List PendingSubagent}
    (h : s.Reporting i (sub :: rest) active) :
    ∃ n, Run.Allowed Serial (step modes) s (List.replicate n (.advance i {})) ∧
      let s' := Run.run (step modes) s (List.replicate n (.advance i {}))
      s'.Reporting i rest active ∧ s'.started = s.started := by
  have hserial := serial_advance h.task (fun _ heq => by cases heq) {}
  have hstep := step_advance modes h.task {}
  -- After its write, if there is one, the hook deletes the record.
  have hdelete : ∀ t : Subagents, t.Coherent → t.tasks i = some (.after (.orphan sub rest active)) →
      (∀ j, j ≠ i → t.tasks j = none) →
      (∀ id child, t.children id = some child → child.aborted = true) →
      (∀ id, id ≠ sub.subagentId → t.pending.get id = s.pending.get id) → t.started = s.started →
      t.Serial (.advance i {}) ∧ (step modes t (.advance i {})).Reporting i rest active ∧
        (step modes t (.advance i {})).started = s.started := by
    intro t ht htask halone hchildren hpending hstarted
    have hserial := serial_advance htask (fun _ heq => by cases heq) {}
    have hnext := coherent_step ht modes hserial
    rw [step_advance modes htask] at hnext ⊢
    refine ⟨hserial, ⟨hnext, update_self _ _ _, fun j hj => ?_, hchildren,
      fun id hrunning => ?_⟩, hstarted⟩
    · exact (update_of_ne hj _ _).trans (halone j hj)
    · obtain ⟨record, hget, hstate⟩ := hrunning
      change (t.pending.delete sub.subagentId).1.get id = some record at hget
      by_cases hid : id = sub.subagentId
      · rw [hid, SortedMap.get_delete] at hget
        cases hget
      · rw [SortedMap.get_delete_of_ne _ hid, hpending id hid] at hget
        rcases mem_cons.mp (h.left id ⟨record, hget, hstate⟩) with hhead | htail
        · exact absurd hhead hid
        · exact htail
  have hfirst := coherent_step h.coherent modes hserial
  have hothers : ∀ new j, j ≠ i → Function.update s.tasks i new j = none := fun new j hj =>
    (update_of_ne hj _ _).trans (h.alone j hj)
  cases hget : s.pending.get sub.subagentId with
  | none =>
    have hafter : step modes s (.advance i {}) =
        s.become i (some (.after (.orphan sub rest active))) := by
      rw [hstep, advance, updated, hget]
    rw [hafter] at hfirst
    obtain ⟨hserial', hreport, hstarted⟩ := hdelete _ hfirst (update_self _ _ _)
      (hothers _) h.children (fun _ _ => rfl) rfl
    refine ⟨2, Run.allowed_cons hserial ?_, ?_⟩
    · rw [hafter]
      exact Run.allowed_cons hserial' (Run.allowed_nil _ _ _)
    · change (step modes (step modes s (.advance i {})) (.advance i {})).Reporting i rest active ∧
        (step modes (step modes s (.advance i {})) (.advance i {})).started = s.started
      rw [hafter]
      exact ⟨hreport, hstarted⟩
  | some record =>
    let failed : PendingSubagent := { record with state := .failed }
    have hid : failed.subagentId = sub.subagentId := h.coherent.keyed _ record hget
    have hwriting : step modes s (.advance i {}) =
        s.become i (some (.writing failed (.orphan sub rest active))) := by
      rw [hstep, advance, updated, hget]
    rw [hwriting] at hfirst
    let t := s.become i (some (.writing failed (.orphan sub rest active)))
    have htask : t.tasks i = some (.writing failed (.orphan sub rest active)) :=
      update_self _ _ _
    have hserialWrite := serial_advance htask (fun _ heq => by cases heq) {}
    have hsecond := coherent_step hfirst modes hserialWrite
    rw [step_advance modes htask] at hsecond
    obtain ⟨hserial', hreport, hstarted⟩ := hdelete _ hsecond (update_self _ _ _)
      (fun j hj => (update_of_ne hj _ _).trans (hothers _ j hj)) h.children
      (fun id hne => SortedMap.get_put_of_ne _ (hid ▸ hne) _) rfl
    refine ⟨3, Run.allowed_cons hserial ?_, ?_⟩
    · rw [hwriting]
      refine Run.allowed_cons hserialWrite ?_
      rw [step_advance modes htask]
      exact Run.allowed_cons hserial' (Run.allowed_nil _ _ _)
    · change (step modes (step modes (step modes s (.advance i {})) (.advance i {}))
          (.advance i {})).Reporting i rest active ∧
        (step modes (step modes (step modes s (.advance i {})) (.advance i {}))
          (.advance i {})).started = s.started
      rw [hwriting]
      change (step modes (step modes t (.advance i {})) (.advance i {})).Reporting i rest active ∧
        (step modes (step modes t (.advance i {})) (.advance i {})).started = s.started
      rw [step_advance modes htask]
      exact ⟨hreport, hstarted⟩

theorem Reporting.drain {todo active : List PendingSubagent} (h : s.Reporting i todo active) :
    ∃ n, Run.Allowed Serial (step modes) s (List.replicate n (.advance i {})) ∧
      let s' := Run.run (step modes) s (List.replicate n (.advance i {}))
      s'.Coherent ∧ s'.Quiet ∧ (∀ id, ¬ s'.Running id) ∧ s'.started = s.started := by
  induction todo generalizing s with
  | nil =>
    have hserial := serial_advance h.task (fun _ heq => by cases heq) {}
    have hend := coherent_step h.coherent modes hserial
    rw [step_advance modes h.task] at hend
    refine ⟨1, Run.allowed_cons hserial (Run.allowed_nil _ _ _), ?_⟩
    change (step modes s (.advance i {})).Coherent ∧ (step modes s (.advance i {})).Quiet ∧
      (∀ id, ¬ (step modes s (.advance i {})).Running id) ∧
        (step modes s (.advance i {})).started = s.started
    rw [step_advance modes h.task]
    refine ⟨hend, ⟨fun j => ?_, h.children⟩, fun id hrunning => ?_, rfl⟩
    · by_cases hj : j = i
      · subst hj
        exact update_self _ _ _
      · exact (update_of_ne hj _ _).trans (h.alone j hj)
    · exact not_mem_nil (h.left id hrunning)
  | cons sub rest ih =>
    obtain ⟨n, hallowed, hreport, hstarted⟩ := h.next modes
    obtain ⟨m, hallowed', hend⟩ := ih hreport
    refine ⟨n + m, ?_, ?_⟩
    · rw [← replicate_append_replicate]
      exact Run.allowed_append hallowed hallowed'
    · rw [← replicate_append_replicate, Run.run, foldl_append]
      rw [hstarted] at hend
      exact hend

theorem Coherent.connect_drain (h : s.Coherent) (hquiet : s.Quiet) :
    ∃ n, Run.Allowed Serial (step modes) s
        (.connect true :: List.replicate n (.advance s.spawned {})) ∧
      let s' := Run.run (step modes) s (.connect true :: List.replicate n (.advance s.spawned {}))
      s'.Coherent ∧ s'.Quiet ∧ (∀ id, ¬ s'.Running id) ∧ s'.started = s.started := by
  obtain ⟨-, hmem⟩ := listActive_spec h
  have hidle : ∀ id, s.Idle id := fun id j task htask => by
    rw [hquiet.tasks j] at htask
    cases htask
  have hserial : s.Serial (.connect true) := by
    intro _ sub hsub
    obtain ⟨hget, hstate⟩ := (hmem sub).mp hsub
    have hopen := (h.phase sub.subagentId).openOf ⟨sub, hget, hstate⟩ (hidle _)
    refine ⟨?_, hidle _⟩
    cases hchild : s.children sub.subagentId with
    | none => rfl
    | some child =>
      have hrunning := hopen.child child hchild
      rw [hquiet.children _ child hchild] at hrunning
      cases hrunning
  have hleft : ∀ id, s.Running id → id ∈ s.listActive.map PendingSubagent.subagentId := by
    rintro id ⟨record, hget, hstate⟩
    have hid := h.keyed id record hget
    exact mem_map.mpr ⟨record, (hmem record).mpr ⟨hid ▸ hget, hstate⟩, hid⟩
  have hafter := coherent_step h modes hserial
  by_cases hactive : s.listActive = []
  · have hsame : step modes s (.connect true) = s := by
      simp only [step, connect, hactive]
      exact if_neg fun hne => hne.1 rfl
    refine ⟨0, Run.allowed_cons hserial (Run.allowed_nil _ _ _), ?_⟩
    change (step modes s (.connect true)).Coherent ∧ (step modes s (.connect true)).Quiet ∧
      (∀ id, ¬ (step modes s (.connect true)).Running id) ∧
        (step modes s (.connect true)).started = s.started
    rw [hsame]
    refine ⟨h, hquiet, fun id hrunning => ?_, rfl⟩
    have hin := hleft id hrunning
    rw [hactive] at hin
    cases hin
  · have hspawn : step modes s (.connect true) =
        s.spawn (.orphaning s.listActive s.listActive) := by
      simp only [step, connect]
      exact if_pos ⟨hactive, trivial⟩
    have hreport : (step modes s (.connect true)).Reporting s.spawned s.listActive
        s.listActive := by
      refine ⟨hafter, ?_, fun j hj => ?_, ?_, ?_⟩ <;> rw [hspawn]
      · exact update_self _ _ _
      · exact (update_of_ne hj _ _).trans (hquiet.tasks j)
      · exact hquiet.children
      · exact hleft
    obtain ⟨n, hallowed, hend⟩ := hreport.drain modes
    refine ⟨n, Run.allowed_cons hserial hallowed, ?_⟩
    rw [show (step modes s (.connect true)).started = s.started by rw [hspawn]; rfl] at hend
    exact hend

/-- In a run of serial steps the outcomes are lawful in every state. From a state in which nothing
is under way and no child runs, the next client that connects leaves every started subagent with
one outcome and without a record. -/
theorem outcomes_exactly_once {labels : List Label}
    (h : Run.Allowed Serial (step modes) {} labels) (before after : List Label)
    (hsplit : labels = before ++ after) :
    (Run.run (step modes) {} before).Lawful ∧
      ((Run.run (step modes) {} before).Quiet →
        let s := Run.run (step modes) {} before
        ∃ n, Run.Allowed Serial (step modes) s
            (.connect true :: List.replicate n (.advance s.spawned {})) ∧
          let s' := Run.run (step modes) s
            (.connect true :: List.replicate n (.advance s.spawned {}))
          s'.Lawful ∧ ∀ sub ∈ s.started,
            (s'.ended sub.subagentId).length = 1 ∧ s'.pending.get sub.subagentId = none) := by
  have hcoherent := Run.invariant_of_allowed (I := Coherent) coherent_initial
    (fun s label hs hserial => coherent_step hs modes hserial) h before after hsplit
  refine ⟨hcoherent.lawful, fun hquiet => ?_⟩
  obtain ⟨n, hallowed, hend, hquiet', hnone, hstarted⟩ :=
    hcoherent.connect_drain modes hquiet
  refine ⟨n, hallowed, hend.lawful, fun sub hsub => ?_⟩
  have hidle : Idle _ sub.subagentId := fun j task htask => by
    rw [hquiet'.tasks j] at htask
    cases htask
  rcases hend.lawful.settled sub (hstarted ▸ hsub) hidle (hquiet'.children _) with hone | hlost
  · refine ⟨hone, hend.lawful.cleared _ hidle fun hnil => ?_⟩
    rw [hnil] at hone
    cases hone
  · exact absurd hlost.1 (hnone _)

def explorer : Mode := ⟨"explorer", "Explorer", "Read-only search"⟩

/-- A subagent is started, lost, and its client comes back. -/
def lostRun : List Label :=
  [.start "explorer" "Find auth modules" none "child" "chat", .advance 0 {}, .hibernate]

theorem lostRun_serial : Run.Allowed Serial (step [explorer]) {} lostRun := by
  refine Run.allowed_cons trivial (Run.allowed_cons ?_ (Run.allowed_cons ?_
    (Run.allowed_nil _ _ _)))
  · exact serial_advance rfl (fun _ heq => by cases heq) {}
  · intro i task htask
    cases i <;> cases htask

theorem outcomes_exactly_once_lost :
    let s := Run.run (step [explorer]) {} lostRun
    ∃ n, ∀ sub ∈ s.started, ((Run.run (step [explorer]) s
      (.connect true :: List.replicate n (.advance s.spawned {}))).ended sub.subagentId).length
        = 1 := by
  have hquiet : (Run.run (step [explorer]) {} lostRun).Quiet :=
    ⟨fun _ => rfl, fun _ _ hchild => by cases hchild⟩
  obtain ⟨n, -, -, hended⟩ :=
    (outcomes_exactly_once _ lostRun_serial lostRun [] (append_nil _).symm).2 hquiet
  exact ⟨n, fun sub hsub => (hended sub hsub).1⟩

/-- A client connects while a child runs, and the child completes afterwards. -/
def reconnectedRun : List Label :=
  [.start "explorer" "Find auth modules" none "child" "chat", .advance 0 {}, .connect true,
    .advance 1 {}, .advance 1 {}, .advance 1 {}, .advance 1 {},
    .complete "child" { responseText := "Found 5", success := true },
    .advance 2 { streaming := true }]

/-- The subagent is reported as lost and then as completed. -/
theorem reconnected_ends_twice : ¬ ∀ labels, (Run.run (step [explorer]) {} labels).Lawful := by
  intro h
  have htwice : ((Run.run (step [explorer]) {} reconnectedRun).ended "child").length = 2 := by
    decide
  have honce := (h reconnectedRun).once "child"
  omega

end CrabbyKit.Subagent.Subagents
