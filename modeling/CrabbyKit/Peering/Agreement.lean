import CrabbyKit.Peering.Consent

/-!
# Requester and target agree

Every status in the hands of a request or of a callback is the one that the target has, and a
requester whose record differs is about to store it. A decision that overtakes a request, a lost
reply and a refused callback break this; the runs without them agree when nothing is left to do.
-/

namespace CrabbyKit.Peering

open Option

def Task.holds : Task → Option (String × String × PeerStatus)
  | .handshake self targetAgentId (.putting record) _ => some (self, targetAgentId, record.status)
  | .handshake self targetAgentId (.replying (.ok status)) true =>
    some (self, targetAgentId, status)
  | .storing self record => some (self, record.agentId, record.status)
  | .callback decision self agentId .arriving _ => some (agentId, self, decision.status)
  | .callback decision self agentId .reading _ => some (agentId, self, decision.status)
  | .callback decision self agentId (.putting _) _ => some (agentId, self, decision.status)
  | _ => none

/-- The requester and the target whose outbound record a request will store. -/
def Task.stores : Task → Option (String × String)
  | .handshake self targetAgentId (.putting _) true => some (self, targetAgentId)
  | .handshake self targetAgentId (.replying (.ok _)) true => some (self, targetAgentId)
  | .storing self record => some (self, record.agentId)
  | _ => none

/-- The requester and the target whose outbound record a callback will update, if there is one. -/
def Task.notifies : Task → Option (String × String)
  | .callback _ self agentId .arriving _ => some (agentId, self)
  | .callback _ self agentId .reading _ => some (agentId, self)
  | .callback _ self agentId (.putting _) _ => some (agentId, self)
  | _ => none

/-- A handshake that has found no record and puts one. -/
def Task.Puts : Task → Prop
  | .handshake _ _ (.putting _) _ => True
  | _ => False

/-- Neither a decision about to be put, nor a put for a request that was given up, nor a callback
to an agent without a name. -/
def Task.ordinary : Task → Bool
  | .decided _ _ _ _ => false
  | .handshake _ _ (.putting _) waiting => waiting
  | .callback _ self _ .arriving _ => self ≠ ""
  | _ => true

variable (options : String → PeeringOptions)

/-- A handler runs at the agent that the requester or the decision names, and nothing is revoked. -/
def Task.Addressed : Task → Prop
  | .handshake self targetAgentId .reading _ =>
    (options self).getAgentStub targetAgentId = targetAgentId
  | .handshake self targetAgentId (.putting _) _ =>
    (options self).getAgentStub targetAgentId = targetAgentId
  | .callback _ self agentId .reading _ => (options self).getAgentStub agentId = agentId
  | .callback _ self agentId (.putting _) _ => (options self).getAgentStub agentId = agentId
  | .revoking _ _ => False
  | .forgetting _ _ => False
  | _ => True

namespace System

variable (s : System)

def inboundStatus (requester target : String) : Option PeerStatus :=
  (s.getInboundPeer target requester).map PeerRecord.status

def outboundStatus (requester target : String) : Option PeerStatus :=
  (s.getOutboundPeer requester target).map PeerRecord.status

/-- A task will store the outbound record of a requester for a target. -/
def Delivers (task : Task) (requester target : String) : Prop :=
  task.stores = some (requester, target) ∨
    (task.notifies = some (requester, target) ∧ s.outboundStatus requester target ≠ none)

/-- A requester has a status for a target, or another task than one will store its record. -/
def SettledBut (i : Nat) (requester target : String) (status : Option PeerStatus) : Prop :=
  status = s.outboundStatus requester target ∨
    ∃ j task, j ≠ i ∧ s.tasks j = some task ∧ s.Delivers task requester target

/-- Every requester has the status that its target has for it. -/
def Agrees : Prop :=
  ∀ requester target, s.outboundStatus requester target = s.inboundStatus requester target

/-- Nothing is left to do. -/
def Idle : Prop := ∀ i, s.tasks i = none

/-- A step is ordered when nothing is revoked, a request names its target by the id that it signs
with, a decision changes the status of a peer only while no status of it is in flight, and a reply
or a callback that carries a status is lost, refused or given up, or a record put for a request
that was given up, only when the requester has this status or is about to store it. -/
def Ordered : Label → Prop
  | .revokePeer _ _ => False
  | .advance i answer =>
    (∀ self targetAgentId waiting,
      s.tasks i = some (.handshake self targetAgentId .arriving waiting) →
        (requestPayload options self targetAgentId).target =
          (options self).getAgentStub targetAgentId →
            (options self).getAgentStub targetAgentId = targetAgentId) ∧
    (∀ decision self agentId record, s.tasks i = some (.decided decision self agentId record) →
      s.inboundStatus agentId self ≠ some decision.status →
        ∀ j task status, s.tasks j = some task → task.holds ≠ some (agentId, self, status)) ∧
    (∀ self targetAgentId record,
      s.tasks i = some (.handshake self targetAgentId (.putting record) false) →
        s.SettledBut i self targetAgentId (some record.status)) ∧
    (∀ self targetAgentId status,
      s.tasks i = some (.handshake self targetAgentId (.replying (.ok status)) true) →
        answer.lost = true → s.SettledBut i self targetAgentId (some status)) ∧
    ∀ decision self agentId waiting,
      s.tasks i = some (.callback decision self agentId .arriving waiting) →
        (answer.lost = true ∨ self = "" ∨ (options self).getAgentStub agentId ≠ agentId ∨
          answer.expired = true) → s.SettledBut i agentId self (some decision.status)
  | .reject i =>
    (∀ self targetAgentId record,
      s.tasks i = some (.handshake self targetAgentId (.putting record) true) →
        s.SettledBut i self targetAgentId (s.inboundStatus self targetAgentId)) ∧
    ∀ self targetAgentId status,
      s.tasks i = some (.handshake self targetAgentId (.replying (.ok status)) true) →
        s.SettledBut i self targetAgentId (some status)
  | _ => True

/-- The invariant of ordered runs. -/
structure Coherent : Prop where
  keyed : s.Keyed options
  /-- A status in hand is the status of the target, unless it is still to be put there. -/
  held : ∀ i task requester target status, s.tasks i = some task →
    task.holds = some (requester, target, status) →
      s.inboundStatus requester target = some status ∨
        (s.inboundStatus requester target = none ∧ task.Puts)
  /-- A requester that has another status than its target is about to store it. -/
  settled : ∀ requester target,
    s.inboundStatus requester target = s.outboundStatus requester target ∨
    ∃ i task, s.tasks i = some task ∧ s.Delivers task requester target
  /-- A decision is about a peer that has a record. -/
  known : ∀ i decision self agentId record,
    s.tasks i = some (.decided decision self agentId record) →
    s.inboundStatus agentId self ≠ none
  addressed : ∀ i task, s.tasks i = some task → task.Addressed options

variable {options} {s} {s' : System} {i : Nat} {task : Task}

theorem inboundStatus_setInboundPeer (self : String) (record : PeerRecord)
    (requester target : String) :
    (s.setInboundPeer self record).inboundStatus requester target =
      if target = self ∧ requester = record.agentId then some record.status
      else s.inboundStatus requester target := by
  unfold inboundStatus
  rw [getInboundPeer_setInboundPeer]
  split_ifs <;> rfl

theorem outboundStatus_setOutboundPeer (self : String) (record : PeerRecord)
    (requester target : String) :
    (s.setOutboundPeer self record).outboundStatus requester target =
      if requester = self ∧ target = record.agentId then some record.status
      else s.outboundStatus requester target := by
  unfold outboundStatus
  rw [getOutboundPeer_setOutboundPeer]
  split_ifs <;> rfl

theorem outboundStatus_setInboundPeer (self : String) (record : PeerRecord)
    (requester target : String) :
    (s.setInboundPeer self record).outboundStatus requester target =
      s.outboundStatus requester target := by
  unfold outboundStatus
  rw [getOutboundPeer_setInboundPeer]

theorem inboundStatus_setOutboundPeer (self : String) (record : PeerRecord)
    (requester target : String) :
    (s.setOutboundPeer self record).inboundStatus requester target =
      s.inboundStatus requester target := by
  unfold inboundStatus
  rw [getInboundPeer_setOutboundPeer]

variable {requester target : String}

theorem holds_of_delivers (h : s.Delivers task requester target) :
    ∃ status, task.holds = some (requester, target, status) := by
  rcases h with hstores | ⟨hnotifies, -⟩
  · cases task with
    | handshake self targetAgentId phase waiting =>
      cases phase with
      | putting record =>
        cases waiting with
        | false => cases hstores
        | true =>
          cases hstores
          exact ⟨_, rfl⟩
      | replying response =>
        cases response with
        | error refusal => cases hstores
        | ok status =>
          cases waiting with
          | false => cases hstores
          | true =>
            cases hstores
            exact ⟨_, rfl⟩
      | _ => cases hstores
    | storing self record =>
      cases hstores
      exact ⟨_, rfl⟩
    | _ => cases hstores
  · cases task with
    | callback decision self agentId phase waiting =>
      cases phase with
      | replying response => cases hnotifies
      | _ =>
        cases hnotifies
        exact ⟨_, rfl⟩
    | _ => cases hnotifies

theorem not_delivers (hstores : task.stores = none) (hnotifies : task.notifies = none) : ¬
    s.Delivers task requester target := by
  rintro (h | ⟨h, -⟩)
  · cases hstores.symm.trans h
  · cases hnotifies.symm.trans h

variable {status : PeerStatus}

theorem Coherent.right (h : s.Coherent options) (htask : s.tasks i = some task)
    (hputs : ¬ task.Puts) (hholds : task.holds = some (requester, target, status)) :
    s.inboundStatus requester target = some status :=
  (h.held i _ _ _ _ htask hholds).resolve_right fun hnone => hputs hnone.2

variable {next : Option Task}

theorem Coherent.go (h : s.Coherent options) (hkeyed : s'.Keyed options)
    (htasks : s'.tasks = Function.update s.tasks i next)
    (hothers : ∀ j t requester target status, j ≠ i → s.tasks j = some t →
      t.holds = some (requester, target, status) →
        s'.inboundStatus requester target = s.inboundStatus requester target ∨
          s'.inboundStatus requester target = some status)
    (hheld : ∀ t requester target status, next = some t →
      t.holds = some (requester, target, status) →
        s'.inboundStatus requester target = some status ∨
          (s'.inboundStatus requester target = none ∧ t.Puts))
    (hsettled : ∀ requester target,
      s'.SettledBut i requester target (s'.inboundStatus requester target) ∨
        ∃ t, next = some t ∧ s'.Delivers t requester target)
    (hknown : ∀ requester target, s.inboundStatus requester target ≠ none →
      s'.inboundStatus requester target ≠ none)
    (hdecided : ∀ decision self agentId record,
      next = some (.decided decision self agentId record) →
      s'.inboundStatus agentId self ≠ none)
    (haddressed : ∀ t, next = some t → t.Addressed options) : s'.Coherent options := by
  refine ⟨hkeyed, fun j t requester target status ht hholds => ?_, fun requester target => ?_,
    fun j decision self agentId record ht => ?_, fun j t ht => ?_⟩
  · rw [htasks] at ht
    rcases Table.update_eq_some ht with ⟨-, hnext⟩ | ⟨hj, hold⟩
    · exact hheld t requester target status hnext hholds
    · rcases hothers j t requester target status hj hold hholds with hsame | hright
      · rw [hsame]
        exact h.held j t requester target status hold hholds
      · exact .inl hright
  · rcases hsettled requester target with (heq | ⟨j, t, -, ht, hdelivers⟩) | ⟨t, hnext, hdelivers⟩
    · exact .inl heq
    · exact .inr ⟨j, t, ht, hdelivers⟩
    · exact .inr ⟨i, t, by rw [htasks]; exact (Function.update_self _ _ _).trans hnext, hdelivers⟩
  · rw [htasks] at ht
    rcases Table.update_eq_some ht with ⟨-, hnext⟩ | ⟨-, hold⟩
    · exact hdecided decision self agentId record hnext
    · exact hknown _ _ (h.known j decision self agentId record hold)
  · rw [htasks] at ht
    rcases Table.update_eq_some ht with ⟨-, hnext⟩ | ⟨-, hold⟩
    · exact haddressed t hnext
    · exact h.addressed j t hold

theorem SettledBut.transfer {status : Option PeerStatus}
    (htasks : s'.tasks = Function.update s.tasks i next)
    (hout : s'.outboundStatus requester target = s.outboundStatus requester target)
    (h : s.SettledBut i requester target status) : s'.SettledBut i requester target status := by
  rcases h with heq | ⟨j, t, hj, ht, hdelivers⟩
  · exact .inl (heq.trans hout.symm)
  · refine .inr ⟨j, t, hj, ?_, ?_⟩
    · rw [htasks]
      exact (Function.update_of_ne hj _ _).trans ht
    · rcases hdelivers with hstores | ⟨hnotifies, hsome⟩
      · exact .inl hstores
      · exact .inr ⟨hnotifies, by rwa [hout]⟩

theorem Coherent.settledBut (h : s.Coherent options) (htask : s.tasks i = some task)
    (hnot : ¬ s.Delivers task requester target) :
    s.SettledBut i requester target (s.inboundStatus requester target) := by
  rcases h.settled requester target with heq | ⟨j, t, ht, hdelivers⟩
  · exact .inl heq
  · refine .inr ⟨j, t, ?_, ht, hdelivers⟩
    rintro rfl
    obtain rfl := Option.some.inj (ht.symm.trans htask)
    exact hnot hdelivers

theorem Coherent.emit (h : s.Coherent options) (event : Event) : (s.emit event).Coherent options :=
  ⟨h.keyed.emit event, h.held, h.settled, h.known, h.addressed⟩

theorem Coherent.failRequest (h : s.Coherent options) (self targetAgentId error : String)
    (waiting : Bool) : (s.failRequest self targetAgentId error waiting).Coherent options := by
  unfold System.failRequest
  split_ifs
  · exact h.emit _
  · exact h

theorem Coherent.endDecision (h : s.Coherent options) (decision : Decision)
    (self agentId : String) (waiting : Bool) :
    (s.endDecision decision self agentId waiting).Coherent options := by
  unfold System.endDecision
  split_ifs
  · exact h.emit _
  · exact h

theorem Coherent.update (h : s.Coherent options) (htask : s.tasks i = some task)
    (hkeyed : ∀ t, next = some t → t.Keyed options)
    (hheld : ∀ t requester target status, next = some t →
      t.holds = some (requester, target, status) →
        s.inboundStatus requester target = some status ∨
          (s.inboundStatus requester target = none ∧ t.Puts))
    (hkept : ∀ requester target, s.Delivers task requester target →
      (∃ t, next = some t ∧ s.Delivers t requester target) ∨
        s.SettledBut i requester target (s.inboundStatus requester target))
    (hdecided : ∀ decision self agentId record,
      next = some (.decided decision self agentId record) →
      s.inboundStatus agentId self ≠ none) (haddressed : ∀ t, next = some t → t.Addressed options) :
    Coherent options { s with tasks := Function.update s.tasks i next } := by
  refine h.go (h.keyed.update htask hkeyed) rfl (fun _ _ _ _ _ _ _ _ => .inl rfl) hheld
    (fun requester target => ?_) (fun _ _ => id) hdecided haddressed
  by_cases hdelivers : s.Delivers task requester target
  · rcases hkept requester target hdelivers with hnext | hbut
    · exact .inr hnext
    · exact .inl (hbut.transfer rfl rfl)
  · exact .inl ((h.settledBut htask hdelivers).transfer rfl rfl)

theorem Coherent.goOn (h : s.Coherent options) (htask : s.tasks i = some task) {next : Task}
    (hkeyed : next.Keyed options)
    (hheld : ∀ requester target status, next.holds = some (requester, target, status) →
      s.inboundStatus requester target = some status ∨
        (s.inboundStatus requester target = none ∧ next.Puts))
    (hkept : ∀ requester target, s.Delivers task requester target →
      s.Delivers next requester target ∨
        s.SettledBut i requester target (s.inboundStatus requester target))
    (hdecided : ∀ decision self agentId record, next = .decided decision self agentId record →
      s.inboundStatus agentId self ≠ none)
    (haddressed : next.Addressed options) : (s.goOn i next).Coherent options := by
  refine h.update htask (fun t ht => ?_) (fun t requester target status ht hholds => ?_)
    (fun requester target hdelivers => ?_) (fun decision self agentId record ht => ?_)
    fun t ht => ?_
  · cases ht
    exact hkeyed
  · cases ht
    exact hheld requester target status hholds
  · rcases hkept requester target hdelivers with hnext | hbut
    · exact .inl ⟨next, rfl, hnext⟩
    · exact .inr hbut
  · exact hdecided decision self agentId record (Option.some.inj ht)
  · cases ht
    exact haddressed

theorem Coherent.finish (h : s.Coherent options) (htask : s.tasks i = some task)
    (hkept : ∀ requester target, s.Delivers task requester target →
      s.SettledBut i requester target (s.inboundStatus requester target)) :
    (s.finish i).Coherent options :=
  h.update htask (fun _ ht => (some_ne_none _ ht.symm).elim)
    (fun _ _ _ _ ht => (some_ne_none _ ht.symm).elim)
    (fun requester target hdelivers => .inr (hkept requester target hdelivers))
    (fun _ _ _ _ ht => (some_ne_none _ ht.symm).elim)
    fun _ ht => (some_ne_none _ ht.symm).elim

theorem Coherent.goSilent (h : s.Coherent options) (htask : s.tasks i = some task) {next : Task}
    (hkeyed : next.Keyed options) (hholds : next.holds = none)
    (hkept : ∀ requester target, s.Delivers task requester target →
      s.SettledBut i requester target (s.inboundStatus requester target))
    (hdecided : ∀ decision self agentId record, next = .decided decision self agentId record →
      s.inboundStatus agentId self ≠ none)
    (haddressed : next.Addressed options) : (s.goOn i next).Coherent options :=
  h.goOn htask hkeyed (fun _ _ _ hheld => by cases hholds.symm.trans hheld)
    (fun requester target hdelivers => .inr (hkept requester target hdelivers)) hdecided haddressed

theorem Coherent.spawn (h : s.Coherent options) {next : Task} (hkeyed : next.Keyed options)
    (hholds : next.holds = none)
    (hdecided : ∀ decision self agentId record, next ≠ .decided decision self agentId record)
    (haddressed : next.Addressed options) : (s.spawn next).Coherent options := by
  have hfree : s.tasks s.started = none := h.keyed.free s.started le_rfl
  refine ⟨h.keyed.spawn hkeyed, fun j t requester target status ht hheld => ?_,
    fun requester target => ?_, fun j decision self agentId record ht => ?_, fun j t ht => ?_⟩
  · rcases Table.update_eq_some ht with ⟨-, hnext⟩ | ⟨-, hold⟩
    · cases hnext
      cases hholds.symm.trans hheld
    · exact h.held j t requester target status hold hheld
  · rcases h.settled requester target with heq | ⟨j, t, ht, hdelivers⟩
    · exact .inl heq
    · refine .inr ⟨j, t, ?_, hdelivers⟩
      exact Table.update_of_taken hfree ht
  · rcases Table.update_eq_some ht with ⟨-, hnext⟩ | ⟨-, hold⟩
    · exact absurd (Option.some.inj hnext) (hdecided decision self agentId record)
    · exact h.known j decision self agentId record hold
  · rcases Table.update_eq_some ht with ⟨-, hnext⟩ | ⟨-, hold⟩
    · cases hnext
      exact haddressed
    · exact h.addressed j t hold

variable {self : String}

variable {record : PeerRecord}

theorem Coherent.putOutbound (h : s.Coherent options) (htask : s.tasks i = some task)
    (hright : s.inboundStatus self record.agentId = some record.status)
    (honly : ∀ requester target, s.Delivers task requester target →
      requester = self ∧ target = record.agentId) (hkeyed : ∀ t, next = some t → t.Keyed options)
    (hholds : ∀ t, next = some t → t.holds = none)
    (hdecided : ∀ decision self agentId record, next ≠ some (.decided decision self agentId record))
    (haddressed : ∀ t, next = some t → t.Addressed options) :
    Coherent options
      { s.setOutboundPeer self record with tasks := Function.update s.tasks i next } := by
  have hin : ∀ requester target, (s.setOutboundPeer self record).inboundStatus requester target =
      s.inboundStatus requester target := inboundStatus_setOutboundPeer self record
  have hout := outboundStatus_setOutboundPeer (s := s) self record
  refine h.go ((h.keyed.setOutboundPeer self record).update htask hkeyed) rfl
    (fun j t requester target status _ _ _ => .inl (hin requester target))
    (fun t requester target status ht hheld => ?_) (fun requester target => ?_)
    (fun requester target hsome => ?_) (fun decision self agentId record ht => ?_) haddressed
  · cases (hholds t ht).symm.trans hheld
  · refine .inl ?_
    by_cases hpair : requester = self ∧ target = record.agentId
    · obtain ⟨rfl, rfl⟩ := hpair
      exact .inl ((hin _ _).trans (hright.trans ((hout _ _).trans (if_pos ⟨rfl, rfl⟩)).symm))
    · have hsame : (s.setOutboundPeer self record).outboundStatus requester target =
          s.outboundStatus requester target := (hout requester target).trans (if_neg hpair)
      have hbut := h.settledBut htask fun hdelivers => hpair (honly requester target hdelivers)
      rw [← hin requester target] at hbut
      exact hbut.transfer rfl hsame
  · exact fun hnone => hsome ((hin requester target).symm.trans hnone)
  · exact absurd ht (hdecided decision self agentId record)

theorem Coherent.putInbound (h : s.Coherent options) (htask : s.tasks i = some task)
    (hid : record.agentId ≠ "")
    (hothers : ∀ j t status, j ≠ i → s.tasks j = some t →
      t.holds = some (record.agentId, self, status) → status = record.status)
    (honly : ∀ requester target, s.Delivers task requester target →
      target = self ∧ requester = record.agentId)
    {next : Task} (hkeyed : next.Keyed options)
    (hheld : ∀ requester target status, next.holds = some (requester, target, status) →
      target = self ∧ requester = record.agentId ∧ status = record.status)
    (hpair : s.SettledBut i record.agentId self (some record.status) ∨
      s.Delivers next record.agentId self)
    (hdecided : ∀ decision self agentId record, next ≠ .decided decision self agentId record)
    (haddressed : next.Addressed options) :
    ((s.setInboundPeer self record).goOn i next).Coherent options := by
  have hin := inboundStatus_setInboundPeer (s := s) self record
  have hout : ∀ requester target, (s.setInboundPeer self record).outboundStatus requester target =
      s.outboundStatus requester target := outboundStatus_setInboundPeer self record
  have hself : (s.setInboundPeer self record).inboundStatus record.agentId self =
      some record.status := (hin _ _).trans (if_pos ⟨rfl, rfl⟩)
  refine h.go ((h.keyed.setInboundPeer self hid).goOn htask hkeyed) rfl
    (fun j t requester target status hj ht hholds => ?_)
    (fun t requester target status ht hholds => ?_) (fun requester target => ?_)
    (fun requester target hsome => ?_) (fun decision self agentId record ht => ?_) fun t ht => ?_
  · by_cases hkey : target = self ∧ requester = record.agentId
    · obtain ⟨rfl, rfl⟩ := hkey
      rw [hothers j t status hj ht hholds]
      exact .inr hself
    · exact .inl ((hin _ _).trans (if_neg hkey))
  · cases ht
    obtain ⟨rfl, rfl, rfl⟩ := hheld requester target status hholds
    exact .inl hself
  · by_cases hkey : target = self ∧ requester = record.agentId
    · obtain ⟨rfl, rfl⟩ := hkey
      rcases hpair with hbut | hdelivers
      · rw [← hself] at hbut
        exact .inl (SettledBut.transfer (s := s) rfl (hout _ _) hbut)
      · refine .inr ⟨next, rfl, ?_⟩
        rcases hdelivers with hstores | ⟨hnotifies, hsome⟩
        · exact .inl hstores
        · exact .inr ⟨hnotifies, fun hnone => hsome ((hout _ _).symm.trans hnone)⟩
    · have hsame : (s.setInboundPeer self record).inboundStatus requester target =
          s.inboundStatus requester target := (hin _ _).trans (if_neg hkey)
      have hbut := h.settledBut htask fun hdelivers => hkey (honly requester target hdelivers)
      rw [← hsame] at hbut
      exact .inl (SettledBut.transfer (s := s) rfl (hout _ _) hbut)
  · by_cases hkey : target = self ∧ requester = record.agentId
    · obtain ⟨rfl, rfl⟩ := hkey
      exact fun hnone => some_ne_none _ (hself.symm.trans hnone)
    · exact fun hnone => hsome (((hin _ _).trans (if_neg hkey)).symm.trans hnone)
  · exact absurd (Option.some.inj ht) (hdecided decision self agentId record)
  · cases ht
    exact haddressed

theorem status_of_puts (h : s.Coherent options) (hputs : task.Puts) (htask : s.tasks i = some task)
    (hholds : task.holds = some (requester, target, status)) :
    status = statusFromPolicy (resolvePolicy (options target)) := by
  have hkeyed := h.keyed.task i _ htask
  have haddressed := h.addressed i _ htask
  cases task with
  | handshake self targetAgentId phase waiting =>
    cases phase with
    | putting record =>
      cases hholds
      have htarget : (options requester).getAgentStub target = target := haddressed
      have hstatus := hkeyed.2.2
      rwa [htarget] at hstatus
    | _ => exact hputs.elim
  | _ => exact hputs.elim

variable {waiting : Bool} {answer : HostAnswer}

variable {targetAgentId : String} {phase : Phase (Except HttpError PeerStatus)}

theorem Coherent.handshakeHandler (h : s.Coherent options)
    (htask : s.tasks i = some (.handshake self targetAgentId phase waiting))
    (hordered : s.Ordered options (.advance i answer)) :
    (s.handshakeHandler options i answer self targetAgentId waiting phase).Coherent options := by
  have hkeyed := h.keyed.task i _ htask
  have haddressed := h.addressed i _ htask
  obtain ⟨hname, -, hput, hlost, -⟩ := hordered
  cases phase with
  | arriving =>
    have hkept : ∀ requester target,
        s.Delivers (.handshake self targetAgentId .arriving waiting) requester target →
          s.SettledBut i requester target (s.inboundStatus requester target) :=
      fun _ _ hdelivers => absurd hdelivers (not_delivers rfl rfl)
    simp only [System.handshakeHandler]
    split_ifs
    · exact Coherent.failRequest (h.finish htask hkept) _ _ _ _
    · split
      · refine h.goSilent htask trivial ?_ hkept (by rintro _ _ _ _ ⟨⟩) trivial
        cases waiting <;> rfl
      · next sender hok =>
        obtain ⟨hsender, htarget⟩ := authenticate_ok hok
        exact h.goSilent htask hsender rfl hkept (by rintro _ _ _ _ ⟨⟩)
          (hname self targetAgentId waiting htask htarget)
  | reading =>
    have htarget : (options self).getAgentStub targetAgentId = targetAgentId := haddressed
    simp only [System.handshakeHandler, htarget]
    split
    · next existing hget =>
      refine h.goOn htask trivial (fun requester target status hholds => ?_)
        (fun _ _ hdelivers => absurd hdelivers (not_delivers rfl rfl))
        (by rintro _ _ _ _ ⟨⟩) trivial
      cases waiting with
      | false => cases hholds
      | true =>
        cases hholds
        exact .inl (congrArg (Option.map PeerRecord.status) hget)
    · next hget =>
      refine h.goOn htask ⟨hkeyed, rfl, by rw [htarget]⟩ (fun requester target status hholds => ?_)
        (fun _ _ hdelivers => absurd hdelivers (not_delivers rfl rfl))
        (by rintro _ _ _ _ ⟨⟩) htarget
      cases hholds
      exact .inr ⟨congrArg (Option.map PeerRecord.status) hget, trivial⟩
  | putting record =>
    obtain ⟨hself, hid, hstatus⟩ := hkeyed
    have htarget : (options self).getAgentStub targetAgentId = targetAgentId := haddressed
    have hmine := h.held i _ self targetAgentId record.status htask rfl
    rw [htarget] at hstatus
    have hnext : ((s.setInboundPeer targetAgentId record).goOn i
        (.handshake self targetAgentId (.replying (.ok record.status)) waiting)).Coherent
          options := by
      refine h.putInbound htask (hid ▸ hself : record.agentId ≠ "")
        (fun j t status hj ht hholds => ?_) (fun requester target hdelivers => ?_) trivial
        (fun requester target status hholds => ?_) ?_ (by rintro _ _ _ _ ⟨⟩) trivial
      · rw [hid] at hholds
        rcases h.held j t _ _ status ht hholds with hright | ⟨hnone, hputs⟩
        · rcases hmine with hmine | ⟨hnone, -⟩
          · exact Option.some.inj (hright.symm.trans hmine)
          · cases hnone.symm.trans hright
        · -- Two handshakes that found no record put the status of one policy.
          exact (status_of_puts h hputs ht hholds).trans hstatus.symm
      · rcases hdelivers with hstores | ⟨hnotifies, -⟩
        · cases waiting with
          | false => cases hstores
          | true =>
            cases hstores
            exact ⟨rfl, hid.symm⟩
        · cases hnotifies
      · cases waiting with
        | false => cases hholds
        | true =>
          cases hholds
          exact ⟨rfl, hid.symm, rfl⟩
      · rw [hid]
        cases waiting with
        | false => exact .inl (hput self targetAgentId record htask)
        | true => exact .inr (.inl rfl)
    simp only [System.handshakeHandler, htarget]
    split_ifs
    · exact hnext.emit _
    · exact hnext
  | replying response =>
    have hkept : ∀ requester target,
        s.Delivers (.handshake self targetAgentId (.replying response) waiting) requester target →
          ∃ status, response = .ok status ∧ waiting = true ∧ requester = self ∧
            target = targetAgentId := by
      rintro requester target (hstores | ⟨hnotifies, -⟩)
      · cases response with
        | error refusal => cases hstores
        | ok status =>
          cases waiting with
          | false => cases hstores
          | true =>
            cases hstores
            exact ⟨status, rfl, rfl, rfl, rfl⟩
      · cases hnotifies
    simp only [System.handshakeHandler]
    split_ifs with hover
    · refine Coherent.failRequest (h.finish htask fun requester target hdelivers => ?_) _ _ _ _
      obtain ⟨status, rfl, rfl, rfl, rfl⟩ := hkept requester target hdelivers
      rw [Bool.not_true, Bool.or_false] at hover
      rw [h.right htask id rfl]
      exact hlost requester target status htask hover
    · cases response with
      | ok status =>
        refine h.goOn htask trivial (fun requester target status' hholds => ?_)
          (fun requester target hdelivers => ?_) (by rintro _ _ _ _ ⟨⟩) trivial
        · cases hholds
          have hwaiting : waiting = true := by
            cases waiting with
            | false => exact absurd (Bool.or_true _) hover
            | true => rfl
          subst hwaiting
          exact .inl (h.right htask id rfl)
        · obtain ⟨-, -, -, rfl, rfl⟩ := hkept requester target hdelivers
          exact .inl (.inl rfl)
      | error refusal =>
        refine Coherent.failRequest (h.finish htask fun requester target hdelivers => ?_) _ _ _ _
        obtain ⟨status, hresponse, -⟩ := hkept requester target hdelivers
        cases hresponse

variable {agentId : String}

theorem refused_of_error {payload : InterAgentPayload} {expired : Bool}
    {refusal : HttpError} (h : authenticate agentId payload expired = .error refusal) :
    payload.sender = "" ∨ agentId ≠ payload.target ∨ expired = true := by
  unfold authenticate at h
  split_ifs at h with hsender htarget
  · exact .inl hsender
  · exact .inr (htarget.imp Ne.symm id)

variable {decision : Decision}

theorem Coherent.handshakeCallbackHandler (h : s.Coherent options)
    {phase : Phase (Except HttpError Unit)}
    (htask : s.tasks i = some (.callback decision self agentId phase waiting))
    (hordered : s.Ordered options (.advance i answer)) :
    (s.handshakeCallbackHandler options i answer decision self agentId waiting phase).Coherent
      options := by
  have hkeyed := h.keyed.task i _ htask
  have haddressed := h.addressed i _ htask
  obtain ⟨-, -, -, -, hrefused⟩ := hordered
  cases phase with
  | arriving =>
    have hin : s.inboundStatus agentId self = some decision.status := h.right htask id rfl
    have hpair : ∀ requester target,
        s.Delivers (.callback decision self agentId .arriving waiting) requester target →
          requester = agentId ∧ target = self := by
      rintro requester target (hstores | ⟨hnotifies, -⟩)
      · cases hstores
      · cases hnotifies
        exact ⟨rfl, rfl⟩
    simp only [System.handshakeCallbackHandler]
    split_ifs with hlost
    · refine Coherent.endDecision (h.finish htask fun requester target hdelivers => ?_) _ _ _ _
      obtain ⟨rfl, rfl⟩ := hpair requester target hdelivers
      rw [hin]
      exact hrefused decision _ _ waiting htask (.inl hlost)
    · split
      · next refusal herror =>
        refine h.goSilent htask trivial rfl (fun requester target hdelivers => ?_)
          (by rintro _ _ _ _ ⟨⟩) trivial
        obtain ⟨rfl, rfl⟩ := hpair requester target hdelivers
        rw [hin]
        exact hrefused decision _ _ waiting htask (.inr (refused_of_error herror))
      · next sender hok =>
        refine h.goOn htask trivial (fun _ _ _ hholds => ?_)
          (fun requester target hdelivers => .inl ?_) (by rintro _ _ _ _ ⟨⟩)
          (authenticate_ok hok).2.symm
        · cases hholds
          exact .inl hin
        · rcases hdelivers with hstores | hnotifies
          · cases hstores
          · exact .inr hnotifies
  | reading =>
    have hin : s.inboundStatus agentId self = some decision.status := h.right htask id rfl
    have htarget : (options self).getAgentStub agentId = agentId := haddressed
    simp only [System.handshakeCallbackHandler, htarget]
    split
    · next hget =>
      have hnone : s.outboundStatus agentId self = none :=
        congrArg (Option.map PeerRecord.status) hget
      refine h.goSilent htask trivial rfl (fun requester target hdelivers => ?_)
        (by rintro _ _ _ _ ⟨⟩) trivial
      rcases hdelivers with hstores | ⟨hnotifies, hsome⟩
      · cases hstores
      · cases hnotifies
        exact absurd hnone hsome
    · next existing hget =>
      refine h.goOn htask ⟨h.keyed.outbound _ _ existing hget, rfl⟩ (fun _ _ _ hholds => ?_)
        (fun requester target hdelivers => .inl ?_) (by rintro _ _ _ _ ⟨⟩) htarget
      · cases hholds
        exact .inl hin
      · rcases hdelivers with hstores | hnotifies
        · cases hstores
        · exact .inr hnotifies
  | putting record =>
    have hin : s.inboundStatus agentId self = some decision.status := h.right htask id rfl
    have htarget : (options self).getAgentStub agentId = agentId := haddressed
    obtain ⟨hid, hstatus⟩ := hkeyed
    simp only [System.handshakeCallbackHandler, htarget]
    refine h.putOutbound htask (by rw [hid, hstatus, hin])
      (fun requester target hdelivers => ?_) (by rintro _ ⟨⟩; trivial) (by rintro _ ⟨⟩; rfl)
      (by rintro _ _ _ _ ⟨⟩) (by rintro _ ⟨⟩; trivial)
    rw [hid]
    rcases hdelivers with hstores | ⟨hnotifies, -⟩
    · cases hstores
    · cases hnotifies
      exact ⟨rfl, rfl⟩
  | replying response =>
    exact Coherent.endDecision (h.finish htask fun requester target hdelivers =>
      absurd hdelivers (not_delivers rfl rfl)) _ _ _ _

theorem Coherent.putDecision (h : s.Coherent options)
    (htask : s.tasks i = some (.decided decision self agentId record))
    (hfree : s.inboundStatus agentId self ≠ some decision.status →
      ∀ j task status, s.tasks j = some task → task.holds ≠ some (agentId, self, status)) :
    ((s.setInboundPeer self record).goOn i
      (.callback decision self agentId .arriving true)).Coherent options := by
  obtain ⟨hne, hid, hstatus⟩ := h.keyed.task i _ htask
  refine h.putInbound htask (hid ▸ hne : record.agentId ≠ "") (fun j t status _ ht hholds => ?_)
    (fun _ _ hdelivers => absurd hdelivers (not_delivers rfl rfl)) trivial
    (fun requester target status hholds => ?_) ?_ (by rintro _ _ _ _ ⟨⟩) trivial
  · rw [hid] at hholds
    rw [hstatus]
    by_cases hsame : s.inboundStatus agentId self = some decision.status
    · rcases h.held j t _ _ status ht hholds with hright | ⟨hnone, -⟩
      · exact Option.some.inj (hright.symm.trans hsame)
      · cases hnone.symm.trans hsame
    · exact absurd hholds (hfree hsame j t status ht)
  · cases hholds
    exact ⟨rfl, hid.symm, hstatus.symm⟩
  · rw [hid, hstatus]
    by_cases hsame : s.inboundStatus agentId self = some decision.status
    · rw [← hsame]
      exact .inl (h.settledBut htask (not_delivers rfl rfl))
    · refine .inr (.inr ⟨rfl, fun hnone => ?_⟩)
      -- Nothing is in flight, so the requester had the old status.
      rcases h.settled agentId self with heq | ⟨j, t, ht, hdelivers⟩
      · exact h.known i _ _ _ _ htask (heq.trans hnone)
      · obtain ⟨status, hholds⟩ := holds_of_delivers hdelivers
        exact hfree hsame j t status ht hholds

theorem Coherent.advance (h : s.Coherent options) (htask : s.tasks i = some task)
    (hordered : s.Ordered options (.advance i answer)) :
    (s.advance options i answer task).Coherent options := by
  cases task with
  | handshake self targetAgentId phase waiting => exact h.handshakeHandler htask hordered
  | storing self record =>
    refine Coherent.emit (h.putOutbound htask (h.right htask id rfl)
      (fun requester target hdelivers => ?_) (by rintro _ ⟨⟩) (by rintro _ ⟨⟩)
      (by rintro _ _ _ _ ⟨⟩) (by rintro _ ⟨⟩)) _
    rcases hdelivers with hstores | ⟨hnotifies, -⟩
    · cases hstores
      exact ⟨rfl, rfl⟩
    · cases hnotifies
  | deciding decision self agentId =>
    simp only [System.advance]
    split
    · exact Coherent.emit (h.finish htask fun _ _ hdelivers =>
        absurd hdelivers (not_delivers rfl rfl)) _
    · next existing hget =>
      obtain ⟨hid, hne⟩ := h.keyed.inbound _ _ existing hget
      refine h.goSilent htask ⟨hne, hid, rfl⟩ rfl
        (fun _ _ hdelivers => absurd hdelivers (not_delivers rfl rfl))
        (fun _ _ _ _ ht hnone => ?_) trivial
      cases ht
      cases (congrArg (Option.map PeerRecord.status) hget).symm.trans hnone
  | decided decision self agentId record =>
    exact h.putDecision htask (hordered.2.1 decision self agentId record htask)
  | callback decision self agentId phase waiting => exact h.handshakeCallbackHandler htask hordered
  | revoking self agentId => exact (h.addressed i _ htask).elim
  | forgetting self agentId => exact (h.addressed i _ htask).elim

theorem Coherent.rejectHandshake (h : s.Coherent options)
    (htask : s.tasks i = some (.handshake self targetAgentId phase waiting))
    (hordered : s.Ordered options (.reject i)) :
    (s.goOn i (.handshake self targetAgentId phase false)).Coherent options := by
  have hkeyed := h.keyed.task i _ htask
  have haddressed := h.addressed i _ htask
  refine h.goOn htask ?_ (fun requester target status hholds => ?_)
    (fun requester target hdelivers => .inr ?_) (by rintro _ _ _ _ ⟨⟩) ?_
  · cases phase with
    | reading => exact hkeyed
    | putting record => exact hkeyed
    | _ => trivial
  · cases phase with
    | putting record =>
      rcases h.held i _ requester target status htask hholds with hright | ⟨hnone, -⟩
      · exact .inl hright
      · exact .inr ⟨hnone, trivial⟩
    | replying response => cases response <;> cases hholds
    | _ => cases hholds
  · rcases hdelivers with hstores | ⟨hnotifies, -⟩
    · cases phase with
      | putting record =>
        cases waiting with
        | false => cases hstores
        | true =>
          cases hstores
          exact hordered.1 _ _ record htask
      | replying response =>
        cases response with
        | error refusal => cases hstores
        | ok status =>
          cases waiting with
          | false => cases hstores
          | true =>
            cases hstores
            rw [h.right htask id rfl]
            exact hordered.2 _ _ status htask
      | _ => cases hstores
    · cases hnotifies
  · cases phase with
    | reading => exact haddressed
    | putting record => exact haddressed
    | _ => trivial

theorem Coherent.rejectCallback (h : s.Coherent options) {phase : Phase (Except HttpError Unit)}
    (htask : s.tasks i = some (.callback decision self agentId phase waiting)) :
    (s.goOn i (.callback decision self agentId phase false)).Coherent options := by
  have hkeyed := h.keyed.task i _ htask
  have haddressed := h.addressed i _ htask
  refine h.goOn htask ?_ (fun requester target status hholds => ?_)
    (fun requester target hdelivers => .inl ?_) (by rintro _ _ _ _ ⟨⟩) ?_
  · cases phase with
    | putting record => exact hkeyed
    | _ => trivial
  · cases phase with
    | replying response => cases hholds
    | _ => exact .inl (h.right htask id hholds)
  · rcases hdelivers with hstores | hnotifies
    · cases hstores
    · refine .inr ?_
      cases phase with
      | replying response => cases hnotifies.1
      | _ => exact hnotifies
  · cases phase with
    | reading => exact haddressed
    | putting record => exact haddressed
    | _ => trivial

theorem Coherent.step (h : s.Coherent options) {label : Label}
    (hordered : s.Ordered options label) : (s.step options label).Coherent options := by
  have hdecision : ∀ decision self agentId,
      (s.handshakeDecision decision self agentId).Coherent options := by
    intro decision self agentId
    unfold System.handshakeDecision
    split_ifs
    · exact (h.emit _).emit _
    · exact (h.emit _).spawn trivial rfl (by rintro _ _ _ _ ⟨⟩) trivial
  cases label with
  | requestPeer self targetAgentId =>
    exact h.spawn trivial rfl (by rintro _ _ _ _ ⟨⟩) trivial
  | approve self agentId => exact hdecision .approve self agentId
  | deny self agentId => exact hdecision .deny self agentId
  | revokePeer self agentId => exact hordered.elim
  | advance i answer =>
    simp only [System.step]
    split
    · next task htask => exact h.advance htask hordered
    · exact h
  | reject i =>
    simp only [System.step]
    split
    · next task htask =>
      cases task with
      | handshake self targetAgentId phase waiting =>
        exact (h.rejectHandshake htask hordered).failRequest _ _ _ _
      | callback decision self agentId phase waiting =>
        exact (h.rejectCallback htask).endDecision _ _ _ _
      | _ => exact h
    · exact h

theorem coherent_initial : Coherent options {} :=
  ⟨keyed_initial, fun _ _ _ _ _ h => (some_ne_none _ h.symm).elim, fun _ _ => .inl rfl,
    fun _ _ _ _ _ h => (some_ne_none _ h.symm).elim,
    fun _ _ h => (some_ne_none _ h.symm).elim⟩

theorem Coherent.agrees (h : s.Coherent options) (hidle : s.Idle) : s.Agrees := by
  intro requester target
  rcases h.settled requester target with heq | ⟨i, task, htask, -⟩
  · exact heq.symm
  · cases (hidle i).symm.trans htask

/-- What is promised of a run: consent in all its states and, when nothing is revoked, agreement
in those where nothing is left to do. -/
def Lawful (options : String → PeeringOptions) (labels : List Label) : Prop :=
  (∀ before after, labels = before ++ after →
    (Run.run (step options) {} before).KeepsConsent options) ∧
  ((∀ self agentId, .revokePeer self agentId ∉ labels) →
    ∀ before after, labels = before ++ after → (Run.run (step options) {} before).Idle →
      (Run.run (step options) {} before).Agrees)

/-- Consent is kept in runs whose steps are in turn, agreement is reached in runs whose steps are
ordered. -/
theorem consent_and_agreement (options : String → PeeringOptions) (labels : List Label) :
    (Run.Allowed (InTurn options) (step options) {} labels →
      ∀ before after, labels = before ++ after →
        (Run.run (step options) {} before).KeepsConsent options) ∧
    (Run.Allowed (Ordered options) (step options) {} labels →
      ∀ before after, labels = before ++ after → (Run.run (step options) {} before).Idle →
        (Run.run (step options) {} before).Agrees) := by
  constructor
  · intro hturn before after hsplit
    refine (Run.invariant_of_allowed (I := fun s => s.Keyed options ∧ s.KeepsConsent options)
      ⟨keyed_initial, keepsConsent_initial⟩ (fun s label hs hlabel => ?_) hturn before after
      hsplit).2
    exact ⟨hs.1.step label, hs.2.step hs.1 hlabel⟩
  · intro hordered before after hsplit
    exact (Run.invariant_of_allowed (I := Coherent options) coherent_initial
      (fun s label hs hlabel => hs.step hlabel) hordered before after hsplit).agrees

def askUser : String → PeeringOptions := fun _ => { sameOwnerPolicy := some .userApproval }

/-- "a" asks "b", the user approves, and "a" hears of it. -/
def approvedRun : List Label :=
  .requestPeer "a" "b" :: List.replicate 5 (.advance 0 {}) ++
    .approve "b" "a" :: List.replicate 6 (.advance 1 {})

/-- The user approves while the reply of the handshake is under way. -/
def overtakingRun : List Label :=
  .requestPeer "a" "b" :: List.replicate 3 (.advance 0 {}) ++
    .approve "b" "a" :: List.replicate 5 (.advance 1 {}) ++ List.replicate 2 (.advance 0 {})

theorem inTurn_of_ordinary (htask : s.tasks i = some task)
    (hordinary : task.ordinary = true) (hwithdraws : task.withdraws answer = none) :
    s.InTurn options (.advance i answer) := by
  refine ⟨fun self agentId record h _ => ?_, fun t self agentId h hsome => ?_⟩
  · obtain rfl := Option.some.inj (htask.symm.trans h)
    cases hordinary
  · obtain rfl := Option.some.inj (htask.symm.trans h)
    cases hwithdraws.symm.trans hsome

theorem ordered_of_ordinary (htask : s.tasks i = some task) (hordinary : task.ordinary = true) :
    s.Ordered askUser (.advance i {}) := by
  refine ⟨fun _ _ _ _ _ => rfl, fun _ _ _ _ h _ => ?_, fun _ _ _ h => ?_,
    fun _ _ _ _ hlost => ?_, fun _ _ _ _ h hrefused => ?_⟩
  · obtain rfl := Option.some.inj (htask.symm.trans h)
    cases hordinary
  · obtain rfl := Option.some.inj (htask.symm.trans h)
    cases hordinary
  · cases hlost
  · obtain rfl := Option.some.inj (htask.symm.trans h)
    rcases hrefused with hlost | hempty | hstub | hexpired
    · cases hlost
    · exact absurd hempty (of_decide_eq_true hordinary)
    · exact absurd rfl hstub
    · cases hexpired

theorem approvedRun_inTurn : Run.Allowed (InTurn askUser) (step askUser) {} approvedRun := by
  refine Run.allowed_cons trivial <|
    Run.allowed_cons (inTurn_of_ordinary rfl rfl rfl) <|
    Run.allowed_cons (inTurn_of_ordinary rfl rfl rfl) <|
    Run.allowed_cons (inTurn_of_ordinary rfl rfl rfl) <|
    Run.allowed_cons (inTurn_of_ordinary rfl rfl rfl) <|
    Run.allowed_cons (inTurn_of_ordinary rfl rfl rfl) <| Run.allowed_cons trivial <|
    Run.allowed_cons (inTurn_of_ordinary rfl rfl rfl) <|
    Run.allowed_cons ⟨fun _ _ _ h _ => ?_, fun _ _ _ h hsome => ?_⟩ <|
    Run.allowed_cons (inTurn_of_ordinary rfl rfl rfl) <|
    Run.allowed_cons (inTurn_of_ordinary rfl rfl rfl) <|
    Run.allowed_cons (inTurn_of_ordinary rfl rfl rfl) <|
    Run.allowed_cons (inTurn_of_ordinary rfl rfl rfl) <| Run.allowed_nil _ _ _
  · cases h
    decide
  · cases h
    cases hsome

theorem approvedRun_ordered : Run.Allowed (Ordered askUser) (step askUser) {} approvedRun := by
  refine Run.allowed_cons trivial <|
    Run.allowed_cons (ordered_of_ordinary rfl rfl) <|
    Run.allowed_cons (ordered_of_ordinary rfl rfl) <|
    Run.allowed_cons (ordered_of_ordinary rfl rfl) <|
    Run.allowed_cons (ordered_of_ordinary rfl rfl) <|
    Run.allowed_cons (ordered_of_ordinary rfl rfl) <| Run.allowed_cons trivial <|
    Run.allowed_cons (ordered_of_ordinary rfl rfl) <|
    Run.allowed_cons ⟨fun _ _ _ _ _ => rfl, fun _ _ _ _ h _ => ?_, fun _ _ _ h => ?_,
      fun _ _ _ _ hlost => ?_, fun _ _ _ _ h => ?_⟩ <|
    Run.allowed_cons (ordered_of_ordinary rfl rfl) <|
    Run.allowed_cons (ordered_of_ordinary rfl rfl) <|
    Run.allowed_cons (ordered_of_ordinary rfl rfl) <|
    Run.allowed_cons (ordered_of_ordinary rfl rfl) <| Run.allowed_nil _ _ _
  · -- The decision finds nothing in flight.
    cases h
    intro j t status ht hholds
    cases j with
    | zero => cases ht
    | succ j =>
      cases j with
      | zero =>
        cases ht
        cases hholds
      | succ j => cases ht
  · cases h
  · cases hlost
  · cases h

/-- An approve that runs alone. -/
theorem consent_and_agreement_approved :
    (Run.run (step askUser) {} approvedRun).KeepsConsent askUser ∧
      (Run.run (step askUser) {} approvedRun).Agrees ∧
      (Run.run (step askUser) {} approvedRun).outboundStatus "a" "b" = some .accepted := by
  refine ⟨(consent_and_agreement askUser approvedRun).1 approvedRun_inTurn approvedRun []
    (List.append_nil _).symm, (consent_and_agreement askUser approvedRun).2 approvedRun_ordered
    approvedRun [] (List.append_nil _).symm fun i => ?_, by decide⟩
  cases i with
  | zero => rfl
  | succ i =>
    cases i with
    | zero => rfl
    | succ i => rfl

/-- The callback finds no record, and the requester stores the status of before the approval. -/
theorem overtaking_unlawful : ¬ ∀ options labels, Lawful options labels := by
  intro h
  have hidle : (Run.run (step askUser) {} overtakingRun).Idle := by
    intro i
    cases i with
    | zero => rfl
    | succ i =>
      cases i with
      | zero => rfl
      | succ i => rfl
  have hagrees := (h askUser overtakingRun).2 (by simp [overtakingRun]) overtakingRun []
    (List.append_nil _).symm hidle "a" "b"
  revert hagrees
  decide

/-- "b" revokes "a" while an approve is between its read and its put. -/
def lateRun : List Label :=
  .requestPeer "a" "b" :: List.replicate 5 (.advance 0 {}) ++
    [.approve "b" "a", .advance 1 {}, .revokePeer "b" "a", .advance 2 {}, .advance 2 {},
      .advance 1 {}]

example : (Run.run (step askUser) {} lateRun).isPeerAuthorized "b" "a" = true ∧
    ¬ Consented "b" "a" (Run.run (step askUser) {} lateRun).log := by decide

end System

end CrabbyKit.Peering
