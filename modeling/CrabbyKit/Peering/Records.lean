import CrabbyKit.Core.Table
import CrabbyKit.Peering.Handlers

/-!
# Peer records stay under their own ids

What the storage accesses do to the records of either direction, and what every operation has in
hand: the record it stores goes under the id of the agent it is about, with the status of the policy
or of the decision.
-/

namespace CrabbyKit.Peering

open Option Function

theorem inboundKey_inj {a b : String} : inboundKey a = inboundKey b ↔ a = b := by
  rw [inboundKey, inboundKey, String.append_right_inj]

theorem outboundKey_inj {a b : String} : outboundKey a = outboundKey b ↔ a = b := by
  rw [outboundKey, outboundKey, String.append_right_inj]

theorem inboundKey_ne_outboundKey (a b : String) : inboundKey a ≠ outboundKey b := by
  intro h
  have hlist := congrArg String.toList h
  simp [inboundKey, outboundKey, String.toList_append] at hlist

variable (options : String → PeeringOptions)

/-- The records that a task has in hand are about the agents they will be stored for, with the
status of the policy or of the decision. -/
def Task.Keyed : Task → Prop
  | .handshake self targetAgentId (.putting record) _ =>
    self ≠ "" ∧ record.agentId = self ∧ record.status = statusFromPolicy
      (resolvePolicy (options ((options self).getAgentStub targetAgentId)))
  | .handshake self _ .reading _ => self ≠ ""
  | .decided decision _ agentId record =>
    agentId ≠ "" ∧ record.agentId = agentId ∧ record.status = decision.status
  | .callback decision self _ (.putting record) _ =>
    record.agentId = self ∧ record.status = decision.status
  | _ => True

namespace System

theorem get_update_put (s : System) (self key : String) (record : PeerRecord) (b k : String) :
    ((Function.update s.storage self ((s.storage self).put key record)) b).get k =
      if b = self ∧ k = key then some record else (s.storage b).get k := by
  by_cases hb : b = self
  · subst hb
    rw [update_self]
    by_cases hk : k = key
    · subst hk
      rw [SortedMap.get_put, if_pos ⟨rfl, rfl⟩]
    · rw [SortedMap.get_put_of_ne _ hk, if_neg fun h => hk h.2]
  · rw [update_of_ne hb, if_neg fun h => hb h.1]

theorem get_update_delete (s : System) (self key : String) (b k : String) :
    ((Function.update s.storage self ((s.storage self).delete key).1) b).get k =
      if b = self ∧ k = key then none else (s.storage b).get k := by
  by_cases hb : b = self
  · subst hb
    rw [update_self]
    by_cases hk : k = key
    · subst hk
      rw [SortedMap.get_delete, if_pos ⟨rfl, rfl⟩]
    · rw [SortedMap.get_delete_of_ne _ hk, if_neg fun h => hk h.2]
  · rw [update_of_ne hb, if_neg fun h => hb h.1]

theorem getInboundPeer_setInboundPeer (s : System) (self : String) (record : PeerRecord)
    (b p : String) : (s.setInboundPeer self record).getInboundPeer b p =
      if b = self ∧ p = record.agentId then some record else s.getInboundPeer b p := by
  refine (get_update_put s self _ record b _).trans ?_
  simp only [inboundKey_inj]
  rfl

theorem getOutboundPeer_setOutboundPeer (s : System) (self : String) (record : PeerRecord)
    (b p : String) : (s.setOutboundPeer self record).getOutboundPeer b p =
      if b = self ∧ p = record.agentId then some record else s.getOutboundPeer b p := by
  refine (get_update_put s self _ record b _).trans ?_
  simp only [outboundKey_inj]
  rfl

@[simp] theorem getOutboundPeer_setInboundPeer (s : System) (self : String) (record : PeerRecord)
    (b p : String) : (s.setInboundPeer self record).getOutboundPeer b p = s.getOutboundPeer b p :=
  (get_update_put s self _ record b _).trans
    (if_neg fun h => inboundKey_ne_outboundKey _ _ h.2.symm)

@[simp] theorem getInboundPeer_setOutboundPeer (s : System) (self : String) (record : PeerRecord)
    (b p : String) : (s.setOutboundPeer self record).getInboundPeer b p = s.getInboundPeer b p :=
  (get_update_put s self _ record b _).trans (if_neg fun h => inboundKey_ne_outboundKey _ _ h.2)

theorem getInboundPeer_deleteInboundPeer (s : System) (self agentId b p : String) :
    (s.deleteInboundPeer self agentId).getInboundPeer b p =
      if b = self ∧ p = agentId then none else s.getInboundPeer b p := by
  refine (get_update_delete s self _ b _).trans ?_
  simp only [inboundKey_inj]
  rfl

theorem getOutboundPeer_deleteOutboundPeer (s : System) (self agentId b p : String) :
    (s.deleteOutboundPeer self agentId).getOutboundPeer b p =
      if b = self ∧ p = agentId then none else s.getOutboundPeer b p := by
  refine (get_update_delete s self _ b _).trans ?_
  simp only [outboundKey_inj]
  rfl

@[simp] theorem getOutboundPeer_deleteInboundPeer (s : System) (self agentId b p : String) :
    (s.deleteInboundPeer self agentId).getOutboundPeer b p = s.getOutboundPeer b p :=
  (get_update_delete s self _ b _).trans (if_neg fun h => inboundKey_ne_outboundKey _ _ h.2.symm)

@[simp] theorem getInboundPeer_deleteOutboundPeer (s : System) (self agentId b p : String) :
    (s.deleteOutboundPeer self agentId).getInboundPeer b p = s.getInboundPeer b p :=
  (get_update_delete s self _ b _).trans (if_neg fun h => inboundKey_ne_outboundKey _ _ h.2)

/-- The invariant of all runs. -/
structure Keyed (s : System) : Prop where
  inbound : ∀ b p record, s.getInboundPeer b p = some record → record.agentId = p ∧ p ≠ ""
  outbound : ∀ b p record, s.getOutboundPeer b p = some record → record.agentId = p
  task : ∀ i task, s.tasks i = some task → task.Keyed options
  /-- Places that no operation has taken are free. -/
  free : ∀ i, s.started ≤ i → s.tasks i = none

variable {options} {s : System} {i : Nat} {task : Task}

theorem Keyed.emit (h : s.Keyed options) (event : Event) : (s.emit event).Keyed options :=
  ⟨h.inbound, h.outbound, h.task, h.free⟩

theorem Keyed.failRequest (h : s.Keyed options) (self targetAgentId error : String)
    (waiting : Bool) : (s.failRequest self targetAgentId error waiting).Keyed options := by
  unfold System.failRequest
  split_ifs
  · exact h.emit _
  · exact h

theorem Keyed.endDecision (h : s.Keyed options) (decision : Decision) (self agentId : String)
    (waiting : Bool) : (s.endDecision decision self agentId waiting).Keyed options := by
  unfold System.endDecision
  split_ifs
  · exact h.emit _
  · exact h

theorem Keyed.setInboundPeer (h : s.Keyed options) (self : String) {record : PeerRecord}
    (hrecord : record.agentId ≠ "") : (s.setInboundPeer self record).Keyed options := by
  refine ⟨fun b p found hget => ?_, fun b p found hget => ?_, h.task, h.free⟩
  · rw [getInboundPeer_setInboundPeer] at hget
    split_ifs at hget with hkey
    · cases hget
      exact ⟨hkey.2.symm, hkey.2 ▸ hrecord⟩
    · exact h.inbound b p found hget
  · rw [getOutboundPeer_setInboundPeer] at hget
    exact h.outbound b p found hget

theorem Keyed.setOutboundPeer (h : s.Keyed options) (self : String) (record : PeerRecord) :
    (s.setOutboundPeer self record).Keyed options := by
  refine ⟨fun b p found hget => ?_, fun b p found hget => ?_, h.task, h.free⟩
  · rw [getInboundPeer_setOutboundPeer] at hget
    exact h.inbound b p found hget
  · rw [getOutboundPeer_setOutboundPeer] at hget
    split_ifs at hget with hkey
    · cases hget
      exact hkey.2.symm
    · exact h.outbound b p found hget

theorem Keyed.deleteInboundPeer (h : s.Keyed options) (self agentId : String) :
    (s.deleteInboundPeer self agentId).Keyed options := by
  refine ⟨fun b p found hget => ?_, fun b p found hget => ?_, h.task, h.free⟩
  · rw [getInboundPeer_deleteInboundPeer] at hget
    split_ifs at hget
    exact h.inbound b p found hget
  · rw [getOutboundPeer_deleteInboundPeer] at hget
    exact h.outbound b p found hget

theorem Keyed.deleteOutboundPeer (h : s.Keyed options) (self agentId : String) :
    (s.deleteOutboundPeer self agentId).Keyed options := by
  refine ⟨fun b p found hget => ?_, fun b p found hget => ?_, h.task, h.free⟩
  · rw [getInboundPeer_deleteOutboundPeer] at hget
    exact h.inbound b p found hget
  · rw [getOutboundPeer_deleteOutboundPeer] at hget
    split_ifs at hget
    exact h.outbound b p found hget

theorem Keyed.update (h : s.Keyed options) (htask : s.tasks i = some task) {next : Option Task}
    (hnext : ∀ t, next = some t → t.Keyed options) :
    Keyed options { s with tasks := Function.update s.tasks i next } := by
  refine ⟨h.inbound, h.outbound, fun j t ht => ?_, fun j hle => ?_⟩
  · rcases Table.update_eq_some ht with ⟨-, ht⟩ | ⟨-, ht⟩
    · exact hnext t ht
    · exact h.task j t ht
  · exact Table.free_update h.free le_rfl (Table.lt_of_taken h.free htask) j hle

theorem Keyed.goOn (h : s.Keyed options) (htask : s.tasks i = some task) {next : Task}
    (hnext : next.Keyed options) : (s.goOn i next).Keyed options :=
  h.update htask fun _ ht => Option.some.inj ht ▸ hnext

theorem Keyed.finish (h : s.Keyed options) (htask : s.tasks i = some task) :
    (s.finish i).Keyed options :=
  h.update htask fun _ ht => (some_ne_none _ ht.symm).elim

theorem Keyed.spawn (h : s.Keyed options) {next : Task} (hnext : next.Keyed options) :
    (s.spawn next).Keyed options := by
  refine ⟨h.inbound, h.outbound, fun j t ht => ?_, fun j hle => ?_⟩
  · rcases Table.update_eq_some ht with ⟨-, ht⟩ | ⟨-, ht⟩
    · exact Option.some.inj ht ▸ hnext
    · exact h.task j t ht
  · exact Table.free_update h.free (Nat.le_succ _) (Nat.lt_succ_self _) j hle

theorem authenticate_ok {agentId : String} {payload : InterAgentPayload} {expired : Bool}
    {sender : String} (h : authenticate agentId payload expired = .ok sender) :
    payload.sender ≠ "" ∧ payload.target = agentId := by
  unfold authenticate at h
  split_ifs at h with hsender htarget
  exact ⟨hsender, not_not.mp fun hne => htarget (.inl hne)⟩

theorem Keyed.handshakeHandler (h : s.Keyed options) {self targetAgentId : String}
    {phase : Phase (Except HttpError PeerStatus)} {waiting : Bool}
    (htask : s.tasks i = some (.handshake self targetAgentId phase waiting)) (answer : HostAnswer) :
    (s.handshakeHandler options i answer self targetAgentId waiting phase).Keyed options := by
  have hkeyed := h.task i _ htask
  cases phase with
  | arriving =>
    simp only [System.handshakeHandler]
    split_ifs
    · exact (h.finish htask).failRequest _ _ _ _
    · split
      · exact h.goOn htask trivial
      · next sender hok =>
        exact h.goOn htask (authenticate_ok hok).1
  | reading =>
    simp only [System.handshakeHandler]
    split
    · exact h.goOn htask trivial
    · exact h.goOn htask ⟨hkeyed, rfl, rfl⟩
  | putting record =>
    have hput := h.setInboundPeer ((options self).getAgentStub targetAgentId)
      (hkeyed.2.1 ▸ hkeyed.1 : record.agentId ≠ "")
    have hnext : ((s.setInboundPeer ((options self).getAgentStub targetAgentId) record).goOn i
        (.handshake self targetAgentId (.replying (.ok record.status)) waiting)).Keyed options :=
      hput.goOn htask trivial
    simp only [System.handshakeHandler]
    split_ifs
    · exact hnext.emit _
    · exact hnext
  | replying response =>
    simp only [System.handshakeHandler]
    split_ifs
    · exact (h.finish htask).failRequest _ _ _ _
    · split
      · exact h.goOn htask trivial
      · exact (h.finish htask).failRequest _ _ _ _

theorem Keyed.handshakeCallbackHandler (h : s.Keyed options) {decision : Decision}
    {self agentId : String} {phase : Phase (Except HttpError Unit)} {waiting : Bool}
    (htask : s.tasks i = some (.callback decision self agentId phase waiting))
    (answer : HostAnswer) :
    (s.handshakeCallbackHandler options i answer decision self agentId waiting phase).Keyed
      options := by
  cases phase with
  | arriving =>
    simp only [System.handshakeCallbackHandler]
    split_ifs
    · exact (h.finish htask).endDecision _ _ _ _
    · split
      · exact h.goOn htask trivial
      · exact h.goOn htask trivial
  | reading =>
    simp only [System.handshakeCallbackHandler]
    split
    · exact h.goOn htask trivial
    · next existing hget =>
      exact h.goOn htask ⟨h.outbound _ _ existing hget, rfl⟩
  | putting record => exact (h.setOutboundPeer _ _).goOn htask trivial
  | replying response => exact (h.finish htask).endDecision _ _ _ _

theorem Keyed.advance (h : s.Keyed options) (htask : s.tasks i = some task)
    (answer : HostAnswer) : (s.advance options i answer task).Keyed options := by
  cases task with
  | handshake self targetAgentId phase waiting => exact h.handshakeHandler htask answer
  | storing self record => exact ((h.setOutboundPeer _ _).finish htask).emit _
  | deciding decision self agentId =>
    simp only [System.advance]
    split
    · exact (h.finish htask).emit _
    · next existing hget =>
      obtain ⟨hid, hne⟩ := h.inbound _ _ existing hget
      exact h.goOn htask ⟨hne, hid, rfl⟩
  | decided decision self agentId record =>
    obtain ⟨hne, hid, -⟩ := h.task i _ htask
    exact (h.setInboundPeer self (hid ▸ hne : record.agentId ≠ "")).goOn htask trivial
  | callback decision self agentId phase waiting => exact h.handshakeCallbackHandler htask answer
  | revoking self agentId => exact (h.deleteInboundPeer _ _).goOn htask trivial
  | forgetting self agentId => exact ((h.deleteOutboundPeer _ _).finish htask).emit _

theorem Keyed.reject (h : s.Keyed options) (htask : s.tasks i = some task) :
    (s.reject i task).Keyed options := by
  have hkeyed := h.task i _ htask
  cases task with
  | handshake self targetAgentId phase waiting =>
    refine (h.goOn htask ?_).failRequest _ _ _ _
    cases phase with
    | reading => exact hkeyed
    | putting record => exact hkeyed
    | _ => trivial
  | callback decision self agentId phase waiting =>
    refine (h.goOn htask ?_).endDecision _ _ _ _
    cases phase with
    | putting record => exact hkeyed
    | _ => trivial
  | _ => exact h

theorem Keyed.handshakeDecision (h : s.Keyed options) (decision : Decision)
    (self agentId : String) : (s.handshakeDecision decision self agentId).Keyed options := by
  unfold System.handshakeDecision
  split_ifs
  · exact (h.emit _).emit _
  · exact (h.emit _).spawn trivial

theorem Keyed.step (h : s.Keyed options) (label : Label) :
    (s.step options label).Keyed options := by
  cases label with
  | requestPeer self targetAgentId => exact h.spawn trivial
  | approve self agentId => exact h.handshakeDecision .approve self agentId
  | deny self agentId => exact h.handshakeDecision .deny self agentId
  | revokePeer self agentId => exact h.spawn trivial
  | advance i answer =>
    simp only [System.step]
    split
    · next task htask => exact h.advance htask answer
    · exact h
  | reject i =>
    simp only [System.step]
    split
    · next task htask => exact h.reject htask
    · exact h

theorem keyed_initial : Keyed options {} :=
  ⟨fun _ _ _ h => (some_ne_none _ h.symm).elim,
    fun _ _ _ h => (some_ne_none _ h.symm).elim,
    fun _ _ h => (some_ne_none _ h.symm).elim, fun _ _ => rfl⟩

end System

end CrabbyKit.Peering
