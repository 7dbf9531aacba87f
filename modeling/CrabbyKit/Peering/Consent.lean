import CrabbyKit.Peering.Records

/-!
# Authorization needs consent

Under the user-approval policy a peer is authorized only by an approve that was started after the
last deny or revocation of the peer was over. An approve may put after that, and a deny or a
revocation may end after an approve has put; the runs where neither happens keep the promise.
-/

namespace CrabbyKit.Peering

/-- A deny or a revocation of a peer is over. -/
def Event.withdraws (self agentId : String) : Event → Bool
  | .ended .deny self' agentId' _ => self' = self && agentId' = agentId
  | .revoked self' agentId' => self' = self && agentId' = agentId
  | _ => false

/-- The start of an approve of a peer. -/
def Event.approves (self agentId : String) : Event → Bool
  | .started .approve self' agentId' => self' = self && agentId' = agentId
  | _ => false

/-- An approve of the peer was started after the last deny or revocation of it was over. -/
def Consented (self agentId : String) (log : List Event) : Prop :=
  (log.takeWhile fun event => !event.withdraws self agentId).any (Event.approves self agentId) =
    true

instance (self agentId : String) (log : List Event) : Decidable (Consented self agentId log) :=
  inferInstanceAs (Decidable (_ = true))

def Task.withdraws (answer : HostAnswer) : Task → Option (String × String)
  | .callback .deny self agentId .arriving true =>
    if answer.lost then some (self, agentId) else none
  | .callback .deny self agentId (.replying _) true => some (self, agentId)
  | .forgetting self agentId => some (self, agentId)
  | _ => none

namespace System

variable (options : String → PeeringOptions) (s : System)

/-- Under the user-approval policy a peer is authorized with consent only. -/
def KeepsConsent : Prop :=
  ∀ self agentId, resolvePolicy (options self) = .userApproval →
    s.isPeerAuthorized self agentId = true → Consented self agentId s.log

/-- A step is in turn when an approve puts its record only with consent, and a deny or a revocation
ends only while the peer is not authorized. -/
def InTurn : Label → Prop
  | .advance i answer =>
    (∀ self agentId record, s.tasks i = some (.decided .approve self agentId record) →
      resolvePolicy (options self) = .userApproval → Consented self agentId s.log) ∧
    ∀ task self agentId, s.tasks i = some task → task.withdraws answer = some (self, agentId) →
      resolvePolicy (options self) = .userApproval → s.isPeerAuthorized self agentId = false
  | .reject i =>
    ∀ self agentId phase, s.tasks i = some (.callback .deny self agentId phase true) →
      resolvePolicy (options self) = .userApproval → s.isPeerAuthorized self agentId = false
  | _ => True

variable {options} {s} {i : Nat} {task : Task}

variable {self agentId : String}

theorem isPeerAuthorized_iff :
    s.isPeerAuthorized self agentId = true ↔
      ∃ record, s.getInboundPeer self agentId = some record ∧ record.status = .accepted := by
  rw [isPeerAuthorized, decide_eq_true_iff, Option.map_eq_some_iff]

theorem isPeerAuthorized_of_none
    (h : s.getInboundPeer self agentId = none) : s.isPeerAuthorized self agentId = false := by
  rw [isPeerAuthorized, h]
  rfl

variable {event : Event}

theorem consented_cons {log : List Event}
    (hevent : event.withdraws self agentId = false) (h : Consented self agentId log) :
    Consented self agentId (event :: log) := by
  unfold Consented at h ⊢
  rw [List.takeWhile_cons_of_pos (by rw [hevent]; rfl), List.any_cons, h, Bool.or_true]

theorem KeepsConsent.emit (h : s.KeepsConsent options)
    (hevent : ∀ self agentId, event.withdraws self agentId = true →
      resolvePolicy (options self) = .userApproval → s.isPeerAuthorized self agentId = false) :
    (s.emit event).KeepsConsent options := by
  intro self agentId hpolicy hauthorized
  have hbefore : s.isPeerAuthorized self agentId = true := hauthorized
  refine consented_cons ?_ (h self agentId hpolicy hbefore)
  cases hwithdraws : event.withdraws self agentId with
  | false => rfl
  | true => cases hbefore.symm.trans (hevent self agentId hwithdraws hpolicy)

theorem KeepsConsent.tell (h : s.KeepsConsent options)
    (hevent : ∀ self agentId, event.withdraws self agentId = false) :
    (s.emit event).KeepsConsent options :=
  h.emit fun self agentId hwithdraws =>
    absurd hwithdraws (by rw [hevent]; exact Bool.false_ne_true)

theorem KeepsConsent.failRequest (h : s.KeepsConsent options)
    (self targetAgentId error : String) (waiting : Bool) :
    (s.failRequest self targetAgentId error waiting).KeepsConsent options := by
  unfold System.failRequest
  split_ifs
  · exact h.tell fun _ _ => rfl
  · exact h

variable {decision : Decision}

theorem ended_withdraws {self' agentId' : String} {response : Except HttpError Unit}
    (h : (Event.ended decision self agentId response).withdraws self' agentId' = true) :
    decision = .deny ∧ self = self' ∧ agentId = agentId' := by
  cases decision with
  | approve => cases h
  | deny =>
    simp only [Event.withdraws, Bool.and_eq_true, decide_eq_true_iff] at h
    exact ⟨rfl, h⟩

variable {waiting : Bool}

theorem KeepsConsent.endDecision (h : s.KeepsConsent options)
    (hnot : decision = .deny → waiting = true → resolvePolicy (options self) = .userApproval →
      s.isPeerAuthorized self agentId = false) :
    (s.endDecision decision self agentId waiting).KeepsConsent options := by
  unfold System.endDecision
  split_ifs with hwaiting
  · refine h.emit fun self' agentId' hwithdraws hpolicy => ?_
    obtain ⟨hdeny, rfl, rfl⟩ := ended_withdraws hwithdraws
    exact hnot hdeny hwaiting hpolicy
  · exact h

theorem KeepsConsent.setInboundPeer (h : s.KeepsConsent options)
    {record : PeerRecord} (hrecord : resolvePolicy (options self) = .userApproval →
      record.status = .accepted → Consented self record.agentId s.log) :
    (s.setInboundPeer self record).KeepsConsent options := by
  intro b p hpolicy hauthorized
  obtain ⟨found, hget, hstatus⟩ := isPeerAuthorized_iff.mp hauthorized
  rw [getInboundPeer_setInboundPeer] at hget
  split_ifs at hget with hkey
  · obtain ⟨rfl, rfl⟩ := hkey
    cases hget
    exact hrecord hpolicy hstatus
  · exact h b p hpolicy (isPeerAuthorized_iff.mpr ⟨found, hget, hstatus⟩)

theorem KeepsConsent.setOutboundPeer (h : s.KeepsConsent options) (self : String)
    (record : PeerRecord) : (s.setOutboundPeer self record).KeepsConsent options := by
  intro b p hpolicy hauthorized
  obtain ⟨found, hget, hstatus⟩ := isPeerAuthorized_iff.mp hauthorized
  rw [getInboundPeer_setOutboundPeer] at hget
  exact h b p hpolicy (isPeerAuthorized_iff.mpr ⟨found, hget, hstatus⟩)

theorem KeepsConsent.deleteInboundPeer (h : s.KeepsConsent options) (self agentId : String) :
    (s.deleteInboundPeer self agentId).KeepsConsent options := by
  intro b p hpolicy hauthorized
  obtain ⟨found, hget, hstatus⟩ := isPeerAuthorized_iff.mp hauthorized
  rw [getInboundPeer_deleteInboundPeer] at hget
  split_ifs at hget
  exact h b p hpolicy (isPeerAuthorized_iff.mpr ⟨found, hget, hstatus⟩)

theorem isPeerAuthorized_deleteOutboundPeer (self agentId b p : String) :
    (s.deleteOutboundPeer self agentId).isPeerAuthorized b p = s.isPeerAuthorized b p := by
  unfold isPeerAuthorized
  rw [getInboundPeer_deleteOutboundPeer]

theorem KeepsConsent.deleteOutboundPeer (h : s.KeepsConsent options) (self agentId : String) :
    (s.deleteOutboundPeer self agentId).KeepsConsent options := by
  intro b p hpolicy hauthorized
  rw [isPeerAuthorized_deleteOutboundPeer] at hauthorized
  exact h b p hpolicy hauthorized

theorem KeepsConsent.handshakeHandler (h : s.KeepsConsent options) (hkeyed : s.Keyed options)
    {targetAgentId : String} {phase : Phase (Except HttpError PeerStatus)}
    (htask : s.tasks i = some (.handshake self targetAgentId phase waiting)) (answer : HostAnswer) :
    (s.handshakeHandler options i answer self targetAgentId waiting phase).KeepsConsent
      options := by
  cases phase with
  | arriving =>
    simp only [System.handshakeHandler]
    split_ifs
    · exact KeepsConsent.failRequest (s := s.finish i) h _ _ _ _
    · split
      · exact h
      · exact h
  | reading =>
    simp only [System.handshakeHandler]
    split
    · exact h
    · exact h
  | putting record =>
    obtain ⟨-, -, hstatus⟩ := hkeyed.task i _ htask
    have hput : (s.setInboundPeer ((options self).getAgentStub targetAgentId) record).KeepsConsent
        options := by
      refine h.setInboundPeer fun hpolicy haccepted => ?_
      rw [hpolicy, haccepted] at hstatus
      cases hstatus
    simp only [System.handshakeHandler]
    split_ifs
    · exact KeepsConsent.tell (s := (s.setInboundPeer _ record).goOn i _) hput fun _ _ => rfl
    · exact hput
  | replying response =>
    simp only [System.handshakeHandler]
    split_ifs
    · exact KeepsConsent.failRequest (s := s.finish i) h _ _ _ _
    · split
      · exact h
      · exact KeepsConsent.failRequest (s := s.finish i) h _ _ _ _

variable {answer : HostAnswer}

theorem KeepsConsent.handshakeCallbackHandler (h : s.KeepsConsent options)
    {phase : Phase (Except HttpError Unit)}
    (htask : s.tasks i = some (.callback decision self agentId phase waiting))
    (hturn : s.InTurn options (.advance i answer)) :
    (s.handshakeCallbackHandler options i answer decision self agentId waiting
      phase).KeepsConsent options := by
  cases phase with
  | arriving =>
    simp only [System.handshakeCallbackHandler]
    split_ifs with hlost
    · refine KeepsConsent.endDecision (s := s.finish i) h fun hdeny hwaiting => ?_
      subst hdeny hwaiting
      exact hturn.2 _ self agentId htask (if_pos hlost)
    · split
      · exact h
      · exact h
  | reading =>
    simp only [System.handshakeCallbackHandler]
    split
    · exact h
    · exact h
  | putting record => exact h.setOutboundPeer _ record
  | replying response =>
    refine KeepsConsent.endDecision (s := s.finish i) h fun hdeny hwaiting => ?_
    subst hdeny hwaiting
    exact hturn.2 _ self agentId htask rfl

theorem KeepsConsent.advance (h : s.KeepsConsent options) (hkeyed : s.Keyed options)
    (htask : s.tasks i = some task) (hturn : s.InTurn options (.advance i answer)) :
    (s.advance options i answer task).KeepsConsent options := by
  cases task with
  | handshake self targetAgentId phase waiting => exact h.handshakeHandler hkeyed htask answer
  | storing self record =>
    exact KeepsConsent.tell (s := (s.setOutboundPeer self record).finish i)
      (h.setOutboundPeer self record) fun _ _ => rfl
  | deciding decision self agentId =>
    simp only [System.advance]
    split
    · next hnone =>
      refine KeepsConsent.emit (s := s.finish i) h fun self' agentId' hwithdraws _ => ?_
      obtain ⟨-, rfl, rfl⟩ := ended_withdraws hwithdraws
      exact isPeerAuthorized_of_none (s := s) hnone
    · exact h
  | decided decision self agentId record =>
    obtain ⟨-, hid, hstatus⟩ := hkeyed.task i _ htask
    refine h.setInboundPeer fun hpolicy haccepted => ?_
    cases decision with
    | approve =>
      rw [hid]
      exact hturn.1 self agentId record htask hpolicy
    | deny =>
      rw [hstatus] at haccepted
      cases haccepted
  | callback decision self agentId phase waiting => exact h.handshakeCallbackHandler htask hturn
  | revoking self agentId => exact h.deleteInboundPeer self agentId
  | forgetting self agentId =>
    refine KeepsConsent.emit (s := (s.deleteOutboundPeer self agentId).finish i)
      (h.deleteOutboundPeer self agentId) fun self' agentId' hwithdraws hpolicy => ?_
    simp only [Event.withdraws, Bool.and_eq_true, decide_eq_true_iff] at hwithdraws
    obtain ⟨rfl, rfl⟩ := hwithdraws
    exact (isPeerAuthorized_deleteOutboundPeer self agentId self agentId).trans
      (hturn.2 _ self agentId htask rfl hpolicy)

theorem KeepsConsent.reject (h : s.KeepsConsent options) (htask : s.tasks i = some task)
    (hturn : s.InTurn options (.reject i)) : (s.reject i task).KeepsConsent options := by
  cases task with
  | handshake self targetAgentId phase waiting =>
    exact KeepsConsent.failRequest (s := s.goOn i _) h _ _ _ _
  | callback decision self agentId phase waiting =>
    refine KeepsConsent.endDecision (s := s.goOn i _) h fun hdeny hwaiting => ?_
    subst hdeny hwaiting
    exact hturn self agentId phase htask
  | _ => exact h

theorem KeepsConsent.handshakeDecision (h : s.KeepsConsent options) (hkeyed : s.Keyed options)
    (decision : Decision) (self agentId : String) :
    (s.handshakeDecision decision self agentId).KeepsConsent options := by
  have hstarted : (s.emit (.started decision self agentId)).KeepsConsent options :=
    h.tell fun _ _ => rfl
  unfold System.handshakeDecision
  split_ifs with hempty
  · refine hstarted.emit fun self' agentId' hwithdraws _ => ?_
    obtain ⟨-, rfl, rfl⟩ := ended_withdraws hwithdraws
    refine isPeerAuthorized_of_none (Option.eq_none_iff_forall_ne_some.mpr fun record hget => ?_)
    exact (hkeyed.inbound _ _ record hget).2 hempty
  · exact hstarted

theorem KeepsConsent.step (h : s.KeepsConsent options) (hkeyed : s.Keyed options) {label : Label}
    (hturn : s.InTurn options label) : (s.step options label).KeepsConsent options := by
  cases label with
  | requestPeer self targetAgentId => exact h
  | approve self agentId => exact h.handshakeDecision hkeyed .approve self agentId
  | deny self agentId => exact h.handshakeDecision hkeyed .deny self agentId
  | revokePeer self agentId => exact h
  | advance i answer =>
    simp only [System.step]
    split
    · next task htask => exact h.advance hkeyed htask hturn
    · exact h
  | reject i =>
    simp only [System.step]
    split
    · next task htask => exact h.reject htask hturn
    · exact h

theorem keepsConsent_initial : KeepsConsent options {} :=
  fun _ _ _ h => (Bool.false_ne_true h).elim

end System

end CrabbyKit.Peering
