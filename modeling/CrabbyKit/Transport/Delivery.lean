import CrabbyKit.Transport.Cloudflare

/-!
# Who receives a broadcast

After every history the map of connections holds exactly those open sockets that were heard since
the last hibernation, each with the session id last set for it. A broadcast reaches these and no
other ones.
-/

namespace CrabbyKit.Transport

open List Option

variable {M : Type*}

@[simp] theorem WebSocket.send_isOpen (socket : WebSocket M) (msg : M) :
    (socket.send msg).isOpen = socket.isOpen := by
  rw [send, apply_ite WebSocket.isOpen, ite_self]

@[simp] theorem WebSocket.send_attachment (socket : WebSocket M) (msg : M) :
    (socket.send msg).attachment = socket.attachment := by
  rw [send, apply_ite WebSocket.attachment, ite_self]

namespace CfWebSocketTransport

def tracked (t : CfWebSocketTransport M) : List Nat := t.connections.map Prod.fst

theorem sockets_modifySocket (t : CfWebSocketTransport M) (ws w : Nat)
    (f : WebSocket M → WebSocket M) :
    (t.modifySocket ws f).sockets w = if w = ws then (t.sockets w).map f else t.sockets w := by
  by_cases h : w = ws
  · subst h
    simp [modifySocket]
  · simp [modifySocket, h]

theorem get_eq_none (t : CfWebSocketTransport M) (ws : Nat) : t.get ws = none ↔ ws ∉ t.tracked := by
  simp only [get, tracked, map_eq_none_iff, find?_eq_none, List.mem_map,
    decide_eq_true_eq, not_exists, not_and]

@[simp] theorem connections_sendAll (t : CfWebSocketTransport M)
    (targets : List (Nat × CfTransportConnection)) (msg : M) :
    (t.sendAll targets msg).connections = t.connections := by
  induction targets generalizing t with
  | nil => rfl
  | cons entry rest ih => exact ih _

theorem sockets_sendAll (t : CfWebSocketTransport M)
    {targets : List (Nat × CfTransportConnection)} (hnodup : (targets.map Prod.fst).Nodup)
    (msg : M) (ws : Nat) :
    (t.sendAll targets msg).sockets ws = if ws ∈ targets.map Prod.fst then
      (t.sockets ws).map fun socket => socket.send msg else t.sockets ws := by
  induction targets generalizing t with
  | nil => rfl
  | cons entry rest ih =>
    rw [map_cons, nodup_cons] at hnodup
    change ((t.send entry.1 msg).sendAll rest msg).sockets ws = _
    rw [ih (t.send entry.1 msg) hnodup.2, send, sockets_modifySocket, map_cons]
    by_cases hws : ws = entry.1
    · subst hws
      rw [if_neg hnodup.1, if_pos rfl, if_pos mem_cons_self]
    · simp only [hws, if_false, mem_cons, false_or]

end CfWebSocketTransport

open CfWebSocketTransport

structure Knows (history : List (Event M)) (t : CfWebSocketTransport M) : Prop where
  nodup : t.tracked.Nodup
  fresh : ∀ ws, t.sockets ws = none → lastSet ws history = "" ∧ ws ∉ t.tracked
  session : ∀ entry ∈ t.connections, entry.2.sessionId = lastSet entry.1 history
  attachment : ∀ ws socket, t.sockets ws = some socket →
    socket.attachment.sessionId = lastSet ws history
  heard : ∀ ws socket, t.sockets ws = some socket → socket.isOpen →
    (ws ∈ t.tracked ↔ Heard ws history)

namespace Knows

variable {history : List (Event M)} {t : CfWebSocketTransport M}

theorem initial : Knows ([] : List (Event M)) .initial where
  nodup := nodup_nil
  fresh _ _ := ⟨rfl, not_mem_nil⟩
  session _ h := absurd h not_mem_nil
  attachment ws socket h := by cases h
  heard ws socket h := by cases h

variable {e : Event M}

theorem sendAll (h : Knows history t) {targets : List (Nat × CfTransportConnection)}
    (hnodup : (targets.map Prod.fst).Nodup) (msg : M)
    (hset : ∀ ws, lastSet ws (e :: history) = lastSet ws history)
    (hheard : ∀ ws, Heard ws (e :: history) ↔ Heard ws history) :
    Knows (e :: history) (t.sendAll targets msg) := by
  have hsocket : ∀ ws socket', (t.sendAll targets msg).sockets ws = some socket' →
      ∃ socket, t.sockets ws = some socket ∧ socket'.isOpen = socket.isOpen ∧
        socket'.attachment = socket.attachment := by
    intro ws socket' hws
    rw [sockets_sendAll t hnodup] at hws
    split at hws
    · obtain ⟨socket, hsocket, rfl⟩ := map_eq_some_iff.mp hws
      exact ⟨socket, hsocket, socket.send_isOpen msg, socket.send_attachment msg⟩
    · exact ⟨socket', hws, rfl, rfl⟩
  have htracked : (t.sendAll targets msg).tracked = t.tracked := by
    rw [tracked, tracked, connections_sendAll]
  refine ⟨?_, ?_, ?_, ?_, ?_⟩
  · rw [htracked]
    exact h.nodup
  · intro ws hws
    rw [sockets_sendAll t hnodup] at hws
    rw [htracked, hset]
    refine h.fresh ws ?_
    split at hws
    · exact map_eq_none_iff.mp hws
    · exact hws
  · intro entry hentry
    rw [connections_sendAll] at hentry
    rw [hset]
    exact h.session entry hentry
  · intro ws socket' hws
    obtain ⟨socket, hsocket, _, hattachment⟩ := hsocket ws socket' hws
    rw [hattachment, hset]
    exact h.attachment ws socket hsocket
  · intro ws socket' hws hopen
    obtain ⟨socket, hsocket, hisOpen, _⟩ := hsocket ws socket' hws
    rw [htracked, hheard]
    exact h.heard ws socket hsocket (hisOpen ▸ hopen)

variable {ws : Nat}

theorem handleUpgrade (h : Knows history t) (hws : t.sockets ws = none)
    (connectionId : ConnectionId) :
    Knows (.accept ws connectionId :: history) (t.handleUpgrade ws connectionId) := by
  obtain ⟨hset, hnew⟩ := h.fresh ws hws
  have htracked : (t.handleUpgrade ws connectionId).tracked = t.tracked ++ [ws] := by
    simp [tracked, CfWebSocketTransport.handleUpgrade]
  have hsockets : ∀ w, w ≠ ws → (t.handleUpgrade ws connectionId).sockets w = t.sockets w :=
    fun w hw => Function.update_of_ne hw _ _
  have hself : (t.handleUpgrade ws connectionId).sockets ws =
      some ⟨true, ⟨"", connectionId⟩, []⟩ := Function.update_self ..
  refine ⟨?_, ?_, ?_, ?_, ?_⟩
  · rw [htracked]
    exact nodup_append_comm.mp (nodup_cons.mpr ⟨hnew, h.nodup⟩)
  · intro w hw
    by_cases heq : w = ws
    · rw [heq, hself] at hw
      cases hw
    · rw [hsockets w heq] at hw
      obtain ⟨hempty, hnot⟩ := h.fresh w hw
      refine ⟨hempty, ?_⟩
      rw [htracked, mem_append, mem_singleton]
      exact fun hor => hor.elim hnot heq
  · intro entry hentry
    rcases mem_append.mp hentry with hold | hadded
    · exact h.session entry hold
    · rw [mem_singleton] at hadded
      subst hadded
      exact hset.symm
  · intro w socket hw
    by_cases heq : w = ws
    · subst heq
      rw [hself] at hw
      cases hw
      exact hset.symm
    · rw [hsockets w heq] at hw
      exact h.attachment w socket hw
  · intro w socket hw hopen
    rw [htracked, mem_append, mem_singleton, or_comm]
    by_cases heq : w = ws
    · exact iff_of_true (Or.inl heq) (Or.inl heq.symm)
    · rw [hsockets w heq] at hw
      exact or_congr ⟨Eq.symm, Eq.symm⟩ (h.heard w socket hw hopen)

variable {socket : WebSocket M}

theorem handleMessage (h : Knows history t)
    (hws : t.sockets ws = some socket) : Knows (.message ws :: history) (t.handleMessage ws) := by
  have hset := h.attachment ws socket hws
  by_cases hin : ws ∈ t.tracked
  · have hsame : t.handleMessage ws = t := by
      obtain ⟨connection, hget⟩ := ne_none_iff_exists'.mp
        (mt (get_eq_none t ws).mp (not_not_intro hin))
      rw [CfWebSocketTransport.handleMessage, hget]
    rw [hsame]
    refine ⟨h.nodup, h.fresh, h.session, h.attachment, fun w socket hw hopen => ?_⟩
    rw [h.heard w socket hw hopen]
    refine ⟨Or.inr, fun hor => hor.elim (fun hspoke => ?_) id⟩
    rw [← h.heard w socket hw hopen, ← hspoke.1]
    exact hin
  · by_cases hempty : lastSet ws history = ""
    · have hsame : t.handleMessage ws = t := by
        rw [CfWebSocketTransport.handleMessage, (get_eq_none t ws).mpr hin, hws]
        simp only [hset, hempty, ne_eq, not_true_eq_false, false_and, if_false]
      rw [hsame]
      refine ⟨h.nodup, h.fresh, h.session, h.attachment, fun w socket hw hopen => ?_⟩
      rw [h.heard w socket hw hopen]
      refine ⟨Or.inr, fun hor => hor.elim (fun hspoke => ?_) id⟩
      rw [← hspoke.1] at hspoke
      exact absurd hempty hspoke.2
    · have hadded : t.handleMessage ws = { t with connections := t.connections ++
          [(ws, ⟨socket.attachment.connectionId, socket.attachment.sessionId, true⟩)] } := by
        rw [CfWebSocketTransport.handleMessage, (get_eq_none t ws).mpr hin, hws]
        exact if_pos ⟨hset ▸ hempty, socket.attachment.connectionId.property⟩
      have htracked : (t.handleMessage ws).tracked = t.tracked ++ [ws] := by
        rw [hadded]
        simp [tracked]
      have hsockets : (t.handleMessage ws).sockets = t.sockets := by rw [hadded]
      refine ⟨?_, ?_, ?_, ?_, ?_⟩
      · rw [htracked]
        exact nodup_append_comm.mp (nodup_cons.mpr ⟨hin, h.nodup⟩)
      · intro w hw
        rw [hsockets] at hw
        obtain ⟨hnone, hnot⟩ := h.fresh w hw
        refine ⟨hnone, ?_⟩
        rw [htracked, mem_append, mem_singleton]
        refine fun hor => hor.elim hnot fun heq => ?_
        rw [heq, hws] at hw
        cases hw
      · intro entry hentry
        rw [hadded] at hentry
        rcases mem_append.mp hentry with hold | hnew
        · exact h.session entry hold
        · rw [mem_singleton] at hnew
          subst hnew
          exact hset
      · intro w socket' hw
        rw [hsockets] at hw
        exact h.attachment w socket' hw
      · intro w socket' hw hopen
        rw [hsockets] at hw
        rw [htracked, mem_append, mem_singleton, or_comm]
        refine or_congr ⟨fun heq => ?_, fun hspoke => hspoke.1.symm⟩ (h.heard w socket' hw hopen)
        subst heq
        exact ⟨rfl, hempty⟩

theorem setSessionId (h : Knows history t) (hws : t.sockets ws = some socket) (sessionId : String) :
    Knows (.setSessionId ws sessionId :: history) (t.setSessionId ws sessionId) := by
  have htracked : (t.setSessionId ws sessionId).tracked = t.tracked := by
    rw [tracked, CfWebSocketTransport.setSessionId, List.map_map]
    refine List.map_congr_left fun entry _ => ?_
    rw [Function.comp_apply]
    split
    next heq => exact heq.symm
    next => rfl
  have hsockets : ∀ w socket', (t.setSessionId ws sessionId).sockets w = some socket' →
      ∃ socket, t.sockets w = some socket ∧ socket'.isOpen = socket.isOpen ∧
        socket'.attachment.sessionId = if ws = w then sessionId else
          socket.attachment.sessionId := by
    intro w socket' hw
    rw [CfWebSocketTransport.setSessionId, sockets_modifySocket] at hw
    split at hw
    next heq =>
      obtain ⟨socket, hsocket, rfl⟩ := map_eq_some_iff.mp hw
      exact ⟨socket, hsocket, rfl, (if_pos heq.symm).symm⟩
    next hne => exact ⟨socket', hw, rfl, (if_neg (Ne.symm hne)).symm⟩
  refine ⟨?_, ?_, ?_, ?_, ?_⟩
  · rw [htracked]
    exact h.nodup
  · intro w hw
    rw [CfWebSocketTransport.setSessionId, sockets_modifySocket] at hw
    have hnone : t.sockets w = none := by
      split at hw
      · exact map_eq_none_iff.mp hw
      · exact hw
    rw [htracked, lastSet, if_neg]
    · exact h.fresh w hnone
    · rintro rfl
      rw [hws] at hnone
      cases hnone
  · intro entry hentry
    obtain ⟨old, hold, rfl⟩ := List.mem_map.mp hentry
    by_cases heq : old.1 = ws
    · simp only [heq, if_true, lastSet]
    · simp only [heq, if_false, lastSet, if_neg (Ne.symm heq)]
      exact h.session old hold
  · intro w socket' hw
    obtain ⟨old, hold, _, hid⟩ := hsockets w socket' hw
    rw [hid, lastSet, h.attachment w old hold]
  · intro w socket' hw hopen
    obtain ⟨old, hold, hisOpen, _⟩ := hsockets w socket' hw
    rw [htracked]
    exact h.heard w old hold (hisOpen ▸ hopen)

theorem drop (h : Knows history t) (ws : Nat)
    (hset : ∀ ws, lastSet ws (e :: history) = lastSet ws history)
    (hheard : ∀ ws, Heard ws (e :: history) ↔ Heard ws history) :
    Knows (e :: history) (t.drop ws) := by
  refine ⟨h.nodup, ?_, ?_, ?_, ?_⟩
  · intro w hw
    rw [CfWebSocketTransport.drop, sockets_modifySocket] at hw
    rw [hset]
    refine h.fresh w ?_
    split at hw
    · exact map_eq_none_iff.mp hw
    · exact hw
  · intro entry hentry
    rw [hset]
    exact h.session entry hentry
  · intro w socket' hw
    rw [CfWebSocketTransport.drop, sockets_modifySocket] at hw
    rw [hset]
    split at hw
    · obtain ⟨socket, hsocket, rfl⟩ := map_eq_some_iff.mp hw
      exact h.attachment w socket hsocket
    · exact h.attachment w socket' hw
  · intro w socket' hw hopen
    rw [CfWebSocketTransport.drop, sockets_modifySocket] at hw
    rw [hheard]
    split at hw
    · obtain ⟨socket, _, rfl⟩ := map_eq_some_iff.mp hw
      cases hopen
    · exact h.heard w socket' hw hopen

theorem handleClose (h : Knows history t)
    (hclosed : ∀ socket, t.sockets ws = some socket → ¬ socket.isOpen) :
    Knows history (t.handleClose ws) := by
  have htracked : (t.handleClose ws).tracked = t.tracked.filter fun w => w ≠ ws := by
    rw [tracked, tracked, CfWebSocketTransport.handleClose, List.filter_map]
    rfl
  refine ⟨?_, ?_, ?_, h.attachment, ?_⟩
  · rw [htracked]
    exact h.nodup.filter _
  · intro w hw
    refine ⟨(h.fresh w hw).1, ?_⟩
    rw [htracked]
    exact fun hmem => (h.fresh w hw).2 (mem_of_mem_filter hmem)
  · intro entry hentry
    exact h.session entry (mem_of_mem_filter hentry)
  · intro w socket hw hopen
    have hne : w ≠ ws := by
      rintro rfl
      exact hclosed socket hw hopen
    rw [htracked, mem_filter, ← h.heard w socket hw hopen]
    simp [hne]

theorem hibernate (h : Knows history t) : Knows (.hibernate :: history) t.hibernate where
  nodup := nodup_nil
  fresh ws hws := ⟨(h.fresh ws hws).1, not_mem_nil⟩
  session _ hentry := absurd hentry not_mem_nil
  attachment := h.attachment
  heard _ _ _ _ := iff_of_false not_mem_nil id

theorem step (h : Knows history t) {t' : CfWebSocketTransport M}
    (hstep : Transport.step t e = some t') : Knows (e :: history) t' := by
  cases e with
  | accept ws connectionId =>
    obtain ⟨hnew, hstep⟩ := ite_none_left_eq_some.mp hstep
    cases hstep
    exact h.handleUpgrade (by simpa using hnew) connectionId
  | message ws =>
    obtain ⟨hold, hstep⟩ := ite_none_right_eq_some.mp hstep
    cases hstep
    obtain ⟨socket, hsocket⟩ := isSome_iff_exists.mp hold
    exact h.handleMessage hsocket
  | setSessionId ws sessionId =>
    obtain ⟨hold, hstep⟩ := ite_none_right_eq_some.mp hstep
    cases hstep
    obtain ⟨socket, hsocket⟩ := isSome_iff_exists.mp hold
    exact h.setSessionId hsocket sessionId
  | drop ws =>
    obtain ⟨_, hstep⟩ := ite_none_right_eq_some.mp hstep
    cases hstep
    exact h.drop ws (fun _ => rfl) fun _ => Iff.rfl
  | close ws =>
    obtain ⟨_, hstep⟩ := ite_none_right_eq_some.mp hstep
    cases hstep
    refine (h.drop ws (fun _ => rfl) fun _ => Iff.rfl).handleClose fun socket hsocket => ?_
    rw [CfWebSocketTransport.drop, sockets_modifySocket, if_pos rfl] at hsocket
    obtain ⟨old, _, rfl⟩ := map_eq_some_iff.mp hsocket
    exact Bool.false_ne_true
  | hibernate =>
    cases hstep
    exact h.hibernate
  | broadcast msg =>
    cases hstep
    exact h.sendAll h.nodup msg (fun _ => rfl) fun _ => Iff.rfl
  | broadcastToSession sessionId msg =>
    cases hstep
    exact h.sendAll (h.nodup.sublist (filter_sublist.map _)) msg (fun _ => rfl)
      fun _ => Iff.rfl

end Knows

variable {history : List (Event M)} {t : CfWebSocketTransport M}

theorem knows (h : run history = some t) : Knows history t := by
  induction history generalizing t with
  | nil =>
    cases h
    exact Knows.initial
  | cons e earlier ih =>
    obtain ⟨before, hbefore, hstep⟩ := bind_eq_some_iff.mp h
    exact (ih hbefore).step hstep

theorem Knows.mem_session (h : Knows history t) (sessionId : String) (ws : Nat) :
    ws ∈ (t.getConnectionsForSession sessionId).map Prod.fst ↔
      ws ∈ t.tracked ∧ lastSet ws history = sessionId := by
  simp only [getConnectionsForSession, tracked, List.mem_map, mem_filter, decide_eq_true_eq]
  constructor
  · rintro ⟨entry, ⟨hentry, hid⟩, rfl⟩
    exact ⟨⟨entry, hentry, rfl⟩, (h.session entry hentry).symm.trans hid⟩
  · rintro ⟨⟨entry, hentry, rfl⟩, hid⟩
    exact ⟨entry, ⟨hentry, (h.session entry hentry).trans hid⟩, rfl⟩

theorem sent_iff {targets : List (Nat × CfTransportConnection)}
    (hnodup : (targets.map Prod.fst).Nodup) (msg : M) {ws : Nat} {socket : WebSocket M}
    (hws : t.sockets ws = some socket) {reached : Prop} [Decidable reached]
    (hreached : socket.isOpen → (ws ∈ targets.map Prod.fst ↔ reached)) :
    ((t.sendAll targets msg).sockets ws).map WebSocket.received = some (socket.received ++
      if socket.isOpen ∧ reached then [msg] else []) := by
  rw [sockets_sendAll t hnodup, hws, map_some]
  by_cases hopen : socket.isOpen
  · by_cases hmem : ws ∈ targets.map Prod.fst
    · rw [if_pos hmem, if_pos ⟨hopen, (hreached hopen).mp hmem⟩, map_some, WebSocket.send,
        if_pos hopen]
    · rw [if_neg hmem, if_neg fun h => hmem ((hreached hopen).mpr h.2), map_some,
        append_nil]
  · have hsame : socket.send msg = socket := if_neg hopen
    rw [hsame, ite_self, if_neg fun h : socket.isOpen = true ∧ reached => hopen h.1,
      append_nil, map_some]

/-- A broadcast adds its message exactly for the open sockets that were heard since the last
hibernation, one to a session exactly for those of them whose session id was last set to it. -/
theorem broadcast_received {history : List (Event M)} {t : CfWebSocketTransport M}
    (h : run history = some t) {ws : Nat} {socket : WebSocket M}
    (hws : t.sockets ws = some socket) (msg : M) :
    ((t.broadcast msg).sockets ws).map WebSocket.received = some (socket.received ++
        if socket.isOpen ∧ Heard ws history then [msg] else []) ∧
      ∀ sessionId, ((t.broadcastToSession sessionId msg).sockets ws).map WebSocket.received =
        some (socket.received ++ if socket.isOpen ∧ Heard ws history ∧
          lastSet ws history = sessionId then [msg] else []) := by
  have hknows := knows h
  have hheard := hknows.heard ws socket hws
  constructor
  · exact sent_iff hknows.nodup msg hws hheard
  · intro sessionId
    refine sent_iff (hknows.nodup.sublist (filter_sublist.map _)) msg hws fun hopen => ?_
    rw [← hheard hopen]
    exact hknows.mem_session sessionId ws

def connectionIdA : ConnectionId := ⟨"a", by decide⟩

/-- A socket that was accepted and has not spoken since the Durable Object slept. -/
def sleeper : List (Event String) := [.hibernate, .setSessionId 0 "s", .accept 0 connectionIdA]

/-- After a message of its client the socket is reached again. -/
theorem broadcast_received_recovered :
    ∃ t socket, run (.message 0 :: sleeper) = some t ∧ t.sockets 0 = some socket ∧
      ((t.broadcast "hello").sockets 0).map WebSocket.received = some ["hello"] :=
  ⟨_, _, rfl, rfl,
    (@broadcast_received String (.message 0 :: sleeper) _ rfl 0 _ rfl "hello").1.trans (by decide)⟩

/-- A socket can be open and its broadcast lost. -/
theorem sleeper_missed : ¬ ∀ (history : List (Event String)) (t : CfWebSocketTransport String),
    run history = some t → ∀ ws socket, t.sockets ws = some socket → socket.isOpen → ∀ msg,
      ((t.broadcast msg).sockets ws).map WebSocket.received = some (socket.received ++ [msg]) := by
  intro h
  have hsleeper := h sleeper _ rfl 0 _ rfl rfl "hello"
  revert hsleeper
  decide

end CrabbyKit.Transport
