import CrabbyKit.Capabilities.Storage
import CrabbyKit.Core.Json
import CrabbyKit.Session.PathOps
import CrabbyKit.Transport.Delivery

/-!
# What belongs to a session

The parts of a host that its sessions have of their own: a row with its entries, connections, and
the snapshots of rendered prompt sections, whose keys name the session.
-/

namespace CrabbyKit.Spine

open List Function

/-- A store, all of whose entry ids `nanoid` has drawn. -/
structure EntryStore (nanoid : Nat → String) where
  store : SessionStore
  drawn : Nat
  known : ∀ e ∈ store.entries, ∃ n < drawn, nanoid n = e.id

def sessionData (store : SessionStore) (sessionId : String) : Option Session × List SessionEntry :=
  (store.get sessionId, store.entries.filter fun e => e.sessionId = sessionId)

section Reads

variable {a b : SessionStore} {sessionId : String}

theorem get_congr (h : sessionData a sessionId = sessionData b sessionId) :
    a.get sessionId = b.get sessionId := congrArg Prod.fst h

theorem entries_congr (h : sessionData a sessionId = sessionData b sessionId) :
    (a.entries.filter fun e => e.sessionId = sessionId) =
      b.entries.filter fun e => e.sessionId = sessionId := congrArg Prod.snd h

theorem getEntries_congr (h : sessionData a sessionId = sessionData b sessionId) :
    a.getEntries sessionId = b.getEntries sessionId := by
  rw [SessionStore.getEntries, SessionStore.getEntries, entries_congr h]

theorem nextSeq_congr (h : sessionData a sessionId = sessionData b sessionId) :
    a.nextSeq sessionId = b.nextSeq sessionId := by
  rw [SessionStore.nextSeq, SessionStore.nextSeq, entries_congr h]

theorem buildContext_congr (h : sessionData a sessionId = sessionData b sessionId) (now : Instant) :
    a.buildContext sessionId now = b.buildContext sessionId now := by
  have hentries := getEntries_congr h
  have hwalk : ∀ leafId, a.walkFrom sessionId leafId = b.walkFrom sessionId leafId := by
    intro leafId
    rw [SessionStore.walkFrom, SessionStore.walkFrom, SessionStore.entryMap, SessionStore.entryMap,
      hentries]
  unfold SessionStore.buildContext
  rw [get_congr h, hentries]
  simp only [hwalk]

end Reads

namespace EntryStore

variable {nanoid : Nat → String}

/-- `appendEntry` with the next id. -/
def append (s : EntryStore nanoid) (sessionId : String) (data : EntryData) (now : Instant) :
    Except StoreError SessionEntry × EntryStore nanoid :=
  match h : s.store.appendEntry sessionId data (nanoid s.drawn) now with
  | .error e => (.error e, s)
  | .ok (store, entry) =>
    (.ok entry,
      { store := store
        drawn := s.drawn + 1
        known := by
          rw [SessionStore.entries_appendEntry h]
          intro e he
          rcases List.mem_append.mp he with hold | hnew
          · obtain ⟨n, hn, hid⟩ := s.known e hold
            exact ⟨n, Nat.lt_succ_of_lt hn, hid⟩
          · rw [List.mem_singleton.mp hnew]
            exact ⟨s.drawn, Nat.lt_succ_self _, (SessionStore.data_appendEntry h).1.symm⟩ })

variable (s : EntryStore nanoid) {sessionId : String} (data : EntryData) (now : Instant)

theorem append_error {e : StoreError}
    (h : s.store.appendEntry sessionId data (nanoid s.drawn) now = .error e) :
    s.append sessionId data now = (.error e, s) := by
  unfold append
  split
  · rename_i e' he
    rw [h] at he
    cases he
    rfl
  · rename_i hok
    rw [h] at hok
    cases hok

theorem append_ok {store : SessionStore} {entry : SessionEntry}
    (h : s.store.appendEntry sessionId data (nanoid s.drawn) now = .ok (store, entry)) :
    (s.append sessionId data now).1 = .ok entry ∧ (s.append sessionId data now).2.store = store ∧
      (s.append sessionId data now).2.drawn = s.drawn + 1 := by
  unfold append
  split
  · rename_i herror
    rw [h] at herror
    cases herror
  · rename_i hok
    rw [h] at hok
    obtain ⟨rfl, rfl⟩ := Prod.mk.inj (Except.ok.inj hok)
    exact ⟨rfl, rfl, rfl⟩

theorem lookup_next (hunique : Injective nanoid) :
    Table.lookup SessionEntry.id s.store.entries (nanoid s.drawn) = none := by
  rw [Table.lookup_eq_none]
  intro e he hid
  obtain ⟨n, hn, hknown⟩ := s.known e he
  obtain rfl := hunique (hknown.trans hid)
  exact Nat.lt_irrefl _ hn

theorem append_cases (hunique : Injective nanoid) :
    (s.store.get sessionId = none ∧
      s.append sessionId data now = (.error (.sessionNotFound sessionId), s)) ∨
    ∃ session, s.store.get sessionId = some session ∧
      (s.append sessionId data now).1 =
        .ok (s.store.newEntry session data (nanoid s.drawn) now) ∧
      (s.append sessionId data now).2.drawn = s.drawn + 1 ∧
      ∀ other, sessionData (s.append sessionId data now).2.store other =
        if other = sessionId then
          (some (SessionStore.advanceLeaf (nanoid s.drawn) data now session),
            (sessionData s.store sessionId).2 ++
              [s.store.newEntry session data (nanoid s.drawn) now])
        else sessionData s.store other := by
  cases hget : s.store.get sessionId with
  | none =>
    refine Or.inl ⟨rfl, append_error s data now ?_⟩
    rw [SessionStore.appendEntry, hget]
  | some session =>
    have hid : session.id = sessionId := (Table.mem_of_lookup hget).2
    have hok : s.store.appendEntry sessionId data (nanoid s.drawn) now =
        .ok (({ s.store with entries := s.store.entries ++
            [s.store.newEntry session data (nanoid s.drawn) now] } : SessionStore).updateSession
              sessionId (SessionStore.advanceLeaf (nanoid s.drawn) data now),
          s.store.newEntry session data (nanoid s.drawn) now) := by
      rw [SessionStore.appendEntry, hget]
      simp only [s.lookup_next hunique, Option.isSome_none, Bool.false_eq_true, if_false,
        SessionStore.newEntry, hid]
    obtain ⟨hresult, hstore, hdrawn⟩ := append_ok s data now hok
    refine Or.inr ⟨session, rfl, hresult, hdrawn, fun other => ?_⟩
    have hrow := SessionStore.get_appendEntry hok other
    have hentries := SessionStore.entries_appendEntry hok
    rw [hstore, sessionData, hrow, hentries, filter_append]
    by_cases hother : other = sessionId
    · subst hother
      have hnew : (s.store.newEntry session data (nanoid s.drawn) now).sessionId = other := hid
      simp [hget, hnew, sessionData]
    · have hnew : (s.store.newEntry session data (nanoid s.drawn) now).sessionId ≠ other := by
        rintro rfl
        exact hother hid
      simp [hother, hnew, sessionData]

structure Same (sessionId : String) (a b : EntryStore nanoid) : Prop where
  data : sessionData a.store sessionId = sessionData b.store sessionId
  drawn : a.drawn = b.drawn

theorem append_same {a b : EntryStore nanoid} (hunique : Injective nanoid)
    (h : Same sessionId a b) :
    (b.append sessionId data now).1 = (a.append sessionId data now).1 ∧
      Same sessionId (a.append sessionId data now).2 (b.append sessionId data now).2 := by
  have hget := get_congr h.data
  rcases @append_cases nanoid a sessionId data now hunique with
    ⟨hnone, ha⟩ | ⟨session, hsome, haresult, hadrawn, hadata⟩
  · rcases @append_cases nanoid b sessionId data now hunique with
      ⟨-, hb⟩ | ⟨session, hsome, -⟩
    · rw [ha, hb]
      exact ⟨rfl, h⟩
    · rw [← hget, hnone] at hsome
      cases hsome
  · rcases @append_cases nanoid b sessionId data now hunique with
      ⟨hnone, -⟩ | ⟨session', hsome', hbresult, hbdrawn, hbdata⟩
    · rw [← hget, hsome] at hnone
      cases hnone
    · rw [← hget, hsome] at hsome'
      obtain rfl := Option.some.inj hsome'
      have hid : session.id = sessionId := (Table.mem_of_lookup hsome).2
      have hnew : b.store.newEntry session data (nanoid b.drawn) now =
          a.store.newEntry session data (nanoid a.drawn) now := by
        simp only [SessionStore.newEntry, hid, nextSeq_congr h.data, h.drawn]
      refine ⟨by rw [haresult, hbresult, hnew], ?_, by rw [hadrawn, hbdrawn, h.drawn]⟩
      rw [hadata, hbdata, if_pos rfl, if_pos rfl, hnew, h.data, h.drawn]

theorem append_other (hunique : Injective nanoid) {other : String} (hother : other ≠ sessionId) :
    sessionData (s.append sessionId data now).2.store other = sessionData s.store other := by
  rcases @append_cases nanoid s sessionId data now hunique with
    ⟨-, h⟩ | ⟨session, -, -, -, hdata⟩
  · rw [h]
  · rw [hdata, if_neg hother]

end EntryStore

open Transport

abbrev Connections := { t : CfWebSocketTransport Json // t.tracked.Nodup }

namespace Connections

def deliver (t : Connections) (target : Option String) (msg : Json) : Connections where
  val :=
    match target with
    | some sessionId => t.val.broadcastToSession sessionId msg
    | none => t.val.broadcast msg
  property := by
    have hconnections : ∀ targets, (t.val.sendAll targets msg).tracked = t.val.tracked :=
      fun targets => congrArg (List.map Prod.fst) (t.val.connections_sendAll targets msg)
    cases target with
    | none => exact (hconnections _).symm ▸ t.property
    | some sessionId => exact (hconnections _).symm ▸ t.property

def deliverAll (t : Connections) (messages : List (Option String × Json)) : Connections :=
  messages.foldl (fun t message => t.deliver message.1 message.2) t

structure Same (sessionId : String) (a b : Connections) : Prop where
  connections : a.val.getConnectionsForSession sessionId = b.val.getConnectionsForSession sessionId
  sockets : ∀ entry ∈ a.val.getConnectionsForSession sessionId,
    a.val.sockets entry.1 = b.val.sockets entry.1

theorem same_refl (sessionId : String) (t : Connections) : Same sessionId t t :=
  ⟨rfl, fun _ _ => rfl⟩

variable {sessionId : String}

variable {a b : Connections}

theorem same_trans {c : Connections} (h : Same sessionId a b)
    (h' : Same sessionId b c) : Same sessionId a c where
  connections := h.connections.trans h'.connections
  sockets entry hentry :=
    (h.sockets entry hentry).trans (h'.sockets entry (h.connections ▸ hentry))

variable (t : Connections)

theorem connections_deliver (target : Option String) (msg : Json) :
    (t.deliver target msg).val.connections = t.val.connections := by
  cases target with
  | none => exact t.val.connections_sendAll _ msg
  | some sessionId => exact t.val.connections_sendAll _ msg

theorem getConnectionsForSession_deliver (target : Option String) (msg : Json)
    (sessionId : String) :
    (t.deliver target msg).val.getConnectionsForSession sessionId =
      t.val.getConnectionsForSession sessionId := by
  unfold CfWebSocketTransport.getConnectionsForSession
  rw [connections_deliver]

variable {entry : Nat × CfTransportConnection}

theorem connection_unique {entry' : Nat × CfTransportConnection}
    (h : entry ∈ t.val.connections) (h' : entry' ∈ t.val.connections) (heq : entry.1 = entry'.1) :
    entry = entry' :=
  inj_on_of_nodup_map t.property h h' heq

theorem sockets_deliver (hentry : entry ∈ t.val.connections) (target : Option String) (msg : Json) :
    (t.deliver target msg).val.sockets entry.1 =
      if target = none ∨ target = some entry.2.sessionId then
        (t.val.sockets entry.1).map fun socket => socket.send msg else t.val.sockets entry.1 := by
  cases target with
  | none =>
    have hmem : entry.1 ∈ t.val.connections.map Prod.fst := mem_map_of_mem hentry
    have hsent := t.val.sockets_sendAll t.property msg entry.1
    rw [if_pos hmem] at hsent
    rw [if_pos (Or.inl rfl)]
    exact hsent
  | some sessionId =>
    have hnodup : ((t.val.getConnectionsForSession sessionId).map Prod.fst).Nodup :=
      t.property.sublist (filter_sublist.map _)
    have hsent := t.val.sockets_sendAll hnodup msg entry.1
    have hmem : entry.1 ∈ (t.val.getConnectionsForSession sessionId).map Prod.fst ↔
        some sessionId = some entry.2.sessionId := by
      rw [mem_map]
      constructor
      · rintro ⟨other, hother, heq⟩
        obtain ⟨hmem, hsession⟩ := mem_filter.mp hother
        rw [← t.connection_unique hmem hentry heq]
        exact congrArg some (of_decide_eq_true hsession).symm
      · intro heq
        exact ⟨entry, mem_filter.mpr ⟨hentry, decide_eq_true (Option.some.inj heq).symm⟩, rfl⟩
    rw [if_congr hmem rfl rfl] at hsent
    rw [if_congr (or_iff_right (Option.some_ne_none sessionId)) rfl rfl]
    exact hsent

theorem deliver_same (h : Same sessionId a b) (target : Option String) (msg : Json) :
    Same sessionId (a.deliver target msg) (b.deliver target msg) where
  connections := by
    rw [getConnectionsForSession_deliver, getConnectionsForSession_deliver, h.connections]
  sockets entry hentry := by
    rw [getConnectionsForSession_deliver] at hentry
    have ha := (mem_filter.mp hentry).1
    have hb := (mem_filter.mp (h.connections ▸ hentry)).1
    rw [a.sockets_deliver ha, b.sockets_deliver hb, h.sockets entry hentry]

variable {other : String}

theorem deliver_other (hother : other ≠ sessionId) (t : Connections)
    (msg : Json) : Same other t (t.deliver (some sessionId) msg) where
  connections := (getConnectionsForSession_deliver t _ msg other).symm
  sockets entry hentry := by
    obtain ⟨hmem, hsession⟩ := mem_filter.mp hentry
    rw [t.sockets_deliver hmem, if_neg]
    rintro (hnone | hsome)
    · cases hnone
    · rw [of_decide_eq_true hsession] at hsome
      exact hother (Option.some.inj hsome).symm

theorem deliverAll_same (h : Same sessionId a b) (messages : List (Option String × Json)) :
    Same sessionId (a.deliverAll messages) (b.deliverAll messages) := by
  induction messages generalizing a b with
  | nil => exact h
  | cons message rest ih => exact ih (deliver_same h message.1 message.2)

variable {messages : List (Option String × Json)}

theorem deliverAll_other (hother : other ≠ sessionId) (t : Connections)
    (h : ∀ m ∈ messages, m.1 = some sessionId) : Same other t (t.deliverAll messages) := by
  induction messages generalizing t with
  | nil => exact same_refl other t
  | cons message rest ih =>
    have hfirst : message.1 = some sessionId := h message mem_cons_self
    have hdelivered : Same other t (t.deliver message.1 message.2) := by
      rw [hfirst]
      exact deliver_other hother t message.2
    exact same_trans hdelivered (ih _ fun m hm => h m (mem_cons_of_mem _ hm))

theorem received_deliverAll (hentry : entry ∈ t.val.connections) {socket : WebSocket Json}
    (hsocket : t.val.sockets entry.1 = some socket) (hopen : socket.isOpen = true)
    (messages : List (Option String × Json)) :
    (t.deliverAll messages).val.sockets entry.1 =
      some { socket with
        received := socket.received ++ (messages.filter fun m =>
          m.1 = none ∨ m.1 = some entry.2.sessionId).map Prod.snd } := by
  induction messages generalizing t socket with
  | nil => simpa [deliverAll] using hsocket
  | cons message rest ih =>
    have hafter : entry ∈ (t.deliver message.1 message.2).val.connections := by
      rw [connections_deliver]
      exact hentry
    have hsent := t.sockets_deliver hentry message.1 message.2
    rw [hsocket, Option.map_some, WebSocket.send, if_pos hopen] at hsent
    change ((t.deliver message.1 message.2).deliverAll rest).val.sockets entry.1 = _
    by_cases hreached : message.1 = none ∨ message.1 = some entry.2.sessionId
    · rw [if_pos hreached] at hsent
      rw [ih _ hafter hsent hopen]
      simp [hreached]
    · rw [if_neg hreached] at hsent
      rw [ih _ hafter hsent hopen]
      simp [hreached]

/-- The transport after one more client of a session has connected. -/
def connected (t : Connections) (ws : Nat) (hws : ws ∉ t.val.tracked) (sessionId : String) :
    Connections where
  val :=
    { sockets := Function.update t.val.sockets ws
        (some ⟨true, ⟨sessionId, ⟨"c1", by decide⟩⟩, []⟩)
      connections := t.val.connections ++ [(ws, ⟨⟨"c1", by decide⟩, sessionId, false⟩)] }
  property := by
    unfold CfWebSocketTransport.tracked
    rw [List.map_append]
    refine List.nodup_append.mpr ⟨t.property, List.nodup_singleton ws, fun a ha b hb heq => ?_⟩
    obtain rfl : a = ws := heq.trans (List.mem_singleton.mp hb)
    exact hws ha

theorem exists_reached (hother : other ≠ sessionId) (t : Connections)
    (h : ∃ m ∈ messages, m.1 = none ∨ m.1 = some other) :
    ∃ t' : Connections, Same sessionId t t' ∧ ¬Same other t' (t'.deliverAll messages) := by
  have hfresh : t.val.tracked.foldl max 0 + 1 ∉ t.val.tracked := by
    intro hmem
    have hle := (SessionStore.le_foldl_max t.val.tracked 0).2 _ hmem
    omega
  generalize t.val.tracked.foldl max 0 + 1 = ws at hfresh
  refine ⟨t.connected ws hfresh other, ⟨?_, ?_⟩, fun hsame => ?_⟩
  · unfold CfWebSocketTransport.getConnectionsForSession connected
    rw [filter_append]
    simp [hother]
  · intro entry hentry
    have hne : entry.1 ≠ ws := by
      rintro rfl
      exact hfresh (mem_map_of_mem (mem_filter.mp hentry).1)
    exact (update_of_ne hne _ _).symm
  · have hmem : (ws, ⟨⟨"c1", by decide⟩, other, false⟩) ∈
        (t.connected ws hfresh other).val.connections :=
      mem_append_right _ (mem_singleton.mpr rfl)
    have hsocket : (t.connected ws hfresh other).val.sockets ws =
        some ⟨true, ⟨other, ⟨"c1", by decide⟩⟩, []⟩ := update_self ws _ t.val.sockets
    have hreceived := received_deliverAll _ hmem hsocket rfl messages
    have hown := hsame.sockets _ (mem_filter.mpr ⟨hmem, decide_eq_true rfl⟩)
    rw [hreceived, hsocket] at hown
    have hnone : [] = [] ++
        (messages.filter fun m => m.1 = none ∨ m.1 = some other).map Prod.snd :=
      congrArg WebSocket.received (Option.some.inj hown)
    obtain ⟨m, hm, hreaches⟩ := h
    have hin : m.2 ∈ (messages.filter fun m => m.1 = none ∨ m.1 = some other).map Prod.snd :=
      mem_map_of_mem (mem_filter.mpr ⟨hm, decide_eq_true hreaches⟩)
    rw [nil_append] at hnone
    rw [← hnone] at hin
    cases hin

end Connections

open Capabilities

def bundleInspectionCapId : Key := "_bundle-inspection".toList

def bundleInspectionPrefix (sessionId : String) : Key :=
  ("prompt-sections:" ++ sessionId ++ ":v=").toList

def bundleInspectionKey (sessionId bundleVersionId : String) : Key :=
  bundleInspectionPrefix sessionId ++ bundleVersionId.toList

def snapshotKey (sessionId bundleVersionId : String) : Key :=
  keyPrefix bundleInspectionCapId ++ bundleInspectionKey sessionId bundleVersionId

def SnapshotOf (sessionId : String) (key : Key) : Prop :=
  keyPrefix bundleInspectionCapId ++ bundleInspectionPrefix sessionId <+: key

theorem snapshotOf_key (sessionId bundleVersionId : String) :
    SnapshotOf sessionId (snapshotKey sessionId bundleVersionId) := by
  unfold SnapshotOf snapshotKey bundleInspectionKey
  rw [← append_assoc]
  exact prefix_append _ _

/-- No other session's snapshots are found under the key. -/
def PrivateTo (sessionId : String) (key : Key) : Prop :=
  ∀ other, other ≠ sessionId → ¬SnapshotOf other key

theorem eq_of_privateTo {sessionId other bundleVersionId : String}
    (h : PrivateTo sessionId (snapshotKey other bundleVersionId)) : other = sessionId := by
  by_contra hother
  exact h other hother (snapshotOf_key other bundleVersionId)

end CrabbyKit.Spine
