import CrabbyKit.Core.Table
import CrabbyKit.Mcp.Manager

/-!
# MCP connections follow registration

Each attempt writes its own connection object, and a client that it has opened is closed with the
entry of that object. When a client is connected only for an attempt that is still the entry of a
registered server, the entries, their tools and the open clients follow the rows.
-/

namespace CrabbyKit.Mcp

open List Function

def McpConnection.Shows (conn : McpConnection) : Result → Prop
  | .failed message => conn.status = .error ∧ conn.tools = [] ∧ conn.error = some message
  | .connected tools => conn.status = .connected ∧ conn.tools = tools ∧ conn.error = none

def Phase.conn (attempt : Nat) : Phase → McpConnection
  | .loading => {}
  | .connecting _ => {}
  | .listing _ => { status := .connected, client := some attempt }

namespace McpManager

variable (s : McpManager)

def Registered (serverId : Nat) : Prop := ∃ row ∈ s.rows, row.id = serverId

def Idle : Prop := ∀ i, s.tasks i = none

/-- What is promised of the connections at any point. -/
structure Lawful : Prop where
  /-- A tool on offer is one of a registered server. -/
  offered : ∀ tool ∈ s.getTools, ∃ row ∈ s.rows, ∃ client, s.clients tool.client = some client ∧
    client.serverId = row.id
  /-- While nothing is in progress, a registered server that was connected has one entry, which
  shows what its latest attempt came to. -/
  shown : s.Idle → ∀ row ∈ s.rows, ∀ attempt, s.latest row.id = some attempt →
    (s.connections.filter fun entry => entry.1 = row.id) = [(row.id, attempt)] ∧
      ∃ result, s.result attempt = some result ∧ (s.conns attempt).Shows result
  /-- An open client is the current one of a registered server. -/
  closed : s.Idle → ∀ client c, s.clients client = some c → c.closed = true ∨
    ∃ row ∈ s.rows, row.id = c.serverId ∧ ∃ attempt, s.get row.id = some attempt ∧
      (s.conns attempt).client = some client

/-- A client is connected only for an attempt that is the entry of a registered server. -/
def Punctual : Label → Prop
  | .advance i answer => ∀ task transport, s.tasks i = some task →
    task.phase = .connecting transport → answer.failed = false →
      s.get task.serverId = some task.attempt ∧ s.Registered task.serverId
  | _ => True

/-- What holds of the entries, the objects and the clients in punctual runs. -/
structure Kept : Prop where
  keys : (s.connections.map Prod.fst).Nodup
  objects : (s.connections.map Prod.snd).Nodup
  made : ∀ entry ∈ s.connections, entry.2 < s.attempts
  /-- The client of an entry is its own, open, and of a registered server. -/
  client : ∀ serverId attempt client, (serverId, attempt) ∈ s.connections →
    (s.conns attempt).client = some client →
      client = attempt ∧ s.clients attempt = some ⟨serverId, false⟩ ∧ s.Registered serverId
  plain : ∀ attempt, (s.conns attempt).client = none →
    (s.conns attempt).status ≠ .connected
  tools : ∀ attempt, ∀ tool ∈ (s.conns attempt).tools, tool.client = attempt
  opened : ∀ client serverId, s.clients client = some ⟨serverId, false⟩ →
    (serverId, client) ∈ s.connections ∧ (s.conns client).client = some client
  /-- Each attempt in progress has an object of its own, in the state that its phase says. -/
  unique : ∀ i j task task', s.tasks i = some task → s.tasks j = some task' →
    task.attempt = task'.attempt → i = j
  begun : ∀ i task, s.tasks i = some task → task.attempt < s.attempts
  own : ∀ i task serverId, s.tasks i = some task → (serverId, task.attempt) ∈ s.connections →
    serverId = task.serverId
  phase : ∀ i task, s.tasks i = some task →
    s.conns task.attempt = task.phase.conn task.attempt ∧
      ∀ conn, task.phase = .listing conn → conn = task.attempt
  provider : ∀ attempt, (s.conns attempt).oauthProvider = none
  free : ∀ i, s.started ≤ i → s.tasks i = none
  past : ∀ serverId attempt, s.latest serverId = some attempt → attempt < s.attempts

def Entered (serverId : Nat) : Prop := ∀ attempt, s.latest serverId = some attempt →
  s.Registered serverId → (serverId, attempt) ∈ s.connections

/-- The latest attempts are in progress, or their objects show what they came to. -/
def Told : Prop := ∀ serverId attempt, s.latest serverId = some attempt →
  (∃ i task, s.tasks i = some task ∧ task.attempt = attempt) ∨
    ∃ result, s.result attempt = some result ∧ (s.conns attempt).Shows result

/-- The invariant of punctual runs. -/
structure Coherent : Prop extends Kept s where
  entered : ∀ serverId, s.Entered serverId
  told : s.Told

variable {s} {i : Nat} {task : Task}

variable {serverId : Nat}

theorem Kept.get_eq_some_iff (h : s.Kept) {attempt : Nat} :
    s.get serverId = some attempt ↔ (serverId, attempt) ∈ s.connections := by
  have hlookup : s.get serverId = (Table.lookup Prod.fst s.connections serverId).map Prod.snd := rfl
  rw [hlookup, Option.map_eq_some_iff]
  constructor
  · rintro ⟨entry, hfound, rfl⟩
    obtain ⟨hentry, rfl⟩ := (Table.lookup_eq_some h.keys).mp hfound
    exact hentry
  · intro hentry
    exact ⟨_, (Table.lookup_eq_some h.keys).mpr ⟨hentry, rfl⟩, rfl⟩

theorem Kept.filter_eq (h : s.Kept) {attempt : Nat} (hentry : (serverId, attempt) ∈ s.connections) :
    (s.connections.filter fun entry => entry.1 = serverId) = [(serverId, attempt)] := by
  have hsame : (s.connections.filter fun entry => entry.1 = serverId) =
      s.connections.filter (· = (serverId, attempt)) := by
    refine filter_congr fun entry hin => decide_eq_decide.mpr ⟨fun hkey => ?_, fun heq => ?_⟩
    · exact inj_on_of_nodup_map h.keys hin hentry hkey
    · rw [heq]
  rw [hsame, List.filter_eq, count_eq_one_of_mem (Nodup.of_map _ h.keys) hentry]
  rfl

theorem Coherent.lawful (h : s.Coherent) : s.Lawful := by
  refine ⟨fun tool htool => ?_, fun hidle row hrow attempt hlatest => ?_,
    fun hidle client c hclient => ?_⟩
  · obtain ⟨entry, hentry, htools⟩ := mem_flatMap.mp htool
    split_ifs at htools with hstatus
    · cases hopen : (s.conns entry.2).client with
      | none => exact absurd hstatus (h.plain entry.2 hopen)
      | some client =>
        obtain ⟨-, hclient, row, hrow, hid⟩ := h.client entry.1 entry.2 client hentry hopen
        exact ⟨row, hrow, _, h.tools entry.2 tool htools ▸ hclient, hid.symm⟩
    · cases htools
  · have hentry := h.entered row.id attempt hlatest ⟨row, hrow, rfl⟩
    refine ⟨h.filter_eq hentry, ?_⟩
    rcases h.told row.id attempt hlatest with ⟨i, task, htask, -⟩ | hshown
    · cases (hidle i).symm.trans htask
    · exact hshown
  · obtain ⟨serverId, closed⟩ := c
    cases closed with
    | true => exact .inl rfl
    | false =>
      obtain ⟨hentry, hown⟩ := h.opened client serverId hclient
      obtain ⟨-, -, row, hrow, hid⟩ := h.client serverId client client hentry hown
      exact .inr ⟨row, hrow, hid, client, h.get_eq_some_iff.mpr (hid ▸ hentry), hown⟩

theorem disconnect_eq (s : McpManager) (serverId : Nat) :
    ∃ clients, s.disconnect serverId =
        { s with clients, connections := s.connections.filter fun entry => entry.1 ≠ serverId } ∧
      (∀ client id, clients client = some ⟨id, false⟩ → s.clients client = some ⟨id, false⟩) ∧
      (∀ client attempt, s.get serverId = some attempt →
        (s.conns attempt).client = some client → ∀ id, clients client ≠ some ⟨id, false⟩) ∧
      ∀ client, (∀ attempt, s.get serverId = some attempt →
        (s.conns attempt).client ≠ some client) → clients client = s.clients client := by
  unfold disconnect
  cases hget : s.get serverId with
  | none =>
    refine ⟨s.clients, rfl, fun _ _ hopen => hopen, fun _ _ hsome => ?_, fun _ _ => rfl⟩
    cases hsome
  | some attempt =>
    simp only [closeClient]
    cases hclient : (s.conns attempt).client with
    | none =>
      refine ⟨s.clients, rfl, fun _ _ hopen => hopen, fun _ other hsome hown => ?_, fun _ _ => rfl⟩
      cases hsome
      cases hclient.symm.trans hown
    | some client =>
      refine ⟨Function.update s.clients client
        ((s.clients client).map fun c => { c with closed := true }), rfl, fun other id hopen => ?_,
        fun other found hsome hown id hopen => ?_, fun other hother => ?_⟩
      · by_cases heq : other = client
        · subst heq
          rw [update_self] at hopen
          obtain ⟨c, -, hc⟩ := Option.map_eq_some_iff.mp hopen
          cases hc
        · rwa [update_of_ne heq] at hopen
      · cases hsome
        cases hclient.symm.trans hown
        rw [update_self] at hopen
        obtain ⟨c, -, hc⟩ := Option.map_eq_some_iff.mp hopen
        cases hc
      · refine update_of_ne (fun heq => ?_) _ _
        subst heq
        exact hother attempt rfl hclient

theorem Kept.disconnect (h : s.Kept) (serverId : Nat) :
    (s.disconnect serverId).Kept ∧
      (∀ id attempt, (id, attempt) ∈ (s.disconnect serverId).connections ↔
        id ≠ serverId ∧ (id, attempt) ∈ s.connections) ∧
      (s.disconnect serverId) = { s with
        clients := (s.disconnect serverId).clients
        connections := (s.disconnect serverId).connections } := by
  obtain ⟨clients, heq, hopen, hclosed, hother⟩ := s.disconnect_eq serverId
  rw [heq]
  have hmem : ∀ id attempt, (id, attempt) ∈ s.connections.filter (fun entry => entry.1 ≠ serverId) ↔
      id ≠ serverId ∧ (id, attempt) ∈ s.connections := by
    intro id attempt
    simp only [mem_filter, decide_eq_true_eq, and_comm]
  have hsub : (s.connections.filter fun entry => entry.1 ≠ serverId).Sublist s.connections :=
    filter_sublist
  refine ⟨⟨h.keys.sublist (hsub.map _), h.objects.sublist (hsub.map _),
    fun entry hentry => h.made entry (hsub.subset hentry), fun id attempt client hentry hown => ?_,
    h.plain, h.tools, fun client id hclient => ?_, h.unique, h.begun,
    fun j task id htask hentry => h.own j task id htask (hsub.subset hentry), h.phase, h.provider,
    h.free, h.past⟩, hmem, rfl⟩
  · obtain ⟨hid, hbefore⟩ := (hmem id attempt).mp hentry
    obtain ⟨rfl, hclient, hregistered⟩ := h.client id attempt client hbefore hown
    refine ⟨rfl, (hother client fun found hget hfound => ?_).trans hclient, hregistered⟩
    -- The closed client is that of the entry of `serverId`.
    have hentry' := h.get_eq_some_iff.mp hget
    obtain ⟨rfl, hserver, -⟩ := h.client serverId found client hentry' hfound
    rw [hclient] at hserver
    cases hserver
    exact hid rfl
  · obtain ⟨hentry, hown⟩ := h.opened client id (hopen client id hclient)
    refine ⟨(hmem id client).mpr ⟨?_, hentry⟩, hown⟩
    rintro rfl
    exact hclosed client client (h.get_eq_some_iff.mpr hentry) hown id hclient

theorem Kept.connect (h : s.Kept) {config : McpServerConfig} {caller : Caller}
    (hfree : s.tasks i = none) (hi : i < s.started)
    (hentered : ∀ id, id ≠ serverId → s.Entered id) (htold : s.Told) :
    (s.connect i serverId config caller).Coherent := by
  obtain ⟨hkept, hmem, heq⟩ := h.disconnect serverId
  unfold McpManager.connect
  generalize s.disconnect serverId = d at hkept hmem heq
  obtain ⟨clients, connections, rfl⟩ : ∃ clients connections, d = { s with clients, connections } :=
    ⟨_, _, heq⟩
  dsimp only at hmem hkept ⊢
  have hnew : ∀ id attempt, (id, attempt) ∈ connections ++ [(serverId, s.attempts)] →
      (id, attempt) ∈ connections ∨ (id = serverId ∧ attempt = s.attempts) := by
    intro id attempt hentry
    rcases mem_append.mp hentry with hold | hlast
    · exact .inl hold
    · cases mem_singleton.mp hlast
      exact .inr ⟨rfl, rfl⟩
  have hold : ∀ id attempt, (id, attempt) ∈ connections → attempt ≠ s.attempts :=
    fun id attempt hentry => (hkept.made _ hentry).ne
  have htasks : ∀ j t, Function.update s.tasks i
      (some ⟨s.attempts, serverId, config, .loading, caller⟩) j = some t →
      (j = i ∧ t = ⟨s.attempts, serverId, config, .loading, caller⟩) ∨
        (j ≠ i ∧ s.tasks j = some t) := by
    intro j t ht
    exact (Table.update_eq_some ht).imp_left (And.imp_right fun hnew => (Option.some.inj hnew).symm)
  have hbefore : ∀ j t, s.tasks j = some t → t.attempt ≠ s.attempts :=
    fun j t ht => (h.begun j t ht).ne
  refine ⟨⟨?_, ?_, fun entry hentry => ?_, fun id attempt client hentry hown => ?_,
    fun attempt hnone => ?_, fun attempt tool htool => ?_, fun client id hclient => ?_,
    fun j k t t' ht ht' hsame => ?_, fun j t ht => ?_, fun j t id ht hentry => ?_,
    fun j t ht => ?_, fun attempt => ?_, fun j hle => ?_, fun id attempt hlatest => ?_⟩,
    fun id attempt hlatest hregistered => ?_, fun id attempt hlatest => ?_⟩
  · rw [map_append, nodup_append]
    refine ⟨hkept.keys, nodup_singleton _, fun key hkey key' hkey' => ?_⟩
    obtain ⟨entry, hentry, rfl⟩ := mem_map.mp hkey
    rw [mem_singleton.mp hkey']
    exact ((hmem entry.1 entry.2).mp hentry).1
  · rw [map_append, nodup_append]
    refine ⟨hkept.objects, nodup_singleton _, fun key hkey key' hkey' => ?_⟩
    obtain ⟨entry, hentry, rfl⟩ := mem_map.mp hkey
    rw [mem_singleton.mp hkey']
    exact hold entry.1 entry.2 hentry
  · rcases hnew entry.1 entry.2 hentry with hin | ⟨-, hlast⟩
    · exact Nat.lt_succ_of_lt (hkept.made entry hin)
    · exact hlast ▸ Nat.lt_succ_self _
  · dsimp only at hown
    rcases hnew id attempt hentry with hin | ⟨-, rfl⟩
    · rw [update_of_ne (hold id attempt hin)] at hown
      exact hkept.client id attempt client hin hown
    · rw [update_self] at hown
      cases hown
  · dsimp only at hnone ⊢
    by_cases hattempt : attempt = s.attempts
    · subst hattempt
      rw [update_self]
      exact fun hstatus => by cases hstatus
    · rw [update_of_ne hattempt] at hnone ⊢
      exact h.plain attempt hnone
  · dsimp only at htool
    by_cases hattempt : attempt = s.attempts
    · subst hattempt
      rw [update_self] at htool
      cases htool
    · rw [update_of_ne hattempt] at htool
      exact h.tools attempt tool htool
  · obtain ⟨hentry, hown⟩ := hkept.opened client id hclient
    refine ⟨mem_append_left _ hentry, ?_⟩
    dsimp only
    rw [update_of_ne (hold id client hentry)]
    exact hown
  · rcases htasks j t ht with ⟨rfl, rfl⟩ | ⟨-, hj⟩
    · rcases htasks k t' ht' with ⟨rfl, -⟩ | ⟨-, hk⟩
      · rfl
      · exact absurd hsame.symm (hbefore k t' hk)
    · rcases htasks k t' ht' with ⟨rfl, rfl⟩ | ⟨-, hk⟩
      · exact absurd hsame (hbefore j t hj)
      · exact h.unique j k t t' hj hk hsame
  · rcases htasks j t ht with ⟨-, rfl⟩ | ⟨-, hj⟩
    · exact Nat.lt_succ_self _
    · exact Nat.lt_succ_of_lt (h.begun j t hj)
  · rcases htasks j t ht with ⟨-, rfl⟩ | ⟨-, hj⟩
    · rcases hnew id _ hentry with hin | ⟨hid, -⟩
      · exact absurd rfl (hold id _ hin)
      · exact hid
    · rcases hnew id t.attempt hentry with hin | ⟨-, hlast⟩
      · exact hkept.own j t id hj hin
      · exact absurd hlast (hbefore j t hj)
  · rcases htasks j t ht with ⟨-, rfl⟩ | ⟨-, hj⟩
    · exact ⟨update_self _ _ _, fun conn hconn => by cases hconn⟩
    · dsimp only
      rw [update_of_ne (hbefore j t hj)]
      exact h.phase j t hj
  · dsimp only
    by_cases hattempt : attempt = s.attempts
    · subst hattempt
      rw [update_self]
    · rw [update_of_ne hattempt]
      exact h.provider attempt
  · exact Table.free_update h.free le_rfl hi j hle
  · rcases Table.update_eq_some hlatest with ⟨-, hnow⟩ | ⟨-, hpast⟩
    · exact Option.some.inj hnow ▸ Nat.lt_succ_self _
    · exact Nat.lt_succ_of_lt (h.past id attempt hpast)
  · rcases Table.update_eq_some hlatest with ⟨rfl, hnow⟩ | ⟨hid, hpast⟩
    · cases hnow
      exact mem_append_right _ (mem_singleton_self _)
    · exact mem_append_left _
        ((hmem id attempt).mpr ⟨hid, hentered id hid attempt hpast hregistered⟩)
  · rcases Table.update_eq_some hlatest with ⟨rfl, hnow⟩ | ⟨-, hlatest⟩
    · cases hnow
      exact .inl ⟨i, _, update_self _ _ _, rfl⟩
    · rcases htold id attempt hlatest with ⟨j, t, ht, hattempt⟩ | ⟨result, hresult, hshows⟩
      · exact .inl ⟨j, t, Table.update_of_taken hfree ht, hattempt⟩
      · refine .inr ⟨result, hresult, ?_⟩
        dsimp only
        rw [update_of_ne (h.past id attempt hlatest).ne]
        exact hshows

theorem disconnect_finish (s : McpManager) (i serverId : Nat) :
    (s.finish i).disconnect serverId = (s.disconnect serverId).finish i := by
  have hget : (s.finish i).get serverId = s.get serverId := rfl
  unfold disconnect
  rw [hget]
  cases s.get serverId with
  | none => rfl
  | some attempt =>
    have hconn : (s.finish i).conns attempt = s.conns attempt := rfl
    simp only [closeClient, hconn]
    cases (s.conns attempt).client <;> rfl

theorem settle_finish (s : McpManager) (i : Nat) (caller : Caller) :
    (s.finish i).settle i caller = s.settle i caller := by
  have hover : ∀ next : Option Task, Function.update (Function.update s.tasks i none) i next =
      Function.update s.tasks i next := fun next => update_idem _ _ _
  cases caller with
  | register =>
    simp only [settle, finish, hover]
  | callback =>
    simp only [settle, finish, hover]
  | restore rest =>
    cases rest with
    | nil => simp only [settle, restoreNext, finish, hover]
    | cons row rest =>
      have htasks : (s.disconnect row.id).tasks = s.tasks := by
        obtain ⟨clients, heq, -⟩ := s.disconnect_eq row.id
        rw [heq]
      simp only [settle, restoreNext, connect, disconnect_finish]
      simp only [finish, htasks, hover]

theorem finish_of_free (hfree : s.tasks i = none) : s.finish i = s := by
  have htasks : Function.update s.tasks i none = s.tasks := by
    rw [← hfree]
    exact update_eq_self i s.tasks
  unfold finish
  rw [htasks]

theorem Coherent.settle (h : s.Coherent) (hfree : s.tasks i = none) (hi : i < s.started)
    (caller : Caller) : (s.settle i caller).Coherent := by
  have hend : (s.finish i).Coherent := by
    rw [finish_of_free hfree]
    exact h
  cases caller with
  | register => exact hend
  | callback => exact hend
  | restore rest =>
    cases rest with
    | nil => exact hend
    | cons row rest => exact h.toKept.connect hfree hi (fun id _ => h.entered id) h.told

theorem Kept.lt_started (h : s.Kept) (htask : s.tasks i = some task) : i < s.started :=
  Table.lt_of_taken h.free htask

variable {conn : McpConnection}

theorem Coherent.conclude (h : s.Coherent) (htask : s.tasks i = some task)
    {result : Result} (hclient : conn.client = (s.conns task.attempt).client)
    (hplain : conn.client = none → conn.status ≠ .connected)
    (htools : ∀ tool ∈ conn.tools, tool.client = task.attempt)
    (hprovider : conn.oauthProvider = none) (hshows : conn.Shows result) :
    (finish { s with
      conns := Function.update s.conns task.attempt conn
      result := Function.update s.result task.attempt (some result) } i).Coherent := by
  have hsame : ∀ attempt, (Function.update s.conns task.attempt conn attempt).client =
      (s.conns attempt).client := by
    intro attempt
    by_cases hattempt : attempt = task.attempt
    · subst hattempt
      rw [update_self, hclient]
    · rw [update_of_ne hattempt]
  have hleft : ∀ j t, Function.update s.tasks i none j = some t → j ≠ i ∧ s.tasks j = some t := by
    intro j t ht
    exact Table.update_none_eq_some ht
  have hother : ∀ j t, j ≠ i → s.tasks j = some t → t.attempt ≠ task.attempt :=
    fun j t hj ht heq => hj (h.unique j i t task ht htask heq)
  refine ⟨⟨h.keys, h.objects, h.made, fun id attempt client hentry hown =>
      h.client id attempt client hentry ((hsame attempt).symm.trans hown),
    fun attempt hnone => ?_, fun attempt tool htool => ?_, fun client id hopen => ?_,
    fun j k t t' ht ht' => h.unique j k t t' (hleft j t ht).2 (hleft k t' ht').2,
    fun j t ht => h.begun j t (hleft j t ht).2,
    fun j t id ht => h.own j t id (hleft j t ht).2, fun j t ht => ?_, fun attempt => ?_,
    fun j hle => ?_, h.past⟩, h.entered, fun id attempt hlatest => ?_⟩
  · change (Function.update s.conns task.attempt conn attempt).client = none at hnone
    change (Function.update s.conns task.attempt conn attempt).status ≠ _
    by_cases hattempt : attempt = task.attempt
    · subst hattempt
      rw [update_self] at hnone ⊢
      exact hplain hnone
    · rw [update_of_ne hattempt] at hnone ⊢
      exact h.plain attempt hnone
  · change tool ∈ (Function.update s.conns task.attempt conn attempt).tools at htool
    by_cases hattempt : attempt = task.attempt
    · subst hattempt
      rw [update_self] at htool
      exact htools tool htool
    · rw [update_of_ne hattempt] at htool
      exact h.tools attempt tool htool
  · obtain ⟨hentry, hown⟩ := h.opened client id hopen
    exact ⟨hentry, (hsame client).trans hown⟩
  · obtain ⟨hj, hbefore⟩ := hleft j t ht
    change Function.update s.conns task.attempt conn t.attempt = _ ∧ _
    rw [update_of_ne (hother j t hj hbefore)]
    exact h.phase j t hbefore
  · change (Function.update s.conns task.attempt conn attempt).oauthProvider = none
    by_cases hattempt : attempt = task.attempt
    · subst hattempt
      rw [update_self, hprovider]
    · rw [update_of_ne hattempt]
      exact h.provider attempt
  · exact Table.free_update h.free le_rfl (h.lt_started htask) j hle
  · by_cases hattempt : attempt = task.attempt
    · subst hattempt
      exact .inr ⟨result, update_self _ _ _, by
        change (Function.update s.conns task.attempt conn task.attempt).Shows result
        rw [update_self]
        exact hshows⟩
    · rcases h.told id attempt hlatest with ⟨j, t, ht, heq⟩ | ⟨result', hresult, hshows'⟩
      · refine .inl ⟨j, t, (update_of_ne ?_ _ _).trans ht, heq⟩
        rintro rfl
        obtain rfl := Option.some.inj (htask.symm.trans ht)
        exact hattempt heq.symm
      · refine .inr ⟨result', (update_of_ne hattempt _ _).trans hresult, ?_⟩
        change (Function.update s.conns task.attempt conn attempt).Shows result'
        rw [update_of_ne hattempt]
        exact hshows'

theorem Coherent.concluded (h : s.Coherent) (htask : s.tasks i = some task)
    {result : Result} (hclient : conn.client = (s.conns task.attempt).client)
    (hplain : conn.client = none → conn.status ≠ .connected)
    (htools : ∀ tool ∈ conn.tools, tool.client = task.attempt)
    (hprovider : conn.oauthProvider = none) (hshows : conn.Shows result) :
    (McpManager.settle { s with
      conns := Function.update s.conns task.attempt conn
      result := Function.update s.result task.attempt (some result) } i task.caller).Coherent := by
  rw [← settle_finish]
  have hconcluded := h.conclude htask hclient hplain htools hprovider hshows
  exact hconcluded.settle (update_self _ _ _) (h.lt_started htask) task.caller

theorem Kept.conn_eq (h : s.Kept) (htask : s.tasks i = some task) :
    (s.conns task.attempt).tools = [] ∧ (s.conns task.attempt).error = none ∧
      (s.conns task.attempt).oauthProvider = none := by
  rw [(h.phase i task htask).1]
  cases task.phase <;> exact ⟨rfl, rfl, rfl⟩

theorem Coherent.fail (h : s.Coherent) (htask : s.tasks i = some task) (message : String) :
    (s.fail i task message).Coherent := by
  obtain ⟨htools, -, hprovider⟩ := h.conn_eq htask
  refine h.concluded htask rfl (fun _ heq => ?_) (fun tool htool => ?_) hprovider
    ⟨rfl, htools, rfl⟩
  · cases heq
  · rw [htools] at htool
    cases htool

theorem Coherent.listed (h : s.Coherent) (htask : s.tasks i = some task) {conn : Nat}
    (hphase : task.phase = .listing conn) (names : List String) :
    (s.listed i task conn names).Coherent := by
  obtain ⟨hconn, hown⟩ := h.phase i task htask
  obtain rfl := hown conn hphase
  rw [hphase] at hconn
  refine h.concluded htask rfl (fun hnone => ?_) (fun tool htool => ?_) (h.conn_eq htask).2.2
    ⟨?_, rfl, (h.conn_eq htask).2.1⟩
  · change (s.conns task.attempt).client = none at hnone
    rw [hconn] at hnone
    cases hnone
  · obtain ⟨name, -, rfl⟩ := mem_map.mp htool
    rfl
  · change (s.conns task.attempt).status = .connected
    rw [hconn]
    rfl

end McpManager

end CrabbyKit.Mcp
