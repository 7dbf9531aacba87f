import CrabbyKit.Mcp.Connections

/-!
# OAuth flows of the MCP manager

What it means that a flow completes and sticks; no connection is ever given an OAuth provider, so
that no callback is accepted.
-/

namespace CrabbyKit.Mcp.McpManager

variable {s : McpManager} {i : Nat} {task : Task}

/-- The latest attempt for a server gave an authorization URL, and ended there. -/
def Redirected (s : McpManager) (serverId attempt : Nat) : Prop :=
  s.latest serverId = some attempt ∧
    (∃ authUrl, .redirectToAuthorization authUrl ∈ s.calls attempt) ∧
    ∃ message, s.result attempt = some (.failed message)

/-- The flow that an attempt in the run `before` began completes after `later`, and sticks. -/
structure Completes (before later : List Label) (serverId attempt : Nat)
    (authorizationCode : String) : Prop where
  accepted : ∃ s', (Run.run step {} (before ++ later)).handleOAuthCallback serverId
    authorizationCode = .ok s'
  /-- The reconnect presents what was saved in the attempt. -/
  presented : ∀ s', (Run.run step {} (before ++ later)).handleOAuthCallback serverId
    authorizationCode = .ok s' → ∀ saved, (Run.run step {} before).authData attempt = some saved →
      ∃ own, s'.authData (Run.run step {} (before ++ later)).attempts = some own ∧
        own.codeVerifier = saved.codeVerifier ∧ own.clientInformation = saved.clientInformation
  /-- Every later attempt presents the tokens that were saved in the reconnect. -/
  kept : ∀ s', (Run.run step {} (before ++ later)).handleOAuthCallback serverId
    authorizationCode = .ok s' → ∀ next accessToken refreshToken,
      .saveTokens accessToken refreshToken ∈
        (Run.run step s' next).calls (Run.run step {} (before ++ later)).attempts →
      ∀ after reconnect, (Run.run step s' (next ++ after)).latest serverId = some reconnect →
        reconnect ≠ (Run.run step {} (before ++ later)).attempts →
          ∃ own, (Run.run step s' (next ++ after)).authData reconnect = some own ∧
            own.tokens = some (accessToken, refreshToken)

def NoProvider (s : McpManager) : Prop := ∀ attempt, (s.conns attempt).oauthProvider = none

theorem NoProvider.update (h : s.NoProvider) {attempt : Nat} {conn : McpConnection}
    (hconn : conn.oauthProvider = none) :
    ∀ other, (Function.update s.conns attempt conn other).oauthProvider = none := by
  intro other
  by_cases hother : other = attempt
  · subst hother
    rw [Function.update_self, hconn]
  · rw [Function.update_of_ne hother]
    exact h other

theorem NoProvider.disconnect (h : s.NoProvider) (serverId : Nat) :
    (s.disconnect serverId).NoProvider := by
  obtain ⟨clients, heq, -⟩ := s.disconnect_eq serverId
  rw [heq]
  exact h

theorem NoProvider.connect (h : s.NoProvider) (serverId : Nat) (config : McpServerConfig)
    (caller : Caller) : (s.connect i serverId config caller).NoProvider :=
  NoProvider.update (h.disconnect serverId) rfl

theorem NoProvider.settle (h : s.NoProvider) (caller : Caller) :
    (s.settle i caller).NoProvider := by
  cases caller with
  | register => exact h
  | callback => exact h
  | restore rest =>
    cases rest with
    | nil => exact h
    | cons row rest => exact h.connect row.id row.config (.restore rest)

theorem NoProvider.write (h : s.NoProvider) {attempt : Nat} {conn : McpConnection}
    {result : Nat → Option Result} (hconn : conn.oauthProvider = none) (caller : Caller) :
    (McpManager.settle { s with conns := Function.update s.conns attempt conn, result } i
      caller).NoProvider := by
  have hwritten : NoProvider { s with conns := Function.update s.conns attempt conn, result } :=
    h.update hconn
  exact hwritten.settle caller

theorem NoProvider.saveAll (h : s.NoProvider) (attempt : Nat) (transport : Transport)
    (calls : List ProviderCall) : (s.saveAll attempt transport calls).NoProvider := by
  unfold McpManager.saveAll
  split_ifs
  · exact h
  · exact h

theorem NoProvider.connected (h : s.NoProvider) : (s.connected i task).NoProvider := by
  simp only [McpManager.connected]
  split
  · refine NoProvider.update h ?_
    exact h task.attempt
  · refine NoProvider.settle ?_ task.caller
    refine NoProvider.update h ?_
    exact h task.attempt

theorem NoProvider.advance (h : s.NoProvider) (answer : HostAnswer) :
    (s.advance i answer task).NoProvider := by
  unfold McpManager.advance
  split
  · split_ifs
    · refine h.write ?_ task.caller
      exact h task.attempt
    · exact h
  · rename_i transport _
    have hsaved := h.saveAll task.attempt transport answer.calls
    split_ifs
    · refine hsaved.write ?_ task.caller
      exact hsaved task.attempt
    · exact hsaved.connected
  · rename_i conn _
    split_ifs
    · refine h.write ?_ task.caller
      exact h task.attempt
    · refine h.write ?_ task.caller
      exact h conn

theorem NoProvider.callback_error (h : s.NoProvider) (serverId : Nat)
    (authorizationCode : String) : s.handleOAuthCallback serverId authorizationCode =
      .error ("No OAuth provider for server " ++ toString serverId) := by
  have hnone : ((s.get serverId).bind fun conn => (s.conns conn).oauthProvider) = none := by
    cases s.get serverId with
    | none => rfl
    | some conn => exact h conn
  unfold handleOAuthCallback
  rw [hnone]

theorem NoProvider.step (h : s.NoProvider) (label : Label) : (s.step label).NoProvider := by
  cases label with
  | register config =>
    have hrows : ∀ rows registered started, NoProvider { s with rows, registered, started } :=
      fun _ _ _ => h
    exact (hrows _ _ _).connect s.registered config .register
  | remove serverId => exact h.disconnect serverId
  | restoreConnections =>
    have hstarted : NoProvider { s with started := s.started + 1 } := h
    exact hstarted.settle (.restore s.rows)
  | handleOAuthCallback serverId authorizationCode =>
    simp only [McpManager.step, h.callback_error]
    exact h
  | advance i answer =>
    cases htask : s.tasks i with
    | none =>
      simp only [McpManager.step, htask]
      exact h
    | some task =>
      simp only [McpManager.step, htask]
      exact h.advance answer
  | hibernate => exact fun _ => rfl

theorem callback_refused (labels : List Label) (serverId : Nat) (authorizationCode : String) :
    (Run.run step {} labels).handleOAuthCallback serverId authorizationCode =
      .error ("No OAuth provider for server " ++ toString serverId) := by
  have hnone : (Run.run step {} labels).NoProvider :=
    Run.run_induction (P := fun _ s => NoProvider s) (fun _ => rfl)
      (fun _ label s h => h.step label) labels
  exact hnone.callback_error serverId authorizationCode

/-- No flow completes, whatever happened before its callback. -/
theorem never_completes (before later : List Label) (serverId attempt : Nat)
    (authorizationCode : String) : ¬ Completes before later serverId attempt authorizationCode := by
  intro h
  obtain ⟨s', haccepted⟩ := h.accepted
  rw [callback_refused] at haccepted
  cases haccepted

/-- An attempt for a server with `oauth` ends in a redirect. -/
def redirectedRun : List Label :=
  [.register ⟨"docs", "https://docs.example", .oauth,
      some { redirectUrl := some "https://agent.example/callback" }, none⟩,
    .advance 0 {},
    .advance 0 {
      failed := true
      message := "Unauthorized"
      calls := [.saveClientInformation "client" none, .saveCodeVerifier "verifier",
        .redirectToAuthorization "https://auth.example/authorize"] }]

/-- Its callback is refused at once. -/
theorem redirected_refused : ¬ ∀ before later serverId attempt authorizationCode,
    (Run.run step {} before).Redirected serverId attempt →
      Completes before later serverId attempt authorizationCode := by
  intro h
  have hredirected : (Run.run step {} redirectedRun).Redirected 0 0 :=
    ⟨rfl, ⟨"https://auth.example/authorize", by decide⟩, "Unauthorized", rfl⟩
  obtain ⟨s', haccepted⟩ := (h redirectedRun [] 0 0 "code" hredirected).accepted
  cases haccepted

end CrabbyKit.Mcp.McpManager

/-!
## Every punctual run keeps the connections

The steps of the manager keep what its connections rest on; `handleOAuthCallback` changes nothing,
as no connection has an OAuth provider.
-/

namespace CrabbyKit.Mcp.McpManager

variable {s : McpManager} {i : Nat} {task : Task}

theorem Coherent.rephase (h : s.Coherent) (htask : s.tasks i = some task) {phase : Phase}
    {clients : Nat → Option Client} {conns : Nat → McpConnection}
    (hphase : conns task.attempt = phase.conn task.attempt ∧
      ∀ conn, phase = .listing conn → conn = task.attempt)
    (hconns : ∀ attempt, attempt ≠ task.attempt → conns attempt = s.conns attempt)
    (hentry : ∀ id client, (id, task.attempt) ∈ s.connections →
      (conns task.attempt).client = some client → client = task.attempt ∧
        clients task.attempt = some ⟨id, false⟩ ∧ s.Registered id)
    (hclients : ∀ client, client ≠ task.attempt → clients client = s.clients client)
    (hopened : ∀ id, clients task.attempt = some ⟨id, false⟩ →
      (id, task.attempt) ∈ s.connections ∧ (conns task.attempt).client = some task.attempt) :
    Coherent { s with
      clients, conns, tasks := Function.update s.tasks i (some { task with phase }) } := by
  have hnew : ∀ j t, Function.update s.tasks i (some { task with phase }) j = some t →
      (j = i ∧ t = { task with phase }) ∨ (j ≠ i ∧ s.tasks j = some t) := by
    intro j t ht
    exact (Table.update_eq_some ht).imp_left (And.imp_right fun hnew => (Option.some.inj hnew).symm)
  have hold : ∀ j t, Function.update s.tasks i (some { task with phase }) j = some t →
      ∃ t', s.tasks j = some t' ∧ t'.attempt = t.attempt ∧ t'.serverId = t.serverId := by
    intro j t ht
    rcases hnew j t ht with ⟨rfl, rfl⟩ | ⟨-, hj⟩
    · exact ⟨task, htask, rfl, rfl⟩
    · exact ⟨t, hj, rfl, rfl⟩
  have hfresh : ∀ attempt, attempt = task.attempt →
      (conns attempt).tools = [] ∧ (conns attempt).oauthProvider = none ∧
        ((conns attempt).client = none → (conns attempt).status ≠ .connected) := by
    rintro attempt rfl
    rw [hphase.1]
    cases phase with
    | loading => exact ⟨rfl, rfl, fun _ heq => by cases heq⟩
    | connecting transport => exact ⟨rfl, rfl, fun _ heq => by cases heq⟩
    | listing conn => exact ⟨rfl, rfl, fun hnone => by cases hnone⟩
  refine ⟨⟨h.keys, h.objects, h.made, fun id attempt client hin hown => ?_,
    fun attempt hnone => ?_, fun attempt tool htool => ?_, fun client id hopen => ?_,
    fun j k t t' ht ht' hsame => ?_, fun j t ht => ?_, fun j t id ht hin => ?_, fun j t ht => ?_,
    fun attempt => ?_, fun j hle => ?_, h.past⟩, h.entered, fun id attempt hlatest => ?_⟩
  · by_cases hattempt : attempt = task.attempt
    · subst hattempt
      exact hentry id client hin hown
    · change (conns attempt).client = some client at hown
      rw [hconns attempt hattempt] at hown
      obtain ⟨hclient, hopen, hregistered⟩ := h.client id attempt client hin hown
      exact ⟨hclient, (hclients attempt hattempt).trans hopen, hregistered⟩
  · by_cases hattempt : attempt = task.attempt
    · exact (hfresh attempt hattempt).2.2 hnone
    · change (conns attempt).client = none at hnone
      change (conns attempt).status ≠ _
      rw [hconns attempt hattempt] at hnone ⊢
      exact h.plain attempt hnone
  · change tool ∈ (conns attempt).tools at htool
    by_cases hattempt : attempt = task.attempt
    · rw [(hfresh attempt hattempt).1] at htool
      cases htool
    · rw [hconns attempt hattempt] at htool
      exact h.tools attempt tool htool
  · by_cases hclient : client = task.attempt
    · subst hclient
      exact hopened id hopen
    · obtain ⟨hin, hown⟩ := h.opened client id ((hclients client hclient).symm.trans hopen)
      refine ⟨hin, ?_⟩
      change (conns client).client = some client
      rw [hconns client hclient]
      exact hown
  · obtain ⟨u, hu, hattempt, -⟩ := hold j t ht
    obtain ⟨u', hu', hattempt', -⟩ := hold k t' ht'
    exact h.unique j k u u' hu hu' (hattempt.trans (hsame.trans hattempt'.symm))
  · obtain ⟨u, hu, hattempt, -⟩ := hold j t ht
    exact hattempt ▸ h.begun j u hu
  · obtain ⟨u, hu, hattempt, hserver⟩ := hold j t ht
    exact (h.own j u id hu (hattempt ▸ hin)).trans hserver
  · rcases hnew j t ht with ⟨-, rfl⟩ | ⟨hj, hbefore⟩
    · exact hphase
    · have hne : t.attempt ≠ task.attempt := fun heq => hj (h.unique j i t task hbefore htask heq)
      change conns t.attempt = _ ∧ _
      rw [hconns t.attempt hne]
      exact h.phase j t hbefore
  · by_cases hattempt : attempt = task.attempt
    · exact (hfresh attempt hattempt).2.1
    · change (conns attempt).oauthProvider = none
      rw [hconns attempt hattempt]
      exact h.provider attempt
  · exact Table.free_update h.free le_rfl (h.lt_started htask) j hle
  · by_cases hattempt : attempt = task.attempt
    · exact .inl ⟨i, _, Function.update_self _ _ _, hattempt.symm⟩
    · rcases h.told id attempt hlatest with ⟨j, t, ht, heq⟩ | ⟨result, hresult, hshows⟩
      · refine .inl ⟨j, t, (Function.update_of_ne ?_ _ _).trans ht, heq⟩
        rintro rfl
        obtain rfl := Option.some.inj (htask.symm.trans ht)
        exact hattempt heq.symm
      · refine .inr ⟨result, hresult, ?_⟩
        change (conns attempt).Shows result
        rw [hconns attempt hattempt]
        exact hshows

theorem Coherent.connected (h : s.Coherent) (htask : s.tasks i = some task) {transport : Transport}
    (hphase : task.phase = .connecting transport) (hget : s.get task.serverId = some task.attempt)
    (hregistered : s.Registered task.serverId) : (s.connected i task).Coherent := by
  have hentry := h.get_eq_some_iff.mp hget
  have hconn := (h.phase i task htask).1
  rw [hphase] at hconn
  have hlookup : ∀ clients conns, get { s with clients, conns } task.serverId =
      some task.attempt := fun _ _ => hget
  unfold McpManager.connected
  simp only [hlookup]
  refine h.rephase htask ⟨?_, fun conn heq => by cases heq; rfl⟩
    (fun attempt hne => Function.update_of_ne hne _ _) (fun id client hin hown => ?_)
    (fun client hne => Function.update_of_ne hne _ _) fun id hopen => ?_
  · rw [Function.update_self, hconn]
    rfl
  · rw [Function.update_self] at hown
    have hid := h.own i task id htask hin
    subst hid
    exact ⟨(Option.some.inj hown).symm, Function.update_self _ _ _, hregistered⟩
  · rw [Function.update_self] at hopen
    cases hopen
    exact ⟨hentry, by rw [Function.update_self]⟩

theorem Coherent.saveAll (h : s.Coherent) (attempt : Nat) (transport : Transport)
    (calls : List ProviderCall) : (s.saveAll attempt transport calls).Coherent := by
  unfold McpManager.saveAll
  split_ifs
  · exact ⟨⟨h.keys, h.objects, h.made, h.client, h.plain, h.tools, h.opened, h.unique, h.begun,
      h.own, h.phase, h.provider, h.free, h.past⟩, h.entered, h.told⟩
  · exact h

theorem saveAll_fields (s : McpManager) (attempt : Nat) (transport : Transport)
    (calls : List ProviderCall) : (s.saveAll attempt transport calls).tasks = s.tasks ∧
      (s.saveAll attempt transport calls).connections = s.connections ∧
      (s.saveAll attempt transport calls).rows = s.rows := by
  unfold McpManager.saveAll
  split_ifs
  · exact ⟨rfl, rfl, rfl⟩
  · exact ⟨rfl, rfl, rfl⟩

theorem Coherent.advance (h : s.Coherent) (htask : s.tasks i = some task) {answer : HostAnswer}
    (hpunctual : s.Punctual (.advance i answer)) : (s.advance i answer task).Coherent := by
  unfold McpManager.advance
  cases hphase : task.phase with
  | loading =>
    dsimp only
    split_ifs
    · exact h.fail htask answer.message
    · have hconn := (h.phase i task htask).1
      rw [hphase] at hconn
      refine h.rephase htask ⟨hconn, fun conn heq => by cases heq⟩ (fun _ _ => rfl)
        (fun id client hin hown => ?_) (fun _ _ => rfl) fun id hopen => ?_
      · rw [hconn] at hown
        cases hown
      · exact h.opened task.attempt id hopen
  | connecting transport =>
    dsimp only
    have hsaved := h.saveAll task.attempt transport answer.calls
    obtain ⟨htasks, hconnections, hrows⟩ := s.saveAll_fields task.attempt transport answer.calls
    have hkept := (congrFun htasks i).trans htask
    split_ifs with hfailed
    · exact hsaved.fail hkept answer.message
    · obtain ⟨hget, hregistered⟩ := hpunctual task transport htask hphase
        (Bool.eq_false_iff.mpr hfailed)
      refine hsaved.connected hkept hphase ?_ ?_
      · unfold get at hget ⊢
        rw [hconnections]
        exact hget
      · unfold Registered at hregistered ⊢
        rw [hrows]
        exact hregistered
  | listing conn =>
    dsimp only
    split_ifs
    · exact h.fail htask answer.message
    · exact h.listed htask hphase answer.tools

theorem Coherent.start (h : s.Coherent) : Coherent { s with started := s.started + 1 } :=
  ⟨⟨h.keys, h.objects, h.made, h.client, h.plain, h.tools, h.opened, h.unique, h.begun, h.own,
    h.phase, h.provider, fun j hle => h.free j (Nat.le_of_succ_le hle), h.past⟩, h.entered, h.told⟩

theorem Coherent.register (h : s.Coherent) (config : McpServerConfig) :
    (s.register config).Coherent := by
  have hkept : Kept { s with
      rows := s.rows ++ [⟨s.registered, config⟩]
      registered := s.registered + 1
      started := s.started + 1 } := by
    refine ⟨h.keys, h.objects, h.made, fun id attempt client hentry hown => ?_, h.plain, h.tools,
      h.opened, h.unique, h.begun, h.own, h.phase, h.provider,
      fun j hle => h.free j (Nat.le_of_succ_le hle), h.past⟩
    obtain ⟨hclient, hopen, row, hrow, hid⟩ := h.client id attempt client hentry hown
    exact ⟨hclient, hopen, row, List.mem_append_left _ hrow, hid⟩
  refine hkept.connect (h.free s.started le_rfl) (Nat.lt_succ_self _) (fun id hne attempt hlatest
    hregistered => ?_) h.told
  obtain ⟨row, hrow, hid⟩ := hregistered
  rcases List.mem_append.mp hrow with hold | hlast
  · exact h.entered id attempt hlatest ⟨row, hold, hid⟩
  · rw [List.mem_singleton.mp hlast] at hid
    exact absurd hid.symm hne

theorem Coherent.remove (h : s.Coherent) (serverId : Nat) : (s.remove serverId).Coherent := by
  obtain ⟨hkept, hmem, heq⟩ := h.toKept.disconnect serverId
  unfold McpManager.remove
  generalize s.disconnect serverId = d at hkept hmem heq
  obtain ⟨clients, connections, rfl⟩ : ∃ clients connections, d = { s with clients, connections } :=
    ⟨_, _, heq⟩
  refine ⟨⟨hkept.keys, hkept.objects, hkept.made, fun id attempt client hentry hown => ?_, h.plain,
    h.tools, hkept.opened, h.unique, h.begun, hkept.own, h.phase, h.provider, h.free, h.past⟩,
    fun id attempt hlatest hregistered => ?_, h.told⟩
  · obtain ⟨hclient, hopen, row, hrow, hid⟩ := hkept.client id attempt client hentry hown
    refine ⟨hclient, hopen, row, List.mem_filter.mpr ⟨hrow, decide_eq_true ?_⟩, hid⟩
    rw [hid]
    exact ((hmem id attempt).mp hentry).1
  · obtain ⟨row, hrow, hid⟩ := hregistered
    obtain ⟨hin, hne⟩ := List.mem_filter.mp hrow
    have hother : row.id ≠ serverId := of_decide_eq_true hne
    exact (hmem id attempt).mpr ⟨hid ▸ hother, h.entered id attempt hlatest ⟨row, hin, hid⟩⟩

theorem Coherent.restoreConnections (h : s.Coherent) : s.restoreConnections.Coherent :=
  h.start.settle (h.free s.started le_rfl) (Nat.lt_succ_self _) (.restore s.rows)

theorem coherent_fresh
    (hconnections : s.connections = []) (hconns : ∀ attempt, s.conns attempt = {})
    (hclients : ∀ client, s.clients client = none) (htasks : ∀ i, s.tasks i = none)
    (hlatest : ∀ serverId, s.latest serverId = none) : s.Coherent := by
  refine ⟨⟨?_, ?_, fun entry hentry => ?_, fun id attempt client hentry => ?_,
    fun attempt _ => ?_, fun attempt tool htool => ?_, fun client id hopen => ?_,
    fun j _ t _ ht => ?_, fun j t ht => ?_, fun j t id ht => ?_, fun j t ht => ?_,
    fun attempt => ?_, fun j _ => htasks j, fun id attempt hsome => ?_⟩,
    fun id attempt hsome => ?_, fun id attempt hsome => ?_⟩
  · rw [hconnections]
    exact List.nodup_nil
  · rw [hconnections]
    exact List.nodup_nil
  · rw [hconnections] at hentry
    cases hentry
  · rw [hconnections] at hentry
    cases hentry
  · rw [hconns]
    exact fun heq => by cases heq
  · rw [hconns] at htool
    cases htool
  · rw [hclients] at hopen
    cases hopen
  · cases (htasks j).symm.trans ht
  · cases (htasks j).symm.trans ht
  · cases (htasks j).symm.trans ht
  · cases (htasks j).symm.trans ht
  · rw [hconns]
  · cases (hlatest id).symm.trans hsome
  · cases (hlatest id).symm.trans hsome
  · cases (hlatest id).symm.trans hsome

theorem Coherent.step (h : s.Coherent) {label : Label} (hpunctual : s.Punctual label) :
    (s.step label).Coherent := by
  cases label with
  | register config => exact h.register config
  | remove serverId => exact h.remove serverId
  | restoreConnections => exact h.restoreConnections
  | handleOAuthCallback serverId authorizationCode =>
    simp only [McpManager.step, NoProvider.callback_error h.provider]
    exact h
  | advance i answer =>
    cases htask : s.tasks i with
    | none =>
      simp only [McpManager.step, htask]
      exact h
    | some task =>
      simp only [McpManager.step, htask]
      exact h.advance htask hpunctual
  | hibernate => exact coherent_fresh rfl (fun _ => rfl) (fun _ => rfl) (fun _ => rfl) fun _ => rfl

/-- In a run in which clients are connected only for the entries of registered servers, the
connections follow registration. -/
theorem connections_follow {labels : List Label} (h : Run.Allowed Punctual step {} labels)
    (before after : List Label) (hsplit : labels = before ++ after) :
    (Run.run step {} before).Lawful := by
  have hinitial : ({} : McpManager).Coherent :=
    coherent_fresh rfl (fun _ => rfl) (fun _ => rfl) (fun _ => rfl) fun _ => rfl
  exact (Run.invariant_of_allowed (I := Coherent) hinitial
    (fun s label hs hpunctual => hs.step hpunctual) h before after hsplit).lawful

/-- A server is registered and lists a tool. -/
def listedRun : List Label :=
  [.register ⟨"docs", "https://docs.example", .none, none, none⟩, .advance 0 {}, .advance 0 {},
    .advance 0 { tools := ["search"] }]

theorem connections_follow_listed :
    (Run.run step {} listedRun).Lawful ∧
      (Run.run step {} listedRun).getTools = [⟨"mcp_docs_search", 0⟩] := by
  refine ⟨connections_follow (?_ : Run.Allowed Punctual step {} listedRun) listedRun []
    (List.append_nil _).symm, rfl⟩
  refine Run.allowed_cons trivial <| Run.allowed_cons (fun task transport htask hphase => ?_) <|
    Run.allowed_cons (fun task transport htask hphase => ?_) <|
    Run.allowed_cons (fun task transport htask hphase => ?_) <| Run.allowed_nil _ _ _
  · cases htask
    cases hphase
  · cases htask
    exact fun _ => ⟨rfl, _, List.mem_cons_self, rfl⟩
  · cases htask
    cases hphase

/-- A server is removed while it is being connected. -/
def removedRun : List Label :=
  [.register ⟨"docs", "https://docs.example", .none, none, none⟩, .advance 0 {}, .remove 0,
    .advance 0 {}]

/-- The client that was opened for it stays open. -/
theorem removed_unlawful : ¬ ∀ labels, (Run.run step {} labels).Lawful := by
  intro h
  have hidle : (Run.run step {} removedRun).Idle := by
    intro i
    cases i <;> rfl
  rcases (h removedRun).closed hidle 0 ⟨0, false⟩ rfl with hclosed | ⟨row, hrow, -⟩
  · cases hclosed
  · cases hrow

end CrabbyKit.Mcp.McpManager
