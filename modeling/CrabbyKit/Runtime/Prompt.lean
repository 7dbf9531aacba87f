import CrabbyKit.Runtime.FirstCall

/-!
# A prompt on an idle session

Both entries of a prompt persist it before the agent is created, so the agent's context
is rebuilt with the prompt in it, and the run adds the prompt again.
-/

namespace CrabbyKit.Runtime

open AgentCore SessionStore List

/-- A prompt as it enters the runtime. -/
inductive PromptCall
  | handlePrompt (sessionId text : String)
  | handleAgentPrompt (opts : SessionRuntime.AgentPromptOpts)
  deriving DecidableEq, Repr

namespace PromptCall

def text : PromptCall → String
  | .handlePrompt _ text => text
  | .handleAgentPrompt opts => opts.text

def resolve (env : Environment) (r : SessionRuntime) :
    PromptCall → Except StoreError (SessionRuntime × String)
  | .handlePrompt sessionId _ => .ok (r, sessionId)
  | .handleAgentPrompt opts => r.resolveSession env opts

/-- Carry out a prompt on its session. -/
def run (env : Environment) (sessionId : String) (r : SessionRuntime) :
    PromptCall → SessionRuntime.PromptOutcome
  | .handlePrompt _ text => r.handlePrompt env sessionId text
  | .handleAgentPrompt opts => r.handleAgentPrompt env sessionId opts.text

end PromptCall

/-- Ids to be drawn that are non-empty, different and unknown to the store. -/
structure FreshSupply (env : Environment) (st : SessionStore) : Prop where
  unmentioned : ∀ i, env.nanoid i ≠ "" ∧ Unmentioned st (env.nanoid i)
  distinct : ∀ i j, env.nanoid i = env.nanoid j → i = j

section Ready

variable {env : Environment} {sessionId : String} {r : SessionRuntime} {st : SessionStore}

theorem Ready.rename (h : Ready env sessionId r) (name : String) (now : Instant) :
    Ready env sessionId { r with store := r.store.rename sessionId name now } := by
  have hid : ∀ s : Session,
      ({ s with name := name, updatedAt := datetimeNow now } : Session).id = s.id := fun _ => rfl
  refine ⟨h.store.updateRow hid fun _ => rfl, ?_, h.fresh, h.distinct⟩
  obtain ⟨s, hs⟩ := h.session
  have hget : (r.store.rename sessionId name now).get sessionId = (r.store.get sessionId).map _ :=
    get_updateSession hid sessionId
  rw [hs] at hget
  exact ⟨_, hget⟩

theorem Ready.nameSession (h : Ready env sessionId r) (text : String) :
    Ready env sessionId (r.nameSession env sessionId text) ∧
      rebuiltViews (r.nameSession env sessionId text).store sessionId =
        rebuiltViews r.store sessionId := by
  unfold SessionRuntime.nameSession
  cases r.store.get sessionId with
  | none => exact ⟨h, rfl⟩
  | some session =>
    simp only
    split_ifs
    · have hpath := path_rename r.store sessionId (SessionRuntime.sessionName text) (r.now env)
        sessionId
      exact ⟨h.rename _ _, congrArg (fun path => (contextSpec path 0).map view) hpath⟩
    · exact ⟨h, rfl⟩

theorem Ready.exists_buildContext (h : Ready env sessionId r) (now : Instant) :
    ∃ messages, r.store.buildContext sessionId now = .ok messages :=
  ⟨_, h.store.buildContext_spec sessionId now⟩

theorem Ready.persist (h : Ready env sessionId r) (text : String) (timestamp : Instant) :
    Ready env sessionId
        (r.append env sessionId (SessionRuntime.userEntryData text timestamp)) ∧
      rebuiltViews (r.append env sessionId (SessionRuntime.userEntryData text timestamp)).store
        sessionId = rebuiltViews r.store sessionId ++ [userView (.plain text)] :=
  ⟨h.append rfl, h.rebuiltViews_append rfl⟩

theorem Ready.handleSteer (h : Ready env sessionId r) (text : String) :
    Ready env sessionId (r.handleSteer env sessionId text) ∧
      rebuiltViews r.store sessionId <+:
        rebuiltViews (r.handleSteer env sessionId text).store sessionId := by
  obtain ⟨hready, happended⟩ := h.persist text (r.now env)
  have hviews := prefix_append (rebuiltViews r.store sessionId) [userView (.plain text)]
  rw [← happended] at hviews
  unfold SessionRuntime.handleSteer
  simp only
  split_ifs
  · exact ⟨⟨hready.store, hready.session, hready.fresh, hready.distinct⟩, hviews⟩
  · exact ⟨hready, hviews⟩

theorem Ready.await (h : Ready env sessionId r) :
    Ready env sessionId (r.await env sessionId) ∧
      rebuiltViews r.store sessionId <+: rebuiltViews (r.await env sessionId).store sessionId := by
  let P : SessionRuntime → Prop := fun r' =>
    Ready env sessionId r' ∧ rebuiltViews r.store sessionId <+: rebuiltViews r'.store sessionId
  have hreceive : ∀ r' input, input ∈ env.arrivals r.ticks → P r' →
      P (r'.receive env sessionId input) := by
    rintro r' input - ⟨hready, hviews⟩
    cases input with
    | steer text =>
      obtain ⟨hready', hviews'⟩ := hready.handleSteer text
      exact ⟨hready', hviews.trans hviews'⟩
    | abort => exact ⟨⟨hready.store, hready.session, hready.fresh, hready.distinct⟩, hviews⟩
  have htick : ∀ (r' : SessionRuntime) tick, P r' → P { r' with ticks := tick } := by
    rintro r' tick ⟨hready, hviews⟩
    exact ⟨⟨hready.store, hready.session, hready.fresh, hready.distinct⟩, hviews⟩
  exact await_keeps hreceive htick ⟨h, prefix_rfl⟩

theorem Ready.ensureAgent (h : Ready env sessionId r) :
    ∃ messages, r.ensureAgent env sessionId =
        .ok { r.await env sessionId with agent := some { messages := messages } } ∧
      messages.map view = rebuiltViews (r.await env sessionId).store sessionId := by
  have hready := h.await.1
  obtain ⟨messages, hmessages⟩ := hready.exists_buildContext ((r.await env sessionId).now env)
  refine ⟨messages, ?_, hready.buildContext_views hmessages⟩
  unfold SessionRuntime.ensureAgent
  simp only [hmessages]
  rfl

theorem Ready.run_idle (h : Ready env sessionId r) (hidle : r.agent = none) (prompt : PromptCall) :
    ∃ r₁, Ready env sessionId r₁ ∧
      rebuiltViews r₁.store sessionId =
        rebuiltViews r.store sessionId ++ [userView (.plain prompt.text)] ∧
      prompt.run env sessionId r = r₁.startRun env sessionId prompt.text := by
  cases prompt with
  | handlePrompt sid text =>
    obtain ⟨hready, hviews⟩ := h.nameSession text
    have hagent : (r.nameSession env sessionId text).agent = none := by
      unfold SessionRuntime.nameSession
      split
      · split_ifs
        · exact hidle
        · exact hidle
      · exact hidle
    obtain ⟨hready₁, hviews₁⟩ :=
      hready.persist text ((r.nameSession env sessionId text).now env)
    refine ⟨_, hready₁, hviews₁.trans ?_, ?_⟩
    · rw [hviews, PromptCall.text]
    · simp only [PromptCall.run, SessionRuntime.handlePrompt, SessionRuntime.isStreaming,
        SessionRuntime.append, hagent, Option.any_none, Bool.false_eq_true, if_false,
        PromptCall.text]
  | handleAgentPrompt opts =>
    obtain ⟨hready₁, hviews₁⟩ := h.persist opts.text (r.now env)
    refine ⟨_, hready₁, hviews₁, ?_⟩
    simp only [PromptCall.run, SessionRuntime.handleAgentPrompt, SessionRuntime.isStreaming,
      hidle, Option.any_none, Bool.false_eq_true, if_false, PromptCall.text]

theorem Ready.startRun_first (h : Ready env sessionId r) (text : String) :
    ∃ r' context first rest, r.startRun env sessionId text = .ran r' context (first :: rest) ∧
      (rebuiltViews r.store sessionId).length < first.length := by
  obtain ⟨messages, hensure, hmessages⟩ := h.ensureAgent
  let ready : SessionRuntime :=
    { r.await env sessionId with agent := some { messages := messages } }
  let s := SessionRuntime.prompt env sessionId { messages := messages } text ready
  have hlength : (rebuiltViews r.store sessionId).length ≤ messages.length := by
    have hle := h.await.2.length_le
    rw [← hmessages, length_map] at hle
    exact hle
  have hgiven : ∃ pending rest, s.host.modelCalls = ready.modelCalls ++
      (messages ++ [SessionRuntime.promptMessage text (ready.now env)] ++ pending) :: rest :=
    prompt_modelCalls { messages := messages } text ready
  obtain ⟨pending, rest, hcalls⟩ := hgiven
  refine ⟨s.host, s.messages,
    messages ++ [SessionRuntime.promptMessage text (ready.now env)] ++ pending, rest, ?_, ?_⟩
  · have hdrop : s.host.modelCalls.drop ready.modelCalls.length =
        (messages ++ [SessionRuntime.promptMessage text (ready.now env)] ++ pending) :: rest := by
      rw [hcalls]
      exact drop_left
    unfold SessionRuntime.startRun
    simp only [hensure]
    rw [← hdrop]
  · simp only [length_append, length_singleton]
    omega

end Ready

def PromptOnce (previous : List AgentMessage) (text : String) (given : List AgentMessage) : Prop :=
  ∃ m, given = previous ++ [m] ∧ m.role = .user ∧
    (m.content = .plain text ∨ m.content = .blocks [.text text])

section Prompt

variable {env : Environment} {sessionId : String} {r : SessionRuntime}

theorem ready_of_resolve {calls : List StoreCall} (h : Fresh calls)
    (hsupply : FreshSupply env (SessionStore.run calls)) {prompt : PromptCall}
    (hresolve : prompt.resolve env { store := SessionStore.run calls } = .ok (r, sessionId))
    {session : Session} (hsession : r.store.get sessionId = some session) :
    Ready env sessionId r ∧ r.agent = none := by
  have hw := wellFormed_run h
  have hstart : ∀ session, (SessionStore.run calls).get sessionId = some session →
      Ready env sessionId { store := SessionStore.run calls } := fun session hs =>
    ⟨hw, ⟨session, hs⟩, fun i _ => hsupply.unmentioned i, fun i j _ _ => hsupply.distinct i j⟩
  cases prompt with
  | handlePrompt sid text =>
    cases hresolve
    exact ⟨hstart session hsession, rfl⟩
  | handleAgentPrompt opts =>
    simp only [PromptCall.resolve, SessionRuntime.resolveSession] at hresolve
    cases hexisting : SessionRuntime.existingSession opts (SessionStore.run calls) with
    | some id =>
      rw [hexisting] at hresolve
      cases hresolve
      exact ⟨hstart session hsession, rfl⟩
    | none =>
      rw [hexisting] at hresolve
      simp only at hresolve
      cases hcreate : (SessionStore.run calls).create (SessionRuntime.createOpts opts)
          (env.nanoid 0) (env.clock 0) with
      | error e =>
        simp only [SessionRuntime.now, hcreate] at hresolve
        cases hresolve
      | ok created =>
        obtain ⟨store, created⟩ := created
        simp only [SessionRuntime.now, hcreate] at hresolve
        cases hresolve
        obtain ⟨-, -, hstore⟩ := create_ok hcreate
        have hentries : store.entries = (SessionStore.run calls).entries := by rw [hstore]
        refine ⟨⟨hw.create hcreate, ⟨session, hsession⟩, fun i _ => ?_, fun i j _ _ =>
          hsupply.distinct i j⟩, rfl⟩
        obtain ⟨hne, hunmentioned⟩ := hsupply.unmentioned i
        refine ⟨hne, ?_⟩
        unfold Unmentioned
        rw [hentries]
        exact hunmentioned

/-- On every session history, with every arrival at every await, a prompt accepted while
no agent runs does not reach the model once after the previous context. -/
theorem firstCall_not_promptOnce {calls : List StoreCall} (h : Fresh calls)
    (hsupply : FreshSupply env (SessionStore.run calls)) {prompt : PromptCall}
    (hresolve : prompt.resolve env { store := SessionStore.run calls } = .ok (r, sessionId))
    {session : Session} (hsession : r.store.get sessionId = some session) :
    ∃ r' context first rest, prompt.run env sessionId r = .ran r' context (first :: rest) ∧
      ∀ readAt, ∃ previous, r.store.buildContext sessionId readAt = .ok previous ∧
        ¬ PromptOnce previous prompt.text first := by
  obtain ⟨hready, hidle⟩ := ready_of_resolve h hsupply hresolve hsession
  obtain ⟨r₁, hready₁, hviews₁, hentry⟩ := hready.run_idle hidle prompt
  obtain ⟨r', context, first, rest, hrun, hlength⟩ := hready₁.startRun_first prompt.text
  refine ⟨r', context, first, rest, hentry.trans hrun, fun readAt => ?_⟩
  obtain ⟨previous, hprevious⟩ := hready.exists_buildContext readAt
  refine ⟨previous, hprevious, ?_⟩
  rintro ⟨m, hfirst, -, -⟩
  have hviews := congrArg List.length (hready.buildContext_views hprevious)
  rw [length_map] at hviews
  rw [hviews₁, hfirst, length_append, length_append] at hlength
  simp only [length_singleton] at hlength
  omega

/-- The reply a model gives at once. -/
def plainReply (text : String) : Response :=
  { events := [], result := .ok { content := [.text text], stopReason := .stop, timestamp := 0 } }

/-- A world in which nothing arrives and the model answers every call at once. -/
def quietEnvironment : Environment where
  nanoid := fun i => String.ofList (List.replicate (i + 1) 'e')
  clock := fun tick => tick
  arrivals := fun _ => []
  answer := fun _ _ => .ok (plainReply "hello")
  steeringMode := .oneAtATime
  findTool := fun _ => none
  toolNotFoundError := fun name => name
  validateToolArguments := fun _ call => .ok call.arguments
  beforeToolCall := fun _ _ => .ok none
  execute := fun _ _ _ _ => .ok ⟨[], "{}"⟩
  afterToolCall := fun _ _ _ _ => none
  toolExecution := .sequential

theorem quietEnvironment_supply {st : SessionStore} (h : st.entries = []) :
    FreshSupply quietEnvironment st where
  unmentioned := by
    intro i
    unfold Unmentioned
    rw [h]
    refine ⟨?_, fun e he => absurd he not_mem_nil, fun e he => absurd he not_mem_nil⟩
    intro hempty
    have hlist := congrArg String.toList hempty
    simp only [quietEnvironment, String.toList_ofList, replicate_succ] at hlist
    cases hlist
  distinct := by
    intro i j heq
    have hlength := congrArg (fun id : String => id.toList.length) heq
    simp only [quietEnvironment, String.toList_ofList, length_replicate] at hlength
    omega

def newSessionCalls : List StoreCall := [⟨.create {}, "s", 0⟩]

/-- The first prompt of a new session does not reach the model once. -/
theorem firstCall_not_promptOnce_newSession :
    ∃ r' context first rest,
      (PromptCall.handlePrompt "s" "hi").run quietEnvironment "s"
        { store := SessionStore.run newSessionCalls } = .ran r' context (first :: rest) ∧
      ∀ readAt, ∃ previous,
        (SessionStore.run newSessionCalls).buildContext "s" readAt = .ok previous ∧
          ¬ PromptOnce previous "hi" first :=
  firstCall_not_promptOnce (by decide) (quietEnvironment_supply rfl) rfl rfl

/-- It reaches the model twice. -/
theorem newSession_prompted_twice :
    (∃ r' context, (PromptCall.handlePrompt "s" "hi").run quietEnvironment "s"
        { store := SessionStore.run newSessionCalls } = .ran r' context
          [[{ role := .user, content := .plain "hi", timestamp := 0 },
            { role := .user, content := .blocks [.text "hi"], timestamp := 1 }]]) ∧
      (SessionStore.run newSessionCalls).buildContext "s" 0 = .ok [] ∧
      ¬ PromptOnce [] "hi" [{ role := .user, content := .plain "hi", timestamp := 0 },
        { role := .user, content := .blocks [.text "hi"], timestamp := 1 }] := by
  refine ⟨⟨_, _, rfl⟩, by decide, ?_⟩
  rintro ⟨m, hgiven, -, -⟩
  cases hgiven

end Prompt

end CrabbyKit.Runtime
