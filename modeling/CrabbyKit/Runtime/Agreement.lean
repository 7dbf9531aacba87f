import CrabbyKit.Runtime.Prompt

/-!
# Rebuilding the context after a run

A run adds its prompt to the context of its agent under a content that nothing it
persists has. The context that the session rebuilds after the run is therefore always one
message short of the agent's.
-/

namespace CrabbyKit.Runtime

open AgentCore SessionStore List

section Agent

variable {env : Environment} {sessionId : String} {r : SessionRuntime}

theorem await_agent (h : r.agent = none) : (r.await env sessionId).agent = none := by
  let P : SessionRuntime → Prop := fun r' => r'.agent = none
  have hreceive : ∀ r' input, input ∈ env.arrivals r.ticks → P r' →
      P (r'.receive env sessionId input) := by
    intro r' input _ h'
    cases input with
    | steer text =>
      have hstill : r'.isStreaming = false := by
        unfold SessionRuntime.isStreaming
        rw [h', Option.any_none]
      have happend : (r'.append env sessionId
          (SessionRuntime.userEntryData text (r'.now env))).isStreaming = false := hstill
      unfold SessionRuntime.receive SessionRuntime.handleSteer
      simp only [happend, Bool.false_eq_true, if_false]
      exact h'
    | abort => exact Option.map_eq_none_iff.mpr h'
  exact await_keeps hreceive (fun r' tick h' => h') h

theorem emit_agentEnd_agent (messages : List AgentMessage) (r : SessionRuntime) :
    (r.emit env sessionId (.agentEnd messages)).agent = none :=
  await_agent rfl

theorem prompt_agent (a : Agent) (text : String) :
    (SessionRuntime.prompt env sessionId a text r).host.agent = none := by
  let E : SessionRuntime → Prop := fun r' => r'.agent = none
  have hend : ∀ messages host,
      E ((SessionRuntime.host env sessionId).emit (.agentEnd messages) host) :=
    fun messages host => emit_agentEnd_agent messages host
  unfold SessionRuntime.prompt
  simp only
  split
  · rename_i hended
    exact runAgentLoop_returned hend hended
  · rfl

end Agent

section Counts

variable {env : Environment} {sessionId : String} {q : MessageView → Bool}
  {kept : List MessageView} {r : SessionRuntime}

theorem Counted.prompt (h : Counted env sessionId q kept r) (hn : Neutral env q) (a : Agent)
    (ha : QuietQueues q a) (text : String) :
    Counted env sessionId q kept (SessionRuntime.prompt env sessionId a text r).host ∧
      (SessionRuntime.prompt env sessionId a text r).messages.filter (fun m => q (view m)) =
        (a.messages ++ [SessionRuntime.promptMessage text (r.now env)]).filter
          fun m => q (view m) := by
  have hstart : Counted env sessionId q kept
      { r with agent := some { a with isStreaming := true, aborted := false } } := by
    refine h.withAgent fun b hb => ?_
    cases hb
    exact ha
  obtain ⟨hhost, hcontext⟩ := runAgentLoop_keeps (hostKeeps_counted hn kept) hstart
    [SessionRuntime.promptMessage text (r.now env)] a.messages
  unfold SessionRuntime.prompt
  simp only
  split
  · exact ⟨hhost, hcontext⟩
  · have hthrown := hhost.notify hn (.agentEnd [])
    exact ⟨hthrown, hcontext⟩

theorem neutral_false (env : Environment) : Neutral env fun _ => false where
  reply := fun _ => rfl
  toolResult := fun _ _ _ _ => rfl
  steer := fun _ _ _ => rfl

theorem Ready.startRun_counts (h : Ready env sessionId r) (text : String) :
    ∃ r' context calls, r.startRun env sessionId text = .ran r' context calls ∧
      Ready env sessionId r' ∧ r'.agent = none ∧
      ∀ q, Neutral env q → q (userView (.blocks [.text text])) = true →
        (context.map view).countP q = (rebuiltViews r'.store sessionId).countP q + 1 := by
  obtain ⟨messages, hensure, hmessages⟩ := h.ensureAgent
  let ready : SessionRuntime :=
    { r.await env sessionId with agent := some { messages := messages } }
  let s := SessionRuntime.prompt env sessionId { messages := messages } text ready
  have hawait := h.await.1
  have hquiet : ∀ q, QuietQueues q { messages := messages } := fun q =>
    ⟨fun m hm => absurd hm not_mem_nil, rfl⟩
  have hcounted : ∀ q, Counted env sessionId q ((rebuiltViews ready.store sessionId).filter q)
      ready := by
    intro q
    refine ⟨⟨hawait.store, hawait.session, hawait.fresh, hawait.distinct⟩, rfl, ?_⟩
    intro a ha
    cases ha
    exact hquiet q
  refine ⟨s.host, s.messages, s.host.modelCalls.drop ready.modelCalls.length, ?_, ?_,
    prompt_agent _ _, ?_⟩
  · unfold SessionRuntime.startRun
    simp only [hensure]
    rfl
  · have hnone := neutral_false env
    exact ((hcounted _).prompt hnone _ (hquiet _) text).1.ready
  · intro q hn hq
    obtain ⟨hend, hcontext⟩ := (hcounted q).prompt hn _ (hquiet q) text
    have hprompt : q (view (SessionRuntime.promptMessage text (ready.now env))) = true := hq
    have hmemory : (s.messages.map view).countP q = (messages.map view).countP q + 1 := by
      have hlength := congrArg List.length hcontext
      rw [filter_append, length_append, ← countP_eq_length_filter,
        ← countP_eq_length_filter, ← countP_eq_length_filter] at hlength
      rw [countP_map, countP_map]
      refine hlength.trans ?_
      simp only [countP_singleton, hprompt, if_true]
      rfl
    have hstored : (rebuiltViews s.host.store sessionId).countP q =
        (rebuiltViews ready.store sessionId).countP q := by
      rw [countP_eq_length_filter, hend.views, countP_eq_length_filter]
    rw [hmemory, hstored, hmessages]

end Counts

/-- The context of an agent is, seen through `see`, what its session rebuilds. -/
def ReplayAgrees (see : MessageView → MessageView) (st : SessionStore) (sessionId : String)
    (context : List AgentMessage) : Prop :=
  ∃ readAt rebuilt, st.buildContext sessionId readAt = .ok rebuilt ∧
    (rebuilt.map view).map see = (context.map view).map see

theorem Ready.not_replayAgrees {env : Environment} {sessionId : String} {r : SessionRuntime}
    (h : Ready env sessionId r) {see : MessageView → MessageView} {p : MessageView → Bool}
    {context : List AgentMessage}
    (hcount : (context.map view).countP (p ∘ see) ≠
      (rebuiltViews r.store sessionId).countP (p ∘ see)) :
    ¬ ReplayAgrees see r.store sessionId context := by
  rintro ⟨readAt, rebuilt, hrebuilt, hagree⟩
  rw [h.buildContext_views hrebuilt] at hagree
  have hp := congrArg (List.countP p) hagree
  rw [countP_map, countP_map] at hp
  exact hcount hp.symm

/-- A text as a plain string and as a single block read the same. -/
def asText (v : MessageView) : MessageView :=
  match v.content with
  | .blocks [.text text] => { v with content := .plain text }
  | _ => v

def isBlockPrompt (v : MessageView) : Bool :=
  v.role = .user && match v.content with
    | .blocks _ => true
    | .plain _ => false

theorem neutral_isBlockPrompt (env : Environment) : Neutral env isBlockPrompt where
  reply := fun _ => rfl
  toolResult := fun _ _ _ _ => rfl
  steer := fun _ _ _ => rfl

@[simp] theorem asText_role (v : MessageView) : (asText v).role = v.role := by
  unfold asText
  split
  · rfl
  · rfl

def reads (text : String) (v : MessageView) : Bool := v = userView (.plain text)

theorem neutral_reads {env : Environment} {text : String}
    (h : ∀ tick, .steer text ∉ env.arrivals tick) : Neutral env (reads text ∘ asText) where
  reply := by
    intro content
    refine decide_eq_false fun heq => ?_
    have hrole := congrArg MessageView.role heq
    rw [asText_role] at hrole
    cases hrole
  toolResult := by
    intro content id name isError
    refine decide_eq_false fun heq => ?_
    have hrole := congrArg MessageView.role heq
    rw [asText_role] at hrole
    cases hrole
  steer := by
    intro tick steered hsteer
    refine decide_eq_false fun heq => ?_
    have hcontent := congrArg MessageView.content heq
    have htext : steered = text := Content.plain.inj hcontent
    exact h tick (htext ▸ hsteer)

/-- One prompt of a session whose earlier prompts have run; the context is that of the
agent that ran it. -/
def promptStep (env : Environment) (sessionId : String)
    (state : Option (SessionRuntime × List AgentMessage)) (prompt : PromptCall) :
    Option (SessionRuntime × List AgentMessage) :=
  match state with
  | none => none
  | some (r, _) =>
    match prompt.run env sessionId r with
    | .ran r' context _ => some (r', context)
    | _ => none

/-- The prompts of a session, each after the run of the one before has ended. -/
def runPrompts (env : Environment) (sessionId : String) (r : SessionRuntime)
    (prompts : List PromptCall) : Option (SessionRuntime × List AgentMessage) :=
  Run.run (promptStep env sessionId) (some (r, [])) prompts

section Replay

variable {env : Environment} {sessionId : String} {r : SessionRuntime}

theorem Ready.promptStep (h : Ready env sessionId r) (hidle : r.agent = none)
    (previous : List AgentMessage) (prompt : PromptCall) :
    ∃ r' context, promptStep env sessionId (some (r, previous)) prompt = some (r', context) ∧
      Ready env sessionId r' ∧ r'.agent = none ∧
      ∀ q, Neutral env q → q (userView (.blocks [.text prompt.text])) = true →
        (context.map view).countP q = (rebuiltViews r'.store sessionId).countP q + 1 := by
  obtain ⟨r₁, hready, -, hentry⟩ := h.run_idle hidle prompt
  obtain ⟨r', context, calls, hrun, hready', hidle', hcounts⟩ :=
    hready.startRun_counts prompt.text
  refine ⟨r', context, ?_, hready', hidle', hcounts⟩
  unfold Runtime.promptStep
  simp only [hentry, hrun]

theorem Ready.runPrompts (h : Ready env sessionId r) (hidle : r.agent = none)
    (prompts : List PromptCall) :
    ∃ r' context, runPrompts env sessionId r prompts = some (r', context) ∧
      Ready env sessionId r' ∧ r'.agent = none := by
  refine Run.run_induction (P := fun _ state => ∃ r' context, state = some (r', context) ∧
    Ready env sessionId r' ∧ r'.agent = none) ⟨r, [], rfl, h, hidle⟩ ?_ prompts
  rintro _ prompt _ ⟨r', context, rfl, hready, hidle'⟩
  obtain ⟨r'', context', hstep, hready', hidle'', -⟩ := hready.promptStep hidle' context prompt
  exact ⟨r'', context', hstep, hready', hidle''⟩

/-- After every run of a session, whatever the model, the tools and the arrivals did, the
rebuilt messages are not those of the agent's context; even when texts of both forms are
read alike they are not, unless a steering message repeated the prompt's text. -/
theorem replay_disagrees {calls : List StoreCall} (h : Fresh calls)
    (hsupply : FreshSupply env (SessionStore.run calls)) {session : Session}
    (hsession : (SessionStore.run calls).get sessionId = some session)
    (prompts : List PromptCall) (last : PromptCall) :
    ∃ r' context,
      runPrompts env sessionId { store := SessionStore.run calls } (prompts ++ [last]) =
        some (r', context) ∧
      ¬ ReplayAgrees id r'.store sessionId context ∧
      ((∀ tick, .steer last.text ∉ env.arrivals tick) →
        ¬ ReplayAgrees asText r'.store sessionId context) := by
  have hresolve : (PromptCall.handlePrompt sessionId last.text).resolve env
      { store := SessionStore.run calls } = .ok ({ store := SessionStore.run calls }, sessionId) :=
    rfl
  obtain ⟨hready, hidle⟩ := ready_of_resolve h hsupply hresolve hsession
  obtain ⟨r₁, context₁, hearlier, hready₁, hidle₁⟩ := hready.runPrompts hidle prompts
  obtain ⟨r', context, hstep, hready', -, hcounts⟩ := hready₁.promptStep hidle₁ context₁ last
  refine ⟨r', context, ?_, ?_, fun hquiet => ?_⟩
  · unfold Runtime.runPrompts at hearlier ⊢
    rw [Run.run_snoc, hearlier, hstep]
  · have hcount := hcounts isBlockPrompt (neutral_isBlockPrompt env) rfl
    refine hready'.not_replayAgrees (p := isBlockPrompt) ?_
    rw [Function.comp_id, hcount]
    omega
  · have hreads : (reads last.text ∘ asText) (userView (.blocks [.text last.text])) = true :=
      decide_eq_true rfl
    have hcount := hcounts _ (neutral_reads hquiet) hreads
    refine hready'.not_replayAgrees (p := reads last.text) ?_
    rw [hcount]
    omega

/-- Two prompts of a new session. -/
theorem replay_disagrees_newSession :
    ∃ r' context,
      runPrompts quietEnvironment "s" { store := SessionStore.run newSessionCalls }
        ([.handlePrompt "s" "one"] ++ [.handlePrompt "s" "two"]) = some (r', context) ∧
      ¬ ReplayAgrees id r'.store "s" context ∧
      ((∀ tick, .steer "two" ∉ quietEnvironment.arrivals tick) →
        ¬ ReplayAgrees asText r'.store "s" context) :=
  replay_disagrees (by decide) (quietEnvironment_supply rfl) rfl [.handlePrompt "s" "one"]
    (.handlePrompt "s" "two")

/-- One prompt of a new session: the agent's context has the prompt twice, the rebuilt one
has it once. -/
theorem replay_loses_newSession :
    ∃ r' context,
      runPrompts quietEnvironment "s" { store := SessionStore.run newSessionCalls }
        [.handlePrompt "s" "hi"] = some (r', context) ∧
      context.map view = [userView (.plain "hi"), userView (.blocks [.text "hi"]),
        ⟨.assistant, .blocks [.text "hello"], none, none, none⟩] ∧
      (∀ readAt, ∃ rebuilt, r'.store.buildContext "s" readAt = .ok rebuilt ∧
        rebuilt.map view = [userView (.plain "hi"),
          ⟨.assistant, .blocks [.text "hello"], none, none, none⟩]) ∧
      ¬ ReplayAgrees id r'.store "s" context := by
  have hrun : ∃ r' context,
      runPrompts quietEnvironment "s" { store := SessionStore.run newSessionCalls }
        [.handlePrompt "s" "hi"] = some (r', context) ∧
      context.map view = [userView (.plain "hi"), userView (.blocks [.text "hi"]),
        ⟨.assistant, .blocks [.text "hello"], none, none, none⟩] ∧
      ∀ readAt, ∃ rebuilt, r'.store.buildContext "s" readAt = .ok rebuilt ∧
        rebuilt.map view = [userView (.plain "hi"),
          ⟨.assistant, .blocks [.text "hello"], none, none, none⟩] :=
    ⟨_, _, rfl, rfl, fun readAt => ⟨_, rfl, rfl⟩⟩
  obtain ⟨r', context, hran, hcontext, hrebuilt⟩ := hrun
  refine ⟨r', context, hran, hcontext, hrebuilt, ?_⟩
  rintro ⟨readAt, rebuilt, hbuild, hagree⟩
  obtain ⟨rebuilt', hbuild', hviews⟩ := hrebuilt readAt
  have hsame : rebuilt' = rebuilt := Except.ok.inj (hbuild'.symm.trans hbuild)
  rw [← hsame, hviews, hcontext] at hagree
  exact absurd (congrArg List.length hagree) (by decide)

end Replay

end CrabbyKit.Runtime
