import CrabbyKit.Runtime.Replay

/-!
# The first model call of a prompt

A run only adds to the message lists given to the model, and the first list it adds is
the agent's context followed by the prompt. The context was rebuilt after the prompt had
been persisted, so it holds the prompt already.
-/

namespace CrabbyKit.Runtime

open AgentCore SessionStore List

section ModelCalls

variable {env : Environment} {sessionId : String} {r : SessionRuntime}

@[simp] theorem append_modelCalls (data : EntryData) :
    (r.append env sessionId data).modelCalls = r.modelCalls := rfl

@[simp] theorem updateAgent_modelCalls (f : Agent → Agent) :
    (r.updateAgent f).modelCalls = r.modelCalls := rfl

theorem handleSteer_modelCalls (text : String) :
    (r.handleSteer env sessionId text).modelCalls = r.modelCalls := by
  unfold SessionRuntime.handleSteer
  simp only
  split_ifs
  · rfl
  · rfl

@[simp] theorem await_modelCalls : (r.await env sessionId).modelCalls = r.modelCalls := by
  let P : SessionRuntime → Prop := fun r' => r'.modelCalls = r.modelCalls
  have hreceive : ∀ r' input, input ∈ env.arrivals r.ticks → P r' →
      P (r'.receive env sessionId input) := by
    intro r' input _ h
    cases input with
    | steer text => exact (handleSteer_modelCalls text).trans h
    | abort => exact h
  exact await_keeps hreceive (fun r' tick h => h) rfl

variable (event : AgentEvent)

@[simp] theorem handleAgentEvent_modelCalls :
    (r.handleAgentEvent env sessionId event).modelCalls = r.modelCalls := by
  cases event with
  | messageEnd message =>
    simp only [SessionRuntime.handleAgentEvent]
    split_ifs
    · cases message.cost with
      | _ => rfl
    · rfl
  | _ => rfl

@[simp] theorem notify_modelCalls : (r.notify env sessionId event).modelCalls = r.modelCalls := by
  have hevent : (r.handleAgentEvent env sessionId event).modelCalls = r.modelCalls :=
    handleAgentEvent_modelCalls event
  cases event with
  | _ => exact hevent

@[simp] theorem emit_modelCalls : (r.emit env sessionId event).modelCalls = r.modelCalls := by
  unfold SessionRuntime.emit
  rw [await_modelCalls, notify_modelCalls, updateAgent_modelCalls]

@[simp] theorem getSteeringMessages_modelCalls :
    (r.getSteeringMessages env sessionId).2.modelCalls = r.modelCalls := by
  unfold SessionRuntime.getSteeringMessages
  cases r.agent with
  | none => exact await_modelCalls
  | some a => exact await_modelCalls

@[simp] theorem getFollowUpMessages_modelCalls :
    (r.getFollowUpMessages env sessionId).2.modelCalls = r.modelCalls := by
  unfold SessionRuntime.getFollowUpMessages
  cases r.agent with
  | none => exact await_modelCalls
  | some a => exact await_modelCalls

theorem hostKeeps_modelCalls (given : List (List AgentMessage)) :
    HostKeeps (SessionRuntime.host env sessionId) (fun r => given <+: r.modelCalls)
      fun _ => false where
  emit := by
    intro e r h
    simpa only [SessionRuntime.host, emit_modelCalls] using h
  transformContext := by
    intro messages r h
    simpa only [SessionRuntime.host, await_modelCalls] using h
  streamFn := by
    intro messages r h
    have hcall : given <+: r.modelCalls ++ [messages] := h.trans (prefix_append _ _)
    simpa only [SessionRuntime.host, await_modelCalls] using hcall
  sleep := by
    intro delay r h
    simpa only [SessionRuntime.host, await_modelCalls] using h
  steering := by
    intro r h
    simpa only [SessionRuntime.host, getSteeringMessages_modelCalls] using h
  steered := fun _ _ _ _ => rfl
  followUp := by
    intro r h
    simpa only [SessionRuntime.host, getFollowUpMessages_modelCalls] using h
  followed := fun _ _ _ _ => rfl
  beforeToolCall := by
    intro message call args r h
    simpa only [SessionRuntime.host, await_modelCalls] using h
  execute := by
    intro tool args call r h
    simpa only [SessionRuntime.host, await_modelCalls] using h
  afterToolCall := by
    intro call result isError r h
    simpa only [SessionRuntime.host, await_modelCalls] using h
  reply := fun _ => rfl
  toolResult := fun _ => rfl

theorem convertToLlm_eq (messages : List AgentMessage) :
    (SessionRuntime.host env sessionId).convertToLlm messages = messages := by
  have hall : ∀ m ∈ messages,
      decide (m.role = .user ∨ m.role = .assistant ∨ m.role = .toolResult) = true := by
    intro m _
    cases m.role with
    | _ => rfl
  exact List.filter_eq_self.mpr hall

theorem announcePrompts_fields (prompts : List AgentMessage) (s : LoopState SessionRuntime) :
    (prompts.foldl (announcePrompt (SessionRuntime.host env sessionId)) s).messages = s.messages ∧
      (prompts.foldl (announcePrompt (SessionRuntime.host env sessionId)) s).host.modelCalls =
        s.host.modelCalls := by
  induction prompts generalizing s with
  | nil => exact ⟨rfl, rfl⟩
  | cons prompt rest ih =>
    obtain ⟨hmessages, hcalls⟩ := ih (announcePrompt (SessionRuntime.host env sessionId) s prompt)
    refine ⟨hmessages, hcalls.trans ?_⟩
    exact (emit_modelCalls (.messageEnd prompt)).trans (emit_modelCalls (.messageStart prompt))

theorem injectPending_fields (pending : List AgentMessage) (s : LoopState SessionRuntime) :
    (pending.foldl (injectPending (SessionRuntime.host env sessionId)) s).messages =
        s.messages ++ pending ∧
      (pending.foldl (injectPending (SessionRuntime.host env sessionId)) s).host.modelCalls =
        s.host.modelCalls := by
  induction pending generalizing s with
  | nil => exact ⟨(append_nil _).symm, rfl⟩
  | cons m rest ih =>
    obtain ⟨hmessages, hcalls⟩ := ih (injectPending (SessionRuntime.host env sessionId) s m)
    have hinject : (injectPending (SessionRuntime.host env sessionId) s m).messages =
        s.messages ++ [m] := rfl
    constructor
    · rw [foldl_cons, hmessages, hinject, append_assoc, singleton_append]
    · refine hcalls.trans ?_
      exact (emit_modelCalls (.messageEnd m)).trans (emit_modelCalls (.messageStart m))

theorem stream_modelCalls (s : LoopState SessionRuntime) :
    Keeps (fun r => s.host.modelCalls ++ [s.messages] <+: r.modelCalls) (fun _ => false) []
      (streamAssistantResponse (SessionRuntime.host env sessionId) s).1 := by
  have hnone : s.messages.filter (fun _ => false) = [] := filter_false s.messages
  refine Keeps.streamFrom (hostKeeps_modelCalls _) hnone ?_
  simp only [convertToLlm_eq]
  simp only [SessionRuntime.host, await_modelCalls, prefix_rfl]

theorem runAgentLoop_modelCalls (prompts messages : List AgentMessage) (r : SessionRuntime) :
    ∃ pending, r.modelCalls ++ [messages ++ prompts ++ pending] <+:
      (runAgentLoop (SessionRuntime.host env sessionId) prompts messages r).1.host.modelCalls := by
  let H := SessionRuntime.host env sessionId
  let s₀ : LoopState SessionRuntime := ⟨messages ++ prompts, prompts, r⟩
  let s₁ := prompts.foldl (announcePrompt H) ((s₀.emit H .agentStart).emit H .turnStart)
  obtain ⟨hmessages, hcalls⟩ :=
    announcePrompts_fields prompts ((s₀.emit H .agentStart).emit H .turnStart)
  have hstart : s₁.host.modelCalls = r.modelCalls :=
    hcalls.trans
      ((emit_modelCalls AgentEvent.turnStart).trans (emit_modelCalls AgentEvent.agentStart))
  let pending := (H.getSteeringMessages s₁.host).1
  let s₂ : LoopState SessionRuntime := { s₁ with host := (H.getSteeringMessages s₁.host).2 }
  obtain ⟨hinjected, hkept⟩ := injectPending_fields pending s₂
  have hcontext : (turnStart H true pending s₂).messages = messages ++ prompts ++ pending := by
    exact hinjected.trans (congrArg (· ++ pending) hmessages)
  have hgiven : (turnStart H true pending s₂).host.modelCalls = r.modelCalls :=
    (hkept.trans getSteeringMessages_modelCalls).trans hstart
  have hfirst : Keeps (fun r => (turnStart H true pending s₂).host.modelCalls ++
      [(turnStart H true pending s₂).messages] <+: r.modelCalls) (fun _ => false) []
      (streamAssistantResponse H (turnStart H true pending s₂)).1 := stream_modelCalls _
  rw [hcontext, hgiven] at hfirst
  exact ⟨pending, (Keeps.turnsFrom (hostKeeps_modelCalls _) hfirst).1⟩

theorem prompt_modelCalls (a : Agent) (text : String) (r : SessionRuntime) :
    ∃ pending rest, (SessionRuntime.prompt env sessionId a text r).host.modelCalls =
      r.modelCalls ++
        (a.messages ++ [SessionRuntime.promptMessage text (r.now env)] ++ pending) :: rest := by
  let r' : SessionRuntime :=
    { r with agent := some { a with isStreaming := true, aborted := false } }
  have hcalls : ∃ pending,
      r.modelCalls ++ [a.messages ++ [SessionRuntime.promptMessage text (r.now env)] ++ pending] <+:
        (runAgentLoop (SessionRuntime.host env sessionId)
          [SessionRuntime.promptMessage text (r.now env)] a.messages r').1.host.modelCalls :=
    runAgentLoop_modelCalls _ a.messages r'
  obtain ⟨pending, rest, hrun⟩ := hcalls
  refine ⟨pending, rest, ?_⟩
  have hlist : r.modelCalls ++
      [a.messages ++ [SessionRuntime.promptMessage text (r.now env)] ++ pending] ++ rest =
      r.modelCalls ++
        (a.messages ++ [SessionRuntime.promptMessage text (r.now env)] ++ pending) :: rest := by
    rw [append_assoc, singleton_append]
  rw [← hlist, hrun]
  unfold SessionRuntime.prompt
  simp only
  split
  · rfl
  · exact notify_modelCalls (.agentEnd [])

end ModelCalls

end CrabbyKit.Runtime
