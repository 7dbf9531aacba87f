import CrabbyKit.AgentCore.Loop

/-!
# What a run of the agent loop keeps

A property of the host that every host function keeps, and a kind of message that
neither replies, tool results nor suppliers bring, are kept by a whole run: by each
primitive step first, then by streams, retries, tool calls and turns.
-/

namespace CrabbyKit.AgentCore

variable {σ τ : Type} {H : LoopHost σ τ}

/-- Every function of the host keeps `P`, and the suppliers bring no message of kind `p`. -/
structure HostKeeps (H : LoopHost σ τ) (P : σ → Prop) (p : AgentMessage → Bool) : Prop where
  emit : ∀ e s, P s → P (H.emit e s)
  transformContext : ∀ messages s, P s → P (H.transformContext messages s).2
  streamFn : ∀ messages s, P s → P (H.streamFn messages s).2
  sleep : ∀ delay s, P s → P (H.sleep delay s)
  steering : ∀ s, P s → P (H.getSteeringMessages s).2
  steered : ∀ s, P s → ∀ m ∈ (H.getSteeringMessages s).1, p m = false
  followUp : ∀ s, P s → P (H.getFollowUpMessages s).2
  followed : ∀ s, P s → ∀ m ∈ (H.getFollowUpMessages s).1, p m = false
  beforeToolCall : ∀ message call args s, P s → P (H.beforeToolCall message call args s).2
  execute : ∀ tool args call s, P s → P (H.execute tool args call s).2
  afterToolCall : ∀ call result isError s, P s → P (H.afterToolCall call result isError s).2
  /-- No reply of the model is of kind `p`. -/
  reply : ∀ m : AssistantMessage, p m.toAgentMessage = false
  /-- No tool result is of kind `p`. -/
  toolResult : ∀ m : ToolResultMessage, p m.toAgentMessage = false

/-- The host satisfies `P`, and the context messages of kind `p` are the given ones. -/
def Keeps (P : σ → Prop) (p : AgentMessage → Bool) (kept : List AgentMessage)
    (s : LoopState σ) : Prop :=
  P s.host ∧ s.messages.filter p = kept

section Steps

variable {P : σ → Prop} {p : AgentMessage → Bool} {kept : List AgentMessage} {s : LoopState σ}

variable {m : AgentMessage}

theorem Keeps.push (h : Keeps P p kept s) (hm : p m = false) : Keeps P p kept (s.push m) := by
  refine ⟨h.1, ?_⟩
  have hnil : [m].filter p = [] := by simp [hm]
  simp only [LoopState.push, List.filter_append, hnil, List.append_nil, h.2]

theorem Keeps.record (h : Keeps P p kept s) (m : AgentMessage) : Keeps P p kept (s.record m) := h

/-- A host step that keeps `P` is a step of the loop that keeps the context. -/
theorem Keeps.withHost (h : Keeps P p kept s) {host : σ} (hp : P host) :
    Keeps P p kept { s with host := host } :=
  ⟨hp, h.2⟩

theorem filter_dropLast {l : List AgentMessage} (hl : l.getLast? = some m)
    (hm : p m = false) : l.dropLast.filter p = l.filter p := by
  obtain ⟨init, rfl⟩ := List.getLast?_eq_some_iff.mp hl
  simp [hm]

theorem Keeps.replaceLast (h : Keeps P p kept s) {q : AgentMessage}
    (hl : s.messages.getLast? = some q) (hq : p q = false) (hm : p m = false) :
    Keeps P p kept (s.replaceLast m) := by
  refine ⟨h.1, ?_⟩
  have hnil : [m].filter p = [] := by simp [hm]
  simp only [LoopState.replaceLast, List.filter_append, hnil, List.append_nil,
    filter_dropLast hl hq, h.2]

@[simp] theorem push_messages (m : AgentMessage) :
    (s.push m).messages = s.messages ++ [m] := rfl

@[simp] theorem replaceLast_messages (m : AgentMessage) :
    (s.replaceLast m).messages = s.messages.dropLast ++ [m] := rfl

@[simp] theorem emit_messages (e : AgentEvent) : (s.emit H e).messages = s.messages := rfl

@[simp] theorem record_messages (m : AgentMessage) : (s.record m).messages = s.messages := rfl

end Steps

section Run

variable {P : σ → Prop} {p : AgentMessage → Bool} {kept : List AgentMessage} {s : LoopState σ}
variable (hk : HostKeeps H P p)
include hk

theorem Keeps.emit (h : Keeps P p kept s) (e : AgentEvent) : Keeps P p kept (s.emit H e) :=
  ⟨hk.emit e s.host h.1, h.2⟩

variable {addedPartial : Bool}

theorem Keeps.finishStream (h : Keeps P p kept s) {result : Except String AssistantMessage}
    (ha : addedPartial = true → ∃ q, s.messages.getLast? = some q ∧ p q = false) :
    Keeps P p kept (finishStream H result addedPartial s).1 := by
  unfold AgentCore.finishStream
  cases result with
  | error e => exact h
  | ok final =>
    have hfinal := hk.reply final
    cases addedPartial with
    | false => exact ((h.push hfinal).emit hk _).emit hk _
    | true =>
      obtain ⟨q, hlast, hq⟩ := ha rfl
      exact (h.replaceLast hlast hq hfinal).emit hk _

theorem Keeps.consumeStream {response : Response} {events : List StreamEvent} (h : Keeps P p kept s)
    (ha : addedPartial = true → ∃ q, s.messages.getLast? = some q ∧ p q = false) :
    Keeps P p kept (consumeStream H response events addedPartial s).1 := by
  induction events generalizing addedPartial s with
  | nil =>
    unfold AgentCore.consumeStream
    cases response.interrupted with
    | some e => exact h
    | none => exact h.finishStream hk ha
  | cons event rest ih =>
    cases event with
    | finish => exact h.finishStream hk ha
    | start reply =>
      have hreply := hk.reply reply
      refine ih ((h.push hreply).emit hk _) fun _ => ⟨reply.toAgentMessage, ?_, hreply⟩
      simp
    | update reply =>
      have hreply := hk.reply reply
      cases addedPartial with
      | false => exact ih h ha
      | true =>
        obtain ⟨q, hlast, hq⟩ := ha rfl
        refine ih ((h.replaceLast hlast hq hreply).emit hk _) fun _ =>
          ⟨reply.toAgentMessage, ?_, hreply⟩
        simp

/-- A model call that leaves `P` keeps the messages of the kind. -/
theorem Keeps.streamFrom (h : s.messages.filter p = kept)
    (hcall : P (H.streamFn (H.convertToLlm (H.transformContext s.messages s.host).1)
      (H.transformContext s.messages s.host).2).2) :
    Keeps P p kept (AgentCore.streamAssistantResponse H s).1 := by
  unfold AgentCore.streamAssistantResponse
  have hstart : Keeps P p kept
      { s with host := (H.streamFn (H.convertToLlm (H.transformContext s.messages s.host).1)
        (H.transformContext s.messages s.host).2).2 } := ⟨hcall, h⟩
  simp only
  split
  · exact hstart
  · exact hstart.consumeStream hk nofun

theorem Keeps.streamAssistantResponse (h : Keeps P p kept s) :
    Keeps P p kept (streamAssistantResponse H s).1 := by
  have htransform := hk.transformContext s.messages s.host h.1
  exact Keeps.streamFrom hk h.2 (hk.streamFn _ _ htransform)

theorem Keeps.popFailed (h : Keeps P p kept s) (m : AssistantMessage) :
    Keeps P p kept (popFailed m s) := by
  unfold AgentCore.popFailed
  split_ifs with hlast
  · exact ⟨h.1, (filter_dropLast hlast (hk.reply m)).trans h.2⟩
  · exact h

variable {message : AssistantMessage}

variable {left : Nat}

theorem Keeps.retryStream {attempt : Nat}
    (h : Keeps P p kept s) : Keeps P p kept (retryStream H left attempt message s).1 := by
  induction left generalizing attempt message s with
  | zero => exact h
  | succ left ih =>
    unfold AgentCore.retryStream
    have hsleep := h.withHost (hk.sleep (H.baseRetryDelayMs * 2 ^ attempt) s.host h.1)
    have hnext := (hsleep.popFailed hk message).streamAssistantResponse hk
    simp only
    split_ifs with haborted hagain
    · exact h
    · exact hsleep
    · split
      · rename_i s' e heq
        rw [heq] at hnext
        exact hnext
      · rename_i s' next heq
        rw [heq] at hnext
        split_ifs with htransient
        · exact ih hnext
        · exact hnext

theorem Keeps.retryFrom (hfirst : Keeps P p kept (AgentCore.streamAssistantResponse H s).1) :
    Keeps P p kept (AgentCore.streamWithRetry H s).1 := by
  unfold AgentCore.streamWithRetry
  split
  · rename_i s' e heq
    rw [heq] at hfirst
    exact hfirst
  · rename_i s' message heq
    rw [heq] at hfirst
    split_ifs with htransient
    · exact hfirst.retryStream hk
    · exact hfirst

theorem Keeps.prepareToolCall (h : Keeps P p kept s) (message : AssistantMessage)
    (call : ToolCall) : Keeps P p kept (prepareToolCall H message call s).1 := by
  unfold AgentCore.prepareToolCall
  split
  · exact h
  · rename_i tool _
    split
    · exact h
    · rename_i args _
      have hhook := h.withHost (hk.beforeToolCall message call args s.host h.1)
      simp only
      split
      · exact hhook
      · exact hhook
      · split_ifs
        · exact hhook
        · exact hhook

theorem Keeps.emitToolCallOutcome (h : Keeps P p kept s) (call : ToolCall)
    (result : AgentToolResult) (isError : Bool) :
    Keeps P p kept (emitToolCallOutcome H call result isError s).1 :=
  ((h.emit hk _).emit hk _).emit hk _

theorem Keeps.runPrepared (h : Keeps P p kept s) (call : ToolCall) (tool : τ) (args : String) :
    Keeps P p kept (runPrepared H call tool args s).1 := by
  have hexecute : Keeps P p kept (executePreparedToolCall H call tool args s).1 := by
    have hrun := h.withHost (hk.execute tool args call s.host h.1)
    unfold executePreparedToolCall
    simp only
    split
    · exact hrun
    · exact hrun
  have hafter := fun result isError =>
    hexecute.withHost (hk.afterToolCall call result isError _ hexecute.1)
  unfold AgentCore.runPrepared finalizeExecutedToolCall
  simp only
  split
  · exact (hafter _ _).emitToolCallOutcome hk call _ _
  · exact (hafter _ _).emitToolCallOutcome hk call _ _

variable {calls : List ToolCall}

theorem Keeps.executeToolCallsSequential
    (h : Keeps P p kept s) : Keeps P p kept (executeToolCallsSequential H message calls s).1 := by
  induction calls generalizing s with
  | nil => exact h
  | cons call rest ih =>
    have hprepare := (h.emit hk (.toolExecutionStart call)).prepareToolCall hk message call
    unfold AgentCore.executeToolCallsSequential
    simp only
    refine ih ?_
    split
    · exact hprepare.emitToolCallOutcome hk call _ _
    · exact hprepare.runPrepared hk call _ _

theorem Keeps.prepareToolCalls
    (h : Keeps P p kept s) : Keeps P p kept (prepareToolCalls H message calls s).1 := by
  induction calls generalizing s with
  | nil => exact h
  | cons call rest ih =>
    have hprepare := (h.emit hk (.toolExecutionStart call)).prepareToolCall hk message call
    unfold AgentCore.prepareToolCalls
    simp only
    split
    · exact ih (hprepare.emitToolCallOutcome hk call _ _)
    · exact ih hprepare

theorem Keeps.finishToolCalls {runnable : List (ToolCall × τ × String)} (h : Keeps P p kept s) :
    Keeps P p kept (finishToolCalls H runnable s).1 := by
  induction runnable generalizing s with
  | nil => exact h
  | cons prepared rest ih =>
    obtain ⟨call, tool, args⟩ := prepared
    exact ih (h.runPrepared hk call tool args)

theorem Keeps.executeToolCalls (h : Keeps P p kept s) (message : AssistantMessage) :
    Keeps P p kept (executeToolCalls H message s).1 := by
  unfold AgentCore.executeToolCalls
  cases H.toolExecution with
  | sequential => exact h.executeToolCallsSequential hk
  | parallel =>
    unfold executeToolCallsParallel
    exact (h.prepareToolCalls hk).finishToolCalls hk

theorem Keeps.pushResults (h : Keeps P p kept s) (results : List ToolResultMessage) :
    Keeps P p kept (results.foldl pushResult s) := by
  induction results generalizing s with
  | nil => exact h
  | cons result rest ih => exact ih ((h.push (hk.toolResult result)).record _)

variable {pending : List AgentMessage}

theorem Keeps.injectPending (h : Keeps P p kept s) (hp : ∀ m ∈ pending, p m = false) :
    Keeps P p kept (pending.foldl (injectPending H) s) := by
  induction pending generalizing s with
  | nil => exact h
  | cons m rest ih =>
    have hm := hp m List.mem_cons_self
    have hrest : ∀ q ∈ rest, p q = false := fun q hq => hp q (List.mem_cons_of_mem m hq)
    exact ih ((((h.emit hk _).emit hk _).push hm).record _) hrest

/-- Messages still to be injected are of another kind. -/
def TurnEnd.free (p : AgentMessage → Bool) : TurnEnd → Prop
  | .done _ => True
  | .again pending => ∀ m ∈ pending, p m = false

theorem Keeps.afterReply (h : Keeps P p kept s) (message : AssistantMessage) :
    Keeps P p kept (afterReply H message s).1 ∧ (afterReply H message s).2.free p := by
  have htools : Keeps P p kept
      (if message.toolCalls = [] then (s, []) else AgentCore.executeToolCalls H message s).1 := by
    split_ifs
    · exact h
    · exact h.executeToolCalls hk message
  unfold AgentCore.afterReply
  simp only
  generalize (if message.toolCalls = [] then (s, []) else AgentCore.executeToolCalls H message s) =
    outcome at htools
  have hturn := (htools.pushResults hk outcome.2).emit hk
    (.turnEnd message.toAgentMessage outcome.2)
  have hsteer := hturn.withHost (hk.steering _ hturn.1)
  have hfollow := hsteer.withHost (hk.followUp _ hsteer.1)
  split_ifs with hmore hfollows
  · exact ⟨hsteer, hk.steered _ hturn.1⟩
  · exact ⟨hfollow, hk.followed _ hsteer.1⟩
  · exact ⟨hfollow.emit hk _, trivial⟩

/-- The context a turn gives to the model first. -/
def turnStart (H : LoopHost σ τ) (firstTurn : Bool) (pending : List AgentMessage)
    (s : LoopState σ) : LoopState σ :=
  pending.foldl (AgentCore.injectPending H) (if firstTurn then s else s.emit H .turnStart)

variable {firstTurn : Bool}

theorem Keeps.turnFrom
    (hfirst : Keeps P p kept
      (AgentCore.streamAssistantResponse H (turnStart H firstTurn pending s)).1) :
    Keeps P p kept (AgentCore.runTurn H firstTurn pending s).1 ∧
      (AgentCore.runTurn H firstTurn pending s).2.free p := by
  have hstream := Keeps.retryFrom hk hfirst
  unfold turnStart at hstream
  unfold AgentCore.runTurn
  simp only
  split
  · rename_i s' e heq
    rw [heq] at hstream
    exact ⟨hstream, trivial⟩
  · rename_i s' message heq
    rw [heq] at hstream
    have hrecord := hstream.record message.toAgentMessage
    split_ifs with hstop
    · exact ⟨(hrecord.emit hk _).emit hk _, trivial⟩
    · exact hrecord.afterReply hk message

theorem Keeps.runTurn (h : Keeps P p kept s) (hp : ∀ m ∈ pending, p m = false) (firstTurn : Bool) :
    Keeps P p kept (runTurn H firstTurn pending s).1 ∧
      (runTurn H firstTurn pending s).2.free p := by
  have hstart : Keeps P p kept (if firstTurn then s else s.emit H .turnStart) := by
    split_ifs
    · exact h
    · exact h.emit hk _
  exact Keeps.turnFrom hk ((hstart.injectPending hk hp).streamAssistantResponse hk)

theorem Keeps.exceedIterations (h : Keeps P p kept s) : Keeps P p kept (exceedIterations H s) := by
  unfold AgentCore.exceedIterations
  simp only
  have hpush := h.push (hk.reply
    { content := [.text s!"Agent loop terminated: exceeded maximum iterations ({H.maxIterations})."]
      stopReason := .error
      errorMessage := some s!"Maximum loop iterations ({H.maxIterations}) exceeded"
      timestamp := H.now s.host })
  exact ((((hpush.record _).emit hk _).emit hk _).emit hk _).emit hk _

theorem Keeps.runTurns (h : Keeps P p kept s) (hp : ∀ m ∈ pending, p m = false) :
    Keeps P p kept (runTurns H left firstTurn pending s).1 := by
  induction left generalizing firstTurn pending s with
  | zero => exact h.exceedIterations hk
  | succ left ih =>
    obtain ⟨hturn, hfree⟩ := h.runTurn hk hp firstTurn
    unfold AgentCore.runTurns
    split
    · rename_i s' ended heq
      rw [heq] at hturn
      exact hturn
    · rename_i s' pending' heq
      rw [heq] at hturn hfree
      exact ih hturn hfree

theorem Keeps.turnsFrom
    (hfirst : Keeps P p kept
      (AgentCore.streamAssistantResponse H (turnStart H firstTurn pending s)).1) :
    Keeps P p kept (AgentCore.runTurns H (left + 1) firstTurn pending s).1 := by
  obtain ⟨hturn, hfree⟩ := Keeps.turnFrom hk hfirst
  unfold AgentCore.runTurns
  split
  · rename_i s' ended heq
    rw [heq] at hturn
    exact hturn
  · rename_i s' pending' heq
    rw [heq] at hturn hfree
    exact hturn.runTurns hk hfree

theorem Keeps.runLoop (h : Keeps P p kept s) : Keeps P p kept (runLoop H s).1 := by
  unfold AgentCore.runLoop
  have hsteer := h.withHost (hk.steering s.host h.1)
  exact hsteer.runTurns hk (hk.steered s.host h.1)

theorem Keeps.announcePrompts (h : Keeps P p kept s) (prompts : List AgentMessage) :
    Keeps P p kept (prompts.foldl (announcePrompt H) s) := by
  induction prompts generalizing s with
  | nil => exact h
  | cons m rest ih => exact ih ((h.emit hk _).emit hk _)

theorem runAgentLoop_keeps {host : σ} (hp : P host) (prompts messages : List AgentMessage) :
    Keeps P p ((messages ++ prompts).filter p) (runAgentLoop H prompts messages host).1 := by
  have hstart : Keeps P p ((messages ++ prompts).filter p) ⟨messages ++ prompts, prompts, host⟩ :=
    ⟨hp, rfl⟩
  unfold runAgentLoop
  exact (((hstart.emit hk _).emit hk _).announcePrompts hk prompts).runLoop hk

end Run

section End

variable {E : σ → Prop} (hE : ∀ messages host, E (H.emit (.agentEnd messages) host))
include hE

variable {s : LoopState σ}

theorem afterReply_returned {message : AssistantMessage}
    (h : (afterReply H message s).2 = .done .returned) : E (afterReply H message s).1.host := by
  unfold afterReply at h ⊢
  simp only at h ⊢
  generalize (if message.toolCalls = [] then (s, []) else executeToolCalls H message s) =
    outcome at h ⊢
  split_ifs at h ⊢
  exact hE _ _

variable {pending : List AgentMessage}

theorem runTurn_returned {firstTurn : Bool}
    (h : (runTurn H firstTurn pending s).2 = .done .returned) :
    E (runTurn H firstTurn pending s).1.host := by
  unfold runTurn at h ⊢
  simp only at h ⊢
  generalize streamWithRetry H (pending.foldl (injectPending H)
    (if firstTurn then s else s.emit H .turnStart)) = outcome at h ⊢
  obtain ⟨s', answer⟩ := outcome
  cases answer with
  | error e => cases h
  | ok message =>
    simp only at h ⊢
    split_ifs at h ⊢ with hstop
    · exact hE _ _
    · exact afterReply_returned hE h

theorem runTurns_returned {left : Nat} {firstTurn : Bool}
    (h : (runTurns H left firstTurn pending s).2 = .returned) :
    E (runTurns H left firstTurn pending s).1.host := by
  induction left generalizing firstTurn pending s with
  | zero => exact hE _ _
  | succ left ih =>
    have hturn : (runTurn H firstTurn pending s).2 = .done .returned →
        E (runTurn H firstTurn pending s).1.host := runTurn_returned hE
    unfold runTurns at h ⊢
    generalize runTurn H firstTurn pending s = outcome at h hturn ⊢
    obtain ⟨s', ended⟩ := outcome
    cases ended with
    | done ended => exact hturn (congrArg TurnEnd.done h)
    | again pending' => exact ih h

theorem runAgentLoop_returned {prompts messages : List AgentMessage} {host : σ}
    (h : (runAgentLoop H prompts messages host).2 = .returned) :
    E (runAgentLoop H prompts messages host).1.host := by
  unfold runAgentLoop runLoop at h ⊢
  exact runTurns_returned hE h

end End

end CrabbyKit.AgentCore
