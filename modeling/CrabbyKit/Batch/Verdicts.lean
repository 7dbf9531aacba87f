import CrabbyKit.Batch.Pipeline

/-!
# The verdict on a tool call

A tool says that it failed by throwing or by a field of what it returns, as `wrapWithTimeout` and
`toolResult.error` of `define-tool.ts` do. The agent loop runs it and tells the hooks, the
listeners, the model and the session whether the call is an error.
-/

namespace CrabbyKit.Batch

open AgentCore

/-- A tool whose results carry `isError`. `settledBefore` is as in `AgentTool`. -/
structure FlaggedTool (σ : Type) where
  name : String
  execute : String → String → σ → Except String (AgentToolResult × Bool) × σ
  settledBefore : Nat → String → String → σ → Bool

variable {σ : Type}

namespace FlaggedTool

def wrapWithTimeout (timeoutMs : Nat) (tool : FlaggedTool σ) : FlaggedTool σ :=
  { tool with
    execute := fun args toolCallId world =>
      let (outcome, after) := tool.execute args toolCallId world
      if tool.settledBefore timeoutMs args toolCallId world then (outcome, after)
      else (.ok (timeoutResult tool.name timeoutMs, true), after)
    settledBefore := fun limit args toolCallId world =>
      decide (timeoutMs < limit) || tool.settledBefore limit args toolCallId world }

/-- `toolResult.text`. -/
def resultText (text : String) (details : Option String) : AgentToolResult × Bool :=
  (⟨[.text text], details.getD "\x7b\x7d"⟩, false)

/-- `toolResult.error`. -/
def resultError (text : String) (details : Option String) : AgentToolResult × Bool :=
  (⟨[.text text], details.getD "\x7b\"error\":true\x7d"⟩, true)

end FlaggedTool

/-- The world with what is told of calls: to `afterToolCall`, in `tool_execution_end`, and in the
entries of the session. -/
structure World (σ : Type) where
  inner : σ
  told : List (String × Bool) := []
  ended : List (String × Bool) := []
  entries : List ToolResultMessage := []
  deriving DecidableEq, Repr

/-- A runtime: its loop, the hooks of the capabilities, and an `afterToolCall` that may override. -/
structure Runtime (σ : Type) where
  loop : LoopHost (World σ) (FlaggedTool σ)
  afterToolExecutionHooks : List (String → Bool → σ → σ)
  override : ToolCall → AgentToolResult → Bool → σ → Option AfterToolCallResult
  listeners : AgentEvent → σ → σ

namespace Runtime

/-- `handleAgentEvent`: the end of a call becomes an entry of the session. -/
def handleAgentEvent (R : Runtime σ) (event : AgentEvent) (w : World σ) : World σ :=
  let w := { w with inner := R.listeners event w.inner }
  match event with
  | .toolExecutionEnd call result isError =>
    { w with
      ended := w.ended ++ [(call.id, isError)]
      entries := w.entries ++
        [⟨call.id, call.name, result.content, result.details, isError, R.loop.now w⟩] }
  | _ => w

/-- The bridge from `afterToolCall` to the hooks, and what overrides. -/
def afterToolCall (R : Runtime σ) (call : ToolCall) (result : AgentToolResult) (isError : Bool)
    (w : World σ) : Option AfterToolCallResult × World σ :=
  (R.override call result isError w.inner,
    { w with
      inner := R.afterToolExecutionHooks.foldl (fun s hook => hook call.name isError s) w.inner
      told := w.told ++ [(call.name, isError)] })

/-- The loop of the runtime: of what a tool returns it reads `content` and `details`. -/
def host (R : Runtime σ) : LoopHost (World σ) (FlaggedTool σ) :=
  { R.loop with
    emit := R.handleAgentEvent
    execute := fun tool args call w =>
      let (outcome, inner) := tool.execute args call.id w.inner
      (outcome.map Prod.fst, { w with inner := inner })
    afterToolCall := R.afterToolCall }

/-- What both modes do with a call that went through `prepareToolCall`. -/
def settle (R : Runtime σ) (call : ToolCall) (s : LoopState (World σ)) :
    Preparation (FlaggedTool σ) → LoopState (World σ) × ToolResultMessage
  | .immediate result isError => emitToolCallOutcome R.host call result isError s
  | .prepared tool args => runPrepared R.host call tool args s

def outcome (call : ToolCall) (s : LoopState (World σ)) :
    Preparation (FlaggedTool σ) → Option (Except String (AgentToolResult × Bool))
  | .immediate _ _ => none
  | .prepared tool args => some (tool.execute args call.id s.host.inner).1

def reported : Except String (AgentToolResult × Bool) → AgentToolResult
  | .ok (result, _) => result
  | .error e => createErrorToolResult e

/-- A call succeeds if its tool runs and returns something that is no error. -/
def Succeeds (call : ToolCall) (s : LoopState (World σ))
    (preparation : Preparation (FlaggedTool σ)) : Prop :=
  ∃ result, outcome call s preparation = some (.ok (result, false))

/-- One verdict on a call: hooks are told it, what is announced, answered and stored is it or what
overrides it, and it says whether the call failed. -/
structure VerdictLaw (R : Runtime σ) (call : ToolCall) (s : LoopState (World σ))
    (preparation : Preparation (FlaggedTool σ)) (verdict : Bool) : Prop where
  correct : verdict = true ↔ ¬Succeeds call s preparation
  hooks : ∃ told, (R.settle call s preparation).1.host.told = s.host.told ++ told ∧
    ∀ t ∈ told, t = (call.name, verdict)
  shared : ∃ entry ∈ (R.settle call s preparation).1.host.entries.getLast?,
    (R.settle call s preparation).1.host.ended = s.host.ended ++ [(call.id, entry.isError)] ∧
    (R.settle call s preparation).1.host.entries = s.host.entries ++ [entry] ∧
    (R.settle call s preparation).2.isError = entry.isError ∧
    (entry.isError = verdict ∨ ∃ tool args result after, preparation = .prepared tool args ∧
      R.override call result verdict (tool.execute args call.id s.host.inner).2 = some after ∧
      after.isError = some entry.isError)

theorem prepareToolCall_immediate {τ : Type} (H : LoopHost (World σ) τ) (message : AssistantMessage)
    (call : ToolCall) (s : LoopState (World σ)) {result : AgentToolResult} {isError : Bool}
    (h : (prepareToolCall H message call s).2 = .immediate result isError) : isError = true := by
  unfold prepareToolCall at h
  split at h
  · cases h
    rfl
  · split at h
    · cases h
      rfl
    · simp only at h
      split at h
      · cases h
        rfl
      · cases h
      · split_ifs at h
        cases h
        rfl

theorem emitToolCallOutcome_shared (R : Runtime σ) (call : ToolCall) (result : AgentToolResult)
    (isError : Bool) (s : LoopState (World σ)) :
    let after := emitToolCallOutcome R.host call result isError s
    after.1.host.told = s.host.told ∧
      ∃ entry ∈ after.1.host.entries.getLast?,
        after.1.host.ended = s.host.ended ++ [(call.id, entry.isError)] ∧
        after.1.host.entries = s.host.entries ++ [entry] ∧
        after.2.isError = entry.isError ∧ entry.isError = isError :=
  ⟨rfl, _, List.getLast?_concat, rfl, rfl, rfl, rfl⟩

theorem runPrepared_shared (R : Runtime σ) (call : ToolCall) (tool : FlaggedTool σ) (args : String)
    (s : LoopState (World σ)) :
    let verdict := !(tool.execute args call.id s.host.inner).1.isOk
    let after := runPrepared R.host call tool args s
    after.1.host.told = s.host.told ++ [(call.name, verdict)] ∧
      ∃ entry ∈ after.1.host.entries.getLast?,
        after.1.host.ended = s.host.ended ++ [(call.id, entry.isError)] ∧
        after.1.host.entries = s.host.entries ++ [entry] ∧
        after.2.isError = entry.isError ∧
        (entry.isError = verdict ∨ ∃ result after,
          R.override call result verdict (tool.execute args call.id s.host.inner).2 = some after ∧
          after.isError = some entry.isError) := by
  have hfinal : ∀ (result : AgentToolResult) (isError : Bool) (s : LoopState (World σ)),
      let after := finalizeExecutedToolCall R.host call result isError s
      after.1.host.told = s.host.told ++ [(call.name, isError)] ∧
        ∃ entry ∈ after.1.host.entries.getLast?,
          after.1.host.ended = s.host.ended ++ [(call.id, entry.isError)] ∧
          after.1.host.entries = s.host.entries ++ [entry] ∧
          after.2.isError = entry.isError ∧
          (entry.isError = isError ∨ ∃ after,
            R.override call result isError s.host.inner = some after ∧
            after.isError = some entry.isError) := by
    intro result isError s
    simp only [finalizeExecutedToolCall, host, afterToolCall]
    cases hoverride : R.override call result isError s.host.inner with
    | none =>
      obtain ⟨htold, entry, hentry, hended, hentries, hmessage, hflag⟩ :=
        emitToolCallOutcome_shared R call result isError
          { s with host := (R.afterToolCall call result isError s.host).2 }
      exact ⟨htold, entry, hentry, hended, hentries, hmessage, .inl hflag⟩
    | some after =>
      obtain ⟨htold, entry, hentry, hended, hentries, hmessage, hflag⟩ :=
        emitToolCallOutcome_shared R call
          ⟨after.content.getD result.content, after.details.getD result.details⟩
          (after.isError.getD isError)
          { s with host := (R.afterToolCall call result isError s.host).2 }
      refine ⟨htold, entry, hentry, hended, hentries, hmessage, ?_⟩
      cases hset : after.isError with
      | none =>
        rw [hset, Option.getD_none] at hflag
        exact .inl hflag
      | some flag =>
        rw [hset, Option.getD_some] at hflag
        exact .inr ⟨after, rfl, by rw [hset, hflag]⟩
  have hrun : runPrepared R.host call tool args s = finalizeExecutedToolCall R.host call
      (reported (tool.execute args call.id s.host.inner).1)
      (!(tool.execute args call.id s.host.inner).1.isOk)
      { s with host := { s.host with inner := (tool.execute args call.id s.host.inner).2 } } := by
    simp only [runPrepared, executePreparedToolCall]
    unfold host
    simp only
    cases (tool.execute args call.id s.host.inner).1 <;> rfl
  intro verdict after
  obtain ⟨htold, entry, hentry, hended, hentries, hmessage, hflag⟩ := hfinal _ _ _
  rw [← hrun] at htold hentry hended hentries hmessage
  exact ⟨htold, entry, hentry, hended, hentries, hmessage,
    hflag.imp_right fun ⟨after, hafter⟩ => ⟨_, after, hafter⟩⟩

theorem VerdictLaw.outcome_ne {R : Runtime σ} {call : ToolCall} {s : LoopState (World σ)}
    {preparation : Preparation (FlaggedTool σ)} {verdict : Bool}
    (h : VerdictLaw R call s preparation verdict) (result : AgentToolResult) :
    outcome call s preparation ≠ some (.ok (result, true)) := by
  intro hfailed
  cases preparation with
  | immediate _ _ => cases hfailed
  | prepared tool args =>
    have hreturned : (tool.execute args call.id s.host.inner).1 = .ok (result, true) :=
      Option.some.inj hfailed
    obtain ⟨told, htold, hall⟩ := h.hooks
    have hsame :=
      List.append_cancel_left ((runPrepared_shared R call tool args s).1.symm.trans htold)
    rw [← hsame, hreturned] at hall
    have hverdict : verdict = false := (congrArg Prod.snd (hall _ List.mem_cons_self)).symm
    refine absurd (h.correct.mpr ?_) (Bool.eq_false_iff.mp hverdict)
    rintro ⟨other, hother⟩
    rw [hfailed] at hother
    cases hother

/-- A call has one verdict, and the right one, just where its tool returns no error as a value. -/
theorem verdictLaw_iff (R : Runtime σ) (message : AssistantMessage) (call : ToolCall)
    (s₀ s : LoopState (World σ)) :
    (∃ verdict, VerdictLaw R call s (prepareToolCall R.host message call s₀).2 verdict) ↔
      ∀ result, outcome call s (prepareToolCall R.host message call s₀).2 ≠
        some (.ok (result, true)) := by
  cases hprepare : (prepareToolCall R.host message call s₀).2 with
  | immediate result isError =>
    obtain rfl := prepareToolCall_immediate R.host message call s₀ hprepare
    refine iff_of_true ⟨true, ?_, ?_, ?_⟩ fun result h => by cases h
    · exact iff_of_true rfl fun ⟨result, h⟩ => by cases h
    · exact ⟨[], (List.append_nil _).symm, fun t ht => by cases ht⟩
    · obtain ⟨-, entry, hentry, hended, hentries, hmessage, hflag⟩ :=
        emitToolCallOutcome_shared R call result true s
      exact ⟨entry, hentry, hended, hentries, hmessage, .inl hflag⟩
  | prepared tool args =>
    obtain ⟨htold, entry, hentry, hended, hentries, hmessage, hflag⟩ :=
      runPrepared_shared R call tool args s
    constructor
    · rintro ⟨verdict, hlaw⟩ result
      exact hlaw.outcome_ne result
    · intro hvalue
      refine ⟨!(tool.execute args call.id s.host.inner).1.isOk, ?_,
        ⟨_, htold, fun t ht => List.mem_singleton.mp ht⟩,
        entry, hentry, hended, hentries, hmessage, ?_⟩
      · cases hrun : (tool.execute args call.id s.host.inner).1 with
        | error e =>
          refine iff_of_true rfl fun ⟨result, h⟩ => ?_
          rw [outcome, hrun] at h
          cases h
        | ok returned =>
          obtain ⟨result, failed⟩ := returned
          cases failed with
          | true => exact absurd (congrArg some hrun) (hvalue result)
          | false =>
            exact iff_of_false Bool.false_ne_true (not_not.mpr ⟨result, congrArg some hrun⟩)
      · exact hflag.imp_right fun ⟨result, after, h⟩ => ⟨tool, args, result, after, rfl, h⟩

def hanging : Runtime Unit where
  loop :=
    { emit := fun _ w => w
      transformContext := fun messages w => (messages, w)
      convertToLlm := id
      streamFn := fun _ w => (.error "offline", w)
      aborted := fun _ => false
      sleep := fun _ w => w
      getSteeringMessages := fun w => ([], w)
      getFollowUpMessages := fun w => ([], w)
      findTool := fun _ => some (FlaggedTool.wrapWithTimeout 1000
        ⟨"search", fun _ _ w => (.ok (FlaggedTool.resultText "" none), w), fun _ _ _ _ => false⟩)
      toolNotFoundError := id
      validateToolArguments := fun _ call => .ok call.arguments
      beforeToolCall := fun _ _ _ w => (.ok none, w)
      execute := fun _ _ _ w => (.error "", w)
      afterToolCall := fun _ _ _ w => (none, w)
      now := fun _ => 0
      toolExecution := .sequential
      maxIterations := 10
      maxStreamRetries := 3
      baseRetryDelayMs := 1000 }
  afterToolExecutionHooks := []
  override := fun _ _ _ _ => none
  listeners := fun _ w => w

/-- A search that times out is no error for anyone. -/
theorem hanging_no_verdictLaw :
    ¬∃ verdict, VerdictLaw hanging ⟨"1", "search", "\x7b\x7d"⟩ ⟨[], [], ⟨(), [], [], []⟩⟩
      (prepareToolCall hanging.host ⟨[], .toolUse, none, 0, none⟩ ⟨"1", "search", "\x7b\x7d"⟩
        ⟨[], [], ⟨(), [], [], []⟩⟩).2 verdict :=
  fun ⟨_, hlaw⟩ => hlaw.outcome_ne (timeoutResult "search" 1000) rfl

end Runtime

end CrabbyKit.Batch
