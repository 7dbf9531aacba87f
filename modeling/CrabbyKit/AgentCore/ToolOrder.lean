import CrabbyKit.AgentCore.Brackets
import CrabbyKit.Core.SortedMap

/-!
# The order of tool results

Both modes give one result for each call. One call after the other keeps the source order;
the parallel mode moves the results it gives at once in front of the others.
-/

namespace CrabbyKit.AgentCore

open List

variable {σ τ : Type}

def ToolCall.key (call : ToolCall) : String × String := (call.id, call.name)

def ToolResultMessage.key (result : ToolResultMessage) : String × String :=
  (result.toolCallId, result.toolName)

/-- A result without the time of its making. -/
def ToolResultMessage.untimed (result : ToolResultMessage) : ToolResultMessage :=
  { result with timestamp := 0 }

/-- Whether a call is answered at once. -/
def Preparation.atOnce : Preparation τ → Bool
  | .immediate _ _ => true
  | .prepared _ _ => false

/-- The calls of a reply and whether the preparing pass of the parallel mode answers them at
once: the tool is unknown, its arguments are invalid, or the hook blocks the call or throws. -/
def preparations (H : LoopHost σ τ) (message : AssistantMessage) :
    List ToolCall → LoopState σ → List (ToolCall × Bool)
  | [], _ => []
  | call :: rest, s =>
    let (s, preparation) := prepareToolCall H message call (s.emit H (.toolExecutionStart call))
    match preparation with
    | .immediate result isError =>
      (call, true) :: preparations H message rest (emitToolCallOutcome H call result isError s).1
    | .prepared _ _ => (call, false) :: preparations H message rest s

section Keys

variable (H : LoopHost σ τ)

@[simp] theorem emitToolCallOutcome_key (call : ToolCall) (result : AgentToolResult)
    (isError : Bool) (s : LoopState σ) :
    (emitToolCallOutcome H call result isError s).2.key = call.key := rfl

@[simp] theorem runPrepared_key (call : ToolCall) (tool : τ) (args : String) (s : LoopState σ) :
    (runPrepared H call tool args s).2.key = call.key := by
  simp only [runPrepared, finalizeExecutedToolCall]
  split
  · rfl
  · rfl

variable (message : AssistantMessage)

theorem executeToolCallsSequential_keys (calls : List ToolCall) (s : LoopState σ) :
    (executeToolCallsSequential H message calls s).2.map ToolResultMessage.key =
      calls.map ToolCall.key := by
  induction calls generalizing s with
  | nil => rfl
  | cons call rest ih =>
    simp only [executeToolCallsSequential, map_cons]
    rw [ih]
    cases (prepareToolCall H message call (s.emit H (.toolExecutionStart call))).2 with
    | immediate result isError => rfl
    | prepared tool args => rw [runPrepared_key]

theorem finishToolCalls_keys (runnable : List (ToolCall × τ × String)) (s : LoopState σ) :
    (finishToolCalls H runnable s).2.map ToolResultMessage.key =
      runnable.map fun prepared => prepared.1.key := by
  induction runnable generalizing s with
  | nil => rfl
  | cons prepared rest ih =>
    obtain ⟨call, tool, args⟩ := prepared
    simp only [finishToolCalls, map_cons, runPrepared_key, ih]

theorem preparations_keys (calls : List ToolCall) (s : LoopState σ) :
    (preparations H message calls s).map (fun o => o.1.key) = calls.map ToolCall.key := by
  induction calls generalizing s with
  | nil => rfl
  | cons call rest ih =>
    simp only [preparations]
    cases (prepareToolCall H message call (s.emit H (.toolExecutionStart call))).2 with
    | immediate result isError => exact congrArg (call.key :: ·) (ih _)
    | prepared tool args => exact congrArg (call.key :: ·) (ih _)

theorem prepareToolCalls_keys (calls : List ToolCall) (s : LoopState σ) :
    (prepareToolCalls H message calls s).2.1.map ToolResultMessage.key =
        ((preparations H message calls s).filter Prod.snd).map (fun o => o.1.key) ∧
      (prepareToolCalls H message calls s).2.2.map (fun prepared => prepared.1.key) =
        ((preparations H message calls s).filter fun o => !o.2).map fun o => o.1.key := by
  induction calls generalizing s with
  | nil => exact ⟨rfl, rfl⟩
  | cons call rest ih =>
    simp only [prepareToolCalls, preparations]
    generalize prepareToolCall H message call (s.emit H (.toolExecutionStart call)) = outcome
    obtain ⟨s', preparation⟩ := outcome
    cases preparation with
    | immediate result isError =>
      have hrest := ih (emitToolCallOutcome H call result isError s').1
      exact ⟨congrArg (call.key :: ·) hrest.1, hrest.2⟩
    | prepared tool args =>
      have hrest := ih s'
      exact ⟨hrest.1, congrArg (call.key :: ·) hrest.2⟩

theorem executeToolCallsParallel_keys (calls : List ToolCall) (s : LoopState σ) :
    (executeToolCallsParallel H message calls s).2.map ToolResultMessage.key =
      (frontFirst Prod.snd (preparations H message calls s)).map fun o => o.1.key := by
  obtain ⟨himmediate, hrunnable⟩ := prepareToolCalls_keys H message calls s
  simp only [executeToolCallsParallel, frontFirst, map_append]
  rw [himmediate, finishToolCalls_keys, hrunnable]

end Keys

/-- The hooks and the tools answer a call the same way at any time. -/
structure Independent (H : LoopHost σ τ) : Prop where
  before : ∀ message call args s s',
    (H.beforeToolCall message call args s).1 = (H.beforeToolCall message call args s').1
  execute : ∀ tool args call s s', (H.execute tool args call s).1 = (H.execute tool args call s').1
  after : ∀ call result isError s s',
    (H.afterToolCall call result isError s).1 = (H.afterToolCall call result isError s').1

def atOnce (H : LoopHost σ τ) (message : AssistantMessage) (s : LoopState σ) (call : ToolCall) :
    Bool :=
  (prepareToolCall H message call s).2.atOnce

/-- The result of a call alone, without the time of its making. -/
def answerOf (H : LoopHost σ τ) (message : AssistantMessage) (s : LoopState σ) (call : ToolCall) :
    ToolResultMessage :=
  match (prepareToolCall H message call s).2 with
  | .immediate result isError => (emitToolCallOutcome H call result isError s).2.untimed
  | .prepared tool args => (runPrepared H call tool args s).2.untimed

theorem answerOf_key (H : LoopHost σ τ) (message : AssistantMessage) (s : LoopState σ)
    (call : ToolCall) : (answerOf H message s call).key = call.key := by
  unfold answerOf
  cases (prepareToolCall H message call s).2 with
  | immediate result isError => rfl
  | prepared tool args => exact runPrepared_key H call tool args s

section Independence

variable {H : LoopHost σ τ} (hi : Independent H) (message : AssistantMessage)
include hi

theorem Independent.prepareToolCall (call : ToolCall) (s s' : LoopState σ) :
    (prepareToolCall H message call s).2 = (prepareToolCall H message call s').2 := by
  unfold AgentCore.prepareToolCall
  cases H.findTool call.name with
  | none => rfl
  | some tool =>
    simp only
    cases H.validateToolArguments tool call with
    | error e => rfl
    | ok args =>
      simp only
      rw [hi.before message call args s.host s'.host]
      rcases (H.beforeToolCall message call args s'.host).1 with e | _ | before
      · rfl
      · rfl
      · simp only
        split_ifs
        · rfl
        · rfl

theorem Independent.runPrepared (call : ToolCall) (tool : τ) (args : String) (s s' : LoopState σ) :
    (runPrepared H call tool args s).2.untimed = (runPrepared H call tool args s').2.untimed := by
  have hafter : ∀ (result : AgentToolResult) (isError : Bool) (s s' : LoopState σ),
      (finalizeExecutedToolCall H call result isError s).2.untimed =
        (finalizeExecutedToolCall H call result isError s').2.untimed := by
    intro result isError s s'
    simp only [finalizeExecutedToolCall]
    rw [hi.after call result isError s.host s'.host]
    cases (H.afterToolCall call result isError s'.host).1 with
    | none => rfl
    | some after => rfl
  simp only [AgentCore.runPrepared, executePreparedToolCall]
  rw [hi.execute tool args call s.host s'.host]
  cases (H.execute tool args call s'.host).1 with
  | error e => exact hafter _ true _ _
  | ok result => exact hafter result false _ _

theorem Independent.answerOf (call : ToolCall) (s s' : LoopState σ) :
    answerOf H message s call = answerOf H message s' call := by
  unfold AgentCore.answerOf
  rw [hi.prepareToolCall message call s s']
  cases (AgentCore.prepareToolCall H message call s').2 with
  | immediate result isError => rfl
  | prepared tool args => exact hi.runPrepared call tool args s s'

variable (calls : List ToolCall)

theorem Independent.sequential (s s₀ : LoopState σ) :
    (executeToolCallsSequential H message calls s).2.map ToolResultMessage.untimed =
      calls.map (AgentCore.answerOf H message s₀) := by
  induction calls generalizing s with
  | nil => rfl
  | cons call rest ih =>
    simp only [executeToolCallsSequential, map_cons]
    rw [ih, hi.answerOf message call s₀ (s.emit H (.toolExecutionStart call)), AgentCore.answerOf]
    generalize AgentCore.prepareToolCall H message call (s.emit H (.toolExecutionStart call)) =
      outcome
    obtain ⟨s', preparation⟩ := outcome
    cases preparation with
    | immediate result isError => rfl
    | prepared tool args => exact congrArg (· :: _) (hi.runPrepared call tool args _ _)

theorem Independent.preparations (s s₀ : LoopState σ) :
    preparations H message calls s =
      calls.map fun call => (call, AgentCore.atOnce H message s₀ call) := by
  induction calls generalizing s with
  | nil => rfl
  | cons call rest ih =>
    simp only [AgentCore.preparations, map_cons, AgentCore.atOnce]
    rw [hi.prepareToolCall message call s₀ (s.emit H (.toolExecutionStart call))]
    generalize AgentCore.prepareToolCall H message call (s.emit H (.toolExecutionStart call)) =
      outcome
    obtain ⟨s', preparation⟩ := outcome
    cases preparation with
    | immediate result isError => exact congrArg ((call, true) :: ·) (ih _)
    | prepared tool args => exact congrArg ((call, false) :: ·) (ih _)

theorem Independent.finish (runnable : List (ToolCall × τ × String)) (s s₀ : LoopState σ) :
    (finishToolCalls H runnable s).2.map ToolResultMessage.untimed =
      runnable.map fun p => (AgentCore.runPrepared H p.1 p.2.1 p.2.2 s₀).2.untimed := by
  induction runnable generalizing s with
  | nil => rfl
  | cons prepared rest ih =>
    obtain ⟨call, tool, args⟩ := prepared
    simp only [finishToolCalls, map_cons]
    rw [ih, hi.runPrepared call tool args s s₀]

theorem Independent.prepareToolCalls (s s₀ : LoopState σ) :
    (prepareToolCalls H message calls s).2.1.map ToolResultMessage.untimed =
        (calls.filter (AgentCore.atOnce H message s₀)).map (AgentCore.answerOf H message s₀) ∧
      ((prepareToolCalls H message calls s).2.2.map fun p =>
          (AgentCore.runPrepared H p.1 p.2.1 p.2.2 s₀).2.untimed) =
        (calls.filter fun call => !AgentCore.atOnce H message s₀ call).map
          (AgentCore.answerOf H message s₀) := by
  induction calls generalizing s with
  | nil => exact ⟨rfl, rfl⟩
  | cons call rest ih =>
    have hprepare := hi.prepareToolCall message call s₀ (s.emit H (.toolExecutionStart call))
    simp only [AgentCore.prepareToolCalls]
    generalize AgentCore.prepareToolCall H message call (s.emit H (.toolExecutionStart call)) =
      outcome at hprepare ⊢
    obtain ⟨s', preparation⟩ := outcome
    cases preparation with
    | immediate result isError =>
      have honce : AgentCore.atOnce H message s₀ call = true := by
        rw [AgentCore.atOnce, hprepare]
        rfl
      have hanswer : AgentCore.answerOf H message s₀ call =
          (emitToolCallOutcome H call result isError s').2.untimed := by
        rw [AgentCore.answerOf, hprepare]
        rfl
      obtain ⟨himmediate, hrunnable⟩ := ih (emitToolCallOutcome H call result isError s').1
      constructor
      · rw [filter_cons_of_pos honce, map_cons, map_cons, hanswer, himmediate]
      · rw [filter_cons_of_neg (by simp [honce]), hrunnable]
    | prepared tool args =>
      have honce : AgentCore.atOnce H message s₀ call = false := by
        rw [AgentCore.atOnce, hprepare]
        rfl
      have hanswer : AgentCore.answerOf H message s₀ call =
          (AgentCore.runPrepared H call tool args s₀).2.untimed := by
        rw [AgentCore.answerOf, hprepare]
      obtain ⟨himmediate, hrunnable⟩ := ih s'
      constructor
      · rw [filter_cons_of_neg (by simp [honce]), himmediate]
      · rw [filter_cons_of_pos (by simp [honce]), map_cons, map_cons, hanswer,
          hrunnable]

theorem Independent.parallel (s s₀ : LoopState σ) :
    (executeToolCallsParallel H message calls s).2.map ToolResultMessage.untimed =
      (frontFirst (AgentCore.atOnce H message s₀) calls).map (AgentCore.answerOf H message s₀) := by
  obtain ⟨himmediate, hrunnable⟩ := hi.prepareToolCalls message calls s s₀
  simp only [executeToolCallsParallel, frontFirst, map_append]
  rw [himmediate, hi.finish _ _ s₀, hrunnable]

theorem Independent.isFrontFirst (s s₀ : LoopState σ) :
    IsFrontFirst Prod.snd (AgentCore.preparations H message calls s) ↔
      IsFrontFirst (AgentCore.atOnce H message s₀) calls := by
  rw [hi.preparations message calls s s₀, IsFrontFirst, pairwise_map]
  rfl

end Independence

theorem nodup_keys {calls : List ToolCall} (h : (calls.map ToolCall.id).Nodup) :
    (calls.map ToolCall.key).Nodup := by
  refine Nodup.of_map Prod.fst ?_
  rw [map_map]
  exact h

theorem frontFirst_keys_eq_iff (H : LoopHost σ τ) (message : AssistantMessage)
    {calls : List ToolCall} (hids : (calls.map ToolCall.id).Nodup) (s : LoopState σ) :
    ((frontFirst Prod.snd (preparations H message calls s)).map fun o => o.1.key) =
        calls.map ToolCall.key ↔ IsFrontFirst Prod.snd (preparations H message calls s) := by
  have hkeys := preparations_keys H message calls s
  have hnodup : ((preparations H message calls s).map fun o => o.1.key).Nodup := by
    rw [hkeys]
    exact nodup_keys hids
  rw [← hkeys, map_eq_iff_of_perm (frontFirst_perm _ _) hnodup, frontFirst_eq_iff]

/-- A reply that calls the known tool first and an unknown one second. -/
def knownFirst : AssistantMessage :=
  { content := [.toolCall "call_1" "read" "notes.md", .toolCall "call_2" "grep" "todo"]
    stopReason := .toolUse
    timestamp := 0 }

def unknownFirst : AssistantMessage :=
  { content := [.toolCall "call_1" "grep" "todo", .toolCall "call_2" "read" "notes.md"]
    stopReason := .toolUse
    timestamp := 0 }

def idleState : LoopState Script := ⟨[], [], ⟨[], [], []⟩⟩

theorem scriptHost_independent (maxIterations : Nat) : Independent (scriptHost maxIterations) :=
  ⟨fun _ _ _ _ _ => rfl, fun _ _ _ _ _ => rfl, fun _ _ _ _ _ => rfl⟩

end CrabbyKit.AgentCore
