import CrabbyKit.Batch.Pipeline

/-!
# A direct call

What happens to one tool call that the model makes through the agent loop: which hooks are
asked, whether and with what arguments the tool runs, and whether the answer is an error.
-/

namespace CrabbyKit.Batch

open AgentCore

section Loop

variable {σ τ : Type} {H : LoopHost σ τ} {reply : AssistantMessage} {call : ToolCall}
  {s s₁ : LoopState σ}

theorem executeToolCalls_immediate (hcalls : reply.toolCalls = [call]) {result : AgentToolResult}
    {isError : Bool}
    (hp : prepareToolCall H reply call (s.emit H (.toolExecutionStart call)) =
      (s₁, .immediate result isError)) :
    executeToolCalls H reply s =
      ((emitToolCallOutcome H call result isError s₁).1,
        [(emitToolCallOutcome H call result isError s₁).2]) := by
  simp only [executeToolCalls, hcalls]
  cases H.toolExecution with
  | sequential => simp only [executeToolCallsSequential, hp]
  | parallel =>
    simp only [executeToolCallsParallel, prepareToolCalls, hp, finishToolCalls, List.append_nil]

theorem executeToolCalls_prepared (hcalls : reply.toolCalls = [call]) {tool : τ} {args : String}
    (hp : prepareToolCall H reply call (s.emit H (.toolExecutionStart call)) =
      (s₁, .prepared tool args)) :
    executeToolCalls H reply s =
      ((runPrepared H call tool args s₁).1, [(runPrepared H call tool args s₁).2]) := by
  simp only [executeToolCalls, hcalls]
  cases H.toolExecution with
  | sequential => simp only [executeToolCallsSequential, hp]
  | parallel =>
    simp only [executeToolCallsParallel, prepareToolCalls, hp, finishToolCalls, List.nil_append]

end Loop

variable {σ Schema : Type}

/-- A tool name with arguments: a descriptor of the batch tool. -/
structure SubCall where
  tool : String
  args : String
  deriving DecidableEq, Repr

/-- The same call by the model itself. -/
def SubCall.toToolCall (call : SubCall) (id : String) : ToolCall := ⟨id, call.tool, call.args⟩

def replyOf (call : ToolCall) : AssistantMessage :=
  { content := [.toolCall call.id call.name call.arguments]
    stopReason := .toolUse
    timestamp := 0 }

@[simp] theorem replyOf_toolCalls (call : ToolCall) : (replyOf call).toolCalls = [call] := rfl

namespace Session

/-- What a call made through the loop leaves: its marks, and whether its answer is an error. -/
structure DirectRun where
  marks : List Mark
  isError : Bool
  deriving DecidableEq, Repr

/-- A call made through the loop by the model. -/
def directCall (S : Session σ Schema) (call : ToolCall) (world : σ) : DirectRun :=
  let (s, results) := executeToolCalls S.host (replyOf call) ⟨[], [], ⟨world, []⟩⟩
  ⟨s.host.marks, results.any ToolResultMessage.isError⟩

theorem askHooks_cons_marks (event : BeforeToolExecutionEvent)
    (hooks : List (BeforeToolExecutionEvent → σ →
      Except String (Option BeforeToolCallResult) × σ)) (position : Nat) (s : Scene σ) :
    ∃ later, (askHooks event hooks position s).2.marks = s.marks ++ later ∧
      (hooks ≠ [] → later.head? = some (.asked position)) := by
  induction hooks generalizing position s with
  | nil => exact ⟨[], (List.append_nil _).symm, fun h => absurd rfl h⟩
  | cons hook rest ih =>
    obtain ⟨later, hlater, -⟩ := ih (position + 1) ⟨(hook event s.world).2,
      s.marks ++ [.asked position]⟩
    have hgoOn : (askHooks event rest (position + 1)
        ⟨(hook event s.world).2, s.marks ++ [.asked position]⟩).2.marks =
          s.marks ++ .asked position :: later := by
      rw [hlater, List.append_assoc, List.singleton_append]
    simp only [askHooks]
    split
    · split
      · exact ⟨[.asked position], rfl, fun _ => rfl⟩
      · exact ⟨_, hgoOn, fun _ => rfl⟩
    · exact ⟨_, hgoOn, fun _ => rfl⟩
    · exact ⟨_, hgoOn, fun _ => rfl⟩

theorem tellHooks_marks (event : AfterToolExecutionEvent)
    (hooks : List (AfterToolExecutionEvent → σ → σ)) (position : Nat) (s : Scene σ) :
    (tellHooks event hooks position s).marks =
      s.marks ++ (List.range' position hooks.length).map Mark.told := by
  induction hooks generalizing position s with
  | nil => exact (List.append_nil _).symm
  | cons hook rest ih =>
    simp only [tellHooks, ih, List.length_cons, List.range'_succ, List.map_cons, List.append_assoc,
      List.singleton_append]

section Host

variable (S : Session σ Schema)

theorem emitToolCallOutcome_marks (call : ToolCall) (result : AgentToolResult) (isError : Bool)
    (s : LoopState (Scene σ)) :
    (emitToolCallOutcome S.host call result isError s).1.host.marks = s.host.marks := rfl

theorem emitToolCallOutcome_isError (call : ToolCall) (result : AgentToolResult) (isError : Bool)
    (s : LoopState (Scene σ)) :
    (emitToolCallOutcome S.host call result isError s).2.isError = isError := rfl

theorem runPrepared_marks (call : ToolCall) (tool : AgentTool σ Schema) (args : String)
    (s : LoopState (Scene σ)) :
    (runPrepared S.host call tool args s).1.host.marks = s.host.marks ++ .ran tool.name args ::
      (List.range' 0 S.afterToolExecutionHooks.length).map Mark.told := by
  have hran : (executePreparedToolCall S.host call tool args s).1.host.marks =
      s.host.marks ++ [.ran tool.name args] := by
    simp only [executePreparedToolCall]
    split <;> rfl
  calc (runPrepared S.host call tool args s).1.host.marks
      = (executePreparedToolCall S.host call tool args s).1.host.marks ++
          (List.range' 0 S.afterToolExecutionHooks.length).map Mark.told :=
        tellHooks_marks _ S.afterToolExecutionHooks 0 _
    _ = s.host.marks ++ .ran tool.name args ::
          (List.range' 0 S.afterToolExecutionHooks.length).map Mark.told := by
        rw [hran, List.append_assoc, List.singleton_append]

theorem runPrepared_isError (call : ToolCall) (tool : AgentTool σ Schema) (args : String)
    (s : LoopState (Scene σ)) :
    (runPrepared S.host call tool args s).2.isError =
      !(tool.execute args ⟨call.id, true, true⟩ s.host.world).1.isOk := by
  have hexecute : (executePreparedToolCall S.host call tool args s).2.2 =
      !(tool.execute args ⟨call.id, true, true⟩ s.host.world).1.isOk := by
    simp only [executePreparedToolCall, host, runTool]
    cases (tool.execute args ⟨call.id, true, true⟩ s.host.world).1 <;> rfl
  exact hexecute

variable {S} {call : ToolCall} {tool : AgentTool σ Schema} {args : String}

def announced (S : Session σ Schema) (call : ToolCall) (world : σ) : LoopState (Scene σ) :=
  LoopState.emit S.host (.toolExecutionStart call) ⟨[], [], ⟨world, []⟩⟩

theorem directCall_immediate {s : LoopState (Scene σ)} {result : AgentToolResult}
    {isError : Bool} {world : σ}
    (hp : prepareToolCall S.host (replyOf call) call (announced S call world) =
      (s, .immediate result isError)) : S.directCall call world = ⟨s.host.marks, isError⟩ := by
  rw [directCall, executeToolCalls_immediate (replyOf_toolCalls call) hp]
  simp only [List.any_cons, List.any_nil, Bool.or_false, emitToolCallOutcome_marks,
    emitToolCallOutcome_isError]

theorem directCall_prepared {s : LoopState (Scene σ)} {world : σ}
    (hp : prepareToolCall S.host (replyOf call) call (announced S call world) =
      (s, .prepared tool args)) :
    S.directCall call world =
      ⟨s.host.marks ++ .ran tool.name args ::
          (List.range' 0 S.afterToolExecutionHooks.length).map Mark.told,
        !(tool.execute args ⟨call.id, true, true⟩ s.host.world).1.isOk⟩ := by
  rw [directCall, executeToolCalls_prepared (replyOf_toolCalls call) hp]
  simp only [List.any_cons, List.any_nil, Bool.or_false, runPrepared_marks, runPrepared_isError]

theorem directCall_unfound (hfind : S.findTool call.name = none) (world : σ) :
    S.directCall call world = ⟨[], true⟩ := by
  apply directCall_immediate (s := announced S call world)
  have hhost : S.host.findTool call.name = none := hfind
  simp only [prepareToolCall, hhost]
  rfl

theorem directCall_invalid (hfind : S.findTool call.name = some tool) {e : String}
    (hinvalid : S.validateToolArguments tool call = .error e) (world : σ) :
    S.directCall call world = ⟨[], true⟩ := by
  apply directCall_immediate (s := announced S call world)
  have hhost : S.host.findTool call.name = some tool := hfind
  have hargs : S.host.validateToolArguments tool call = .error e := hinvalid
  simp only [prepareToolCall, hhost, hargs]
  rfl

theorem directCall_asked (hfind : S.findTool call.name = some tool)
    (hvalid : S.validateToolArguments tool call = .ok args)
    (hhooks : S.beforeToolExecutionHooks ≠ []) (world : σ) :
    (S.directCall call world).marks.head? = some (.asked 0) := by
  have hhost : S.host.findTool call.name = some tool := hfind
  have hargs : S.host.validateToolArguments tool call = .ok args := hvalid
  obtain ⟨later, hmarks, hfirst⟩ := askHooks_cons_marks ⟨call.name, args, call.id⟩
    S.beforeToolExecutionHooks 0 (announced S call world).host
  have hhead : ∀ more, (((askHooks ⟨call.name, args, call.id⟩ S.beforeToolExecutionHooks 0
      (announced S call world).host).2.marks) ++ more).head? = some (.asked 0) := by
    intro more
    have hnil : (announced S call world).host.marks = [] := rfl
    rw [hmarks, hnil, List.nil_append, List.head?_append, hfirst hhooks]
    rfl
  cases hp : prepareToolCall S.host (replyOf call) call (announced S call world) with
  | mk s preparation =>
    have hs : s.host = (askHooks ⟨call.name, args, call.id⟩ S.beforeToolExecutionHooks 0
        (announced S call world).host).2 := by
      have hstate : (prepareToolCall S.host (replyOf call) call (announced S call world)).1.host =
          (askHooks ⟨call.name, args, call.id⟩ S.beforeToolExecutionHooks 0
            (announced S call world).host).2 := by
        simp only [prepareToolCall, hhost, hargs]
        split <;> (try split) <;> rfl
      rw [← hstate, hp]
    cases preparation with
    | immediate result isError =>
      have hnone := hhead []
      rw [List.append_nil, ← hs] at hnone
      rw [directCall_immediate hp]
      exact hnone
    | prepared tool args =>
      rw [directCall_prepared hp, hs]
      exact hhead _

theorem directCall_ran (hfind : S.findTool call.name = some tool)
    (hvalid : S.validateToolArguments tool call = .ok args)
    (hhooks : S.beforeToolExecutionHooks = []) (world : σ) :
    S.directCall call world =
      ⟨.ran tool.name args :: (List.range' 0 S.afterToolExecutionHooks.length).map Mark.told,
        !(tool.execute args ⟨call.id, true, true⟩
          (S.listeners (.toolExecutionStart call) world)).1.isOk⟩ := by
  apply directCall_prepared (s := announced S call world)
  have hhost : S.host.findTool call.name = some tool := hfind
  have hargs : S.host.validateToolArguments tool call = .ok args := hvalid
  have hask : S.host.beforeToolCall (replyOf call) call args (announced S call world).host =
      (.ok none, (announced S call world).host) := by
    simp only [host, hhooks, askHooks]
  simp only [prepareToolCall, hhost, hargs, hask]

end Host

end Session

end CrabbyKit.Batch

/-!
## The batch tool

`batchTool` of `batch-tool/src/capability.ts`: the tool that makes several tool calls at
once. Each sub-call goes to its tool, past the loop's pipeline.
-/

namespace CrabbyKit.Batch

open AgentCore Modes

def MAX_BATCH_SIZE : Nat := 25

def BATCH_TOOL_NAME : String := "batch"

structure SubCallResult where
  tool : String
  success : Bool
  result : Option AgentToolResult := none
  error : Option String := none
  deriving DecidableEq, Repr

/-- What the details of the batch result keep of a sub-call. -/
structure BatchEntry where
  tool : String
  success : Bool
  error : Option String
  deriving DecidableEq, Repr

/-- The answer of the batch tool: its text, its error flag and the results in its details. -/
structure BatchAnswer where
  text : String
  isError : Bool := false
  results : List BatchEntry := []
  deriving DecidableEq, Repr

variable {σ Schema : Type}

def blockText : ContentBlock → Option String
  | .text text => if text = "" then none else some text
  | _ => none

def summaryLine (position : Nat) (r : SubCallResult) : String :=
  let label := "[" ++ toString position ++ "] " ++ r.tool
  let failed := label ++ ": ERROR — " ++ r.error.getD "undefined"
  if r.success then
    match r.result with
    | some result =>
      let text := "\n".intercalate (result.content.filterMap blockText)
      label ++ ": OK\n" ++ (if text = "" then "(no text output)" else text)
    | none => failed
  else failed

namespace Session

def subCall (S : Session σ Schema) (call : SubCall) (s : Scene σ) : SubCallResult × Scene σ :=
  if call.tool = BATCH_TOOL_NAME then
    ({ tool := call.tool, success := false, error := some "Recursive batch calls are not allowed" },
      s)
  else
    match S.resolveToolsForSession.find? fun t => t.name = call.tool with
    | none =>
      ({ tool := call.tool, success := false,
         error := some ("Tool '" ++ call.tool ++ "' not found") }, s)
    | some tool =>
      let (outcome, s) := runTool tool call.args { toolCallId := "batch-" ++ call.tool } s
      match outcome with
      | .ok result => ({ tool := call.tool, success := true, result := some result }, s)
      | .error e => ({ tool := call.tool, success := false, error := some e }, s)

/-- The sub-calls of a batch. They run at the same time: `met i` is the world in which the
one at position `i` finds itself. -/
def subCalls (S : Session σ Schema) (calls : List SubCall) (met : Nat → σ) :
    List (SubCallResult × Scene σ) :=
  calls.mapIdx fun i call => S.subCall call ⟨met i, []⟩

/-- The `execute` of the batch tool: its answer and the marks of each sub-call. -/
def executeBatch (S : Session σ Schema) (calls : List SubCall) (met : Nat → σ) :
    BatchAnswer × List (List Mark) :=
  if calls.length = 0 then ({ text := "Batch completed: 0 calls (empty batch)." }, [])
  else if calls.length > MAX_BATCH_SIZE then
    ({ text := "Batch limited to " ++ toString MAX_BATCH_SIZE ++ " tool calls, received " ++
          toString calls.length
       isError := true }, [])
  else
    let runs := S.subCalls calls met
    let results := runs.map Prod.fst
    let succeeded := (results.filter fun r => r.success).length
    let failed := (results.filter fun r => !r.success).length
    ({ text := "Batch completed: " ++ toString succeeded ++ " succeeded, " ++ toString failed ++
          " failed.\n\n" ++ "\n\n".intercalate (results.mapIdx summaryLine)
       results := results.map fun r => ⟨r.tool, r.success, r.error⟩ },
      runs.map fun run => run.2.marks)

def subTool (S : Session σ Schema) (name : String) : Option (AgentTool σ Schema) :=
  if name = BATCH_TOOL_NAME then none
  else S.resolveToolsForSession.find? fun t => t.name = name

section SubCalls

variable (S : Session σ Schema)

@[simp] theorem subCall_tool (call : SubCall) (s : Scene σ) :
    (S.subCall call s).1.tool = call.tool := by
  simp only [subCall]
  split
  · rfl
  · split
    · rfl
    · split <;> rfl

variable {S} {call : SubCall}

theorem subCall_none (h : S.subTool call.tool = none) (s : Scene σ) :
    (S.subCall call s).1.success = false ∧ (S.subCall call s).2 = s := by
  simp only [subTool] at h
  simp only [subCall]
  split_ifs at h ⊢
  · exact ⟨rfl, rfl⟩
  · simp only [h, and_self]

theorem subCall_some {tool : AgentTool σ Schema} (h : S.subTool call.tool = some tool)
    (s : Scene σ) :
    (S.subCall call s).1.success =
        (tool.execute call.args { toolCallId := "batch-" ++ call.tool } s.world).1.isOk ∧
      (S.subCall call s).2.marks = s.marks ++ [.ran tool.name call.args] := by
  simp only [subTool] at h
  simp only [subCall]
  split_ifs at h ⊢
  simp only [h, runTool]
  cases (tool.execute call.args { toolCallId := "batch-" ++ call.tool } s.world).1 with
  | ok result => exact ⟨rfl, rfl⟩
  | error e => exact ⟨rfl, rfl⟩

variable {calls : List SubCall}

theorem executeBatch_runs (h : calls.length ≤ MAX_BATCH_SIZE) (met : Nat → σ) :
    (S.executeBatch calls met).1.results =
        (S.subCalls calls met).map (fun run => ⟨run.1.tool, run.1.success, run.1.error⟩) ∧
      (S.executeBatch calls met).2 = (S.subCalls calls met).map fun run => run.2.marks := by
  simp only [executeBatch]
  split_ifs with hempty hlong
  · rw [List.length_eq_zero_iff.mp hempty]
    exact ⟨rfl, rfl⟩
  · omega
  · exact ⟨List.map_map, rfl⟩

theorem executeBatch_long (h : MAX_BATCH_SIZE < calls.length)
    (met : Nat → σ) : (S.executeBatch calls met).1.results = [] := by
  simp only [executeBatch]
  split_ifs
  · rfl
  · rfl

theorem executeBatch_inOrder (h : calls.length ≤ MAX_BATCH_SIZE) (met : Nat → σ) :
    (S.executeBatch calls met).1.results.map BatchEntry.tool = calls.map SubCall.tool := by
  rw [(executeBatch_runs h met).1, List.map_map]
  apply List.ext_getElem?
  intro i
  simp only [subCalls, List.getElem?_map, List.getElem?_mapIdx, Option.map_map]
  cases calls[i]? with
  | none => rfl
  | some call => simp only [Option.map_some, Function.comp_apply, subCall_tool]

theorem executeBatch_entry (h : calls.length ≤ MAX_BATCH_SIZE)
    (met : Nat → σ) (i : Nat) :
    (S.executeBatch calls met).1.results[i]? = calls[i]?.map fun call =>
      let result := (S.subCall call ⟨met i, []⟩).1
      ⟨result.tool, result.success, result.error⟩ := by
  rw [(executeBatch_runs h met).1]
  simp only [subCalls, List.getElem?_map, List.getElem?_mapIdx, Option.map_map]
  rfl

theorem executeBatch_marks (h : calls.length ≤ MAX_BATCH_SIZE) (met : Nat → σ) (i : Nat) :
    (S.executeBatch calls met).2[i]? = calls[i]?.map fun call =>
      (S.subCall call ⟨met i, []⟩).2.marks := by
  rw [(executeBatch_runs h met).2]
  simp only [subCalls, List.getElem?_map, List.getElem?_mapIdx, Option.map_map]
  rfl

theorem executeBatch_independent (calls : List SubCall) {met met' : Nat → σ} {i j : Nat}
    (call : SubCall) (hij : i ≠ j) (hmet : ∀ k, k ≠ j → met' k = met k) :
    (S.executeBatch (calls.set j call) met').1.results[i]? =
      (S.executeBatch calls met).1.results[i]? := by
  by_cases h : calls.length ≤ MAX_BATCH_SIZE
  · have hset : (calls.set j call).length ≤ MAX_BATCH_SIZE := by rwa [List.length_set]
    rw [executeBatch_entry h, executeBatch_entry hset, List.getElem?_set_ne hij.symm, hmet i hij]
  · have hset : MAX_BATCH_SIZE < (calls.set j call).length := by rw [List.length_set]; omega
    rw [executeBatch_long hset, executeBatch_long (Nat.lt_of_not_le h)]

end SubCalls

end Session

end CrabbyKit.Batch
