import CrabbyKit.AgentCore.Loop
import CrabbyKit.Modes.Filter

/-!
# The tool pipeline of a session

What stands between the model and a tool in a session: the tools that the active mode
leaves, the default timeout around them, the validation of arguments and the hooks of the
capabilities, set up for the agent loop as `ensureAgent` does it.
-/

namespace CrabbyKit.Batch

open AgentCore Modes

/-- The second argument of a tool: the id of the call, and whether a signal and an
`onUpdate` callback come with it. -/
structure ToolExecuteContext where
  toolCallId : String
  signal : Bool := false
  onUpdate : Bool := false
  deriving DecidableEq, Repr

/-- A tool. What it does depends on the world `σ` it finds, and `settledBefore` says whether
it would return or throw before a timer of so many milliseconds. -/
structure AgentTool (σ Schema : Type) where
  name : String
  parameters : Schema
  execute : String → ToolExecuteContext → σ → Except String AgentToolResult × σ
  settledBefore : Nat → String → ToolExecuteContext → σ → Bool

structure ValidationError where
  instancePath : String
  missingProperty : Option String
  message : String
  deriving DecidableEq, Repr

/-- What a `beforeToolExecution` hook is told. -/
structure BeforeToolExecutionEvent where
  toolName : String
  args : String
  toolCallId : String
  deriving DecidableEq, Repr

/-- What an `afterToolExecution` hook is told. -/
structure AfterToolExecutionEvent where
  toolName : String
  args : String
  isError : Bool
  deriving DecidableEq, Repr

/-- What happens to a tool call: hooks by their position, and the tool with its arguments. -/
inductive Mark
  | asked (position : Nat)
  | ran (tool args : String)
  | told (position : Nat)
  deriving DecidableEq, Repr

/-- The world, with what has happened to a call so far. -/
structure Scene (σ : Type) where
  world : σ
  marks : List Mark
  deriving DecidableEq, Repr

variable {σ Schema : Type}

/-- A session: its tools, hooks and settings. A hook that throws is reported and passed over:
what it leaves of the world includes the report. -/
structure Session (σ Schema : Type) where
  baseTools : List (AgentTool σ Schema)
  /-- The tools that the runtime adds itself. -/
  runtimeTools : List (AgentTool σ Schema)
  capabilities : List (Capability (AgentTool σ Schema))
  activeMode : Option Mode
  defaultToolTimeout : Option Nat
  beforeToolExecutionHooks :
    List (BeforeToolExecutionEvent → σ → Except String (Option BeforeToolCallResult) × σ)
  afterToolExecutionHooks : List (AfterToolExecutionEvent → σ → σ)
  /-- `ajv.compile(parameters)`, where code can be generated at run time. -/
  ajv : Option (Schema → String → Except (List ValidationError) String)
  toLowerCase : String → String
  /-- `JSON.stringify(arguments, null, 2)`. -/
  stringify : String → String
  buildToolNotFoundError : String → List String → String
  /-- The listeners of the session's events. -/
  listeners : AgentEvent → σ → σ
  /-- The rest of the loop: the model, the suppliers, the limits. -/
  loop : LoopHost (Scene σ) (AgentTool σ Schema)

/-- What a tool returns that ran out of time. -/
def timeoutResult (toolName : String) (timeoutMs : Nat) : AgentToolResult :=
  ⟨[.text ("Tool '" ++ toolName ++ "' timed out after " ++ toString timeoutMs ++ "ms")],
    "\x7b\"error\":true,\"timeout\":true\x7d"⟩

/-- `wrapWithTimeout`: the timer and the tool race, and the tool goes on unheard. -/
def wrapWithTimeout (timeoutMs : Nat) (tool : AgentTool σ Schema) : AgentTool σ Schema :=
  { tool with
    execute := fun args ctx world =>
      let (outcome, after) := tool.execute args ctx world
      if tool.settledBefore timeoutMs args ctx world then (outcome, after)
      else (.ok (timeoutResult tool.name timeoutMs), after)
    settledBefore := fun limit args ctx world =>
      decide (timeoutMs < limit) || tool.settledBefore limit args ctx world }

def applyDefaultTimeout (tools : List (AgentTool σ Schema)) (timeoutMs : Nat) :
    List (AgentTool σ Schema) :=
  tools.map (wrapWithTimeout timeoutMs)

/-- `repairToolName`: a match in any case. -/
def repairToolName (toLowerCase : String → String) (name : String)
    (tools : List (AgentTool σ Schema)) : Option (AgentTool σ Schema) :=
  tools.find? fun t => toLowerCase t.name = toLowerCase name

namespace Session

/-- The tools the loop gets: those the mode leaves, with the default timeout. -/
def loopTools (S : Session σ Schema) : List (AgentTool σ Schema) :=
  let rawTools := collectAllTools AgentTool.name S.baseTools S.runtimeTools S.capabilities
  let allTools := (applyMode AgentTool.name [] S.capabilities rawTools S.activeMode).tools
  match S.defaultToolTimeout with
  | some timeoutMs => if timeoutMs = 0 then allTools else applyDefaultTimeout allTools timeoutMs
  | none => allTools

/-- The tools of `resolveToolsForSession`. -/
def resolveToolsForSession (S : Session σ Schema) : List (AgentTool σ Schema) :=
  S.baseTools ++ resolveTools AgentTool.name S.capabilities

def findTool (S : Session σ Schema) (name : String) : Option (AgentTool σ Schema) :=
  match S.loopTools.find? fun t => t.name = name with
  | some tool => some tool
  | none => repairToolName S.toLowerCase name S.loopTools

/-- A line of the message of `validateToolArguments`. -/
def formatError (e : ValidationError) : String :=
  let path :=
    if e.instancePath = "" then
      match e.missingProperty with
      | some property => if property = "" then "root" else property
      | none => "root"
    else String.ofList (e.instancePath.toList.drop 1)
  "  - " ++ path ++ ": " ++ e.message

/-- `validateToolArguments`: the arguments as the schema coerces them, or an error. -/
def validateToolArguments (S : Session σ Schema) (tool : AgentTool σ Schema) (call : ToolCall) :
    Except String String :=
  match S.ajv with
  | none => .ok call.arguments
  | some compile =>
    match compile tool.parameters call.arguments with
    | .ok args => .ok args
    | .error errors =>
      let lines := "\n".intercalate (errors.map formatError)
      .error ("Validation failed for tool \"" ++ call.name ++ "\":\n" ++
        (if lines = "" then "Unknown validation error" else lines) ++
        "\n\nReceived arguments:\n" ++ S.stringify call.arguments)

/-- `tool.execute`, with its mark. -/
def runTool (tool : AgentTool σ Schema) (args : String) (ctx : ToolExecuteContext)
    (s : Scene σ) : Except String AgentToolResult × Scene σ :=
  let (outcome, world) := tool.execute args ctx s.world
  (outcome, ⟨world, s.marks ++ [.ran tool.name args]⟩)

/-- The `beforeToolExecution` hooks in order, to the first that blocks. -/
def askHooks (event : BeforeToolExecutionEvent) :
    List (BeforeToolExecutionEvent → σ → Except String (Option BeforeToolCallResult) × σ) → Nat →
      Scene σ → Option BeforeToolCallResult × Scene σ
  | [], _, s => (none, s)
  | hook :: rest, position, s =>
    let (answer, world) := hook event s.world
    let s : Scene σ := ⟨world, s.marks ++ [.asked position]⟩
    match answer with
    | .ok (some result) =>
      if result.block then (some ⟨true, result.reason⟩, s) else askHooks event rest (position + 1) s
    | .ok none => askHooks event rest (position + 1) s
    | .error _ => askHooks event rest (position + 1) s

/-- The `afterToolExecution` hooks in order. -/
def tellHooks (event : AfterToolExecutionEvent) :
    List (AfterToolExecutionEvent → σ → σ) → Nat → Scene σ → Scene σ
  | [], _, s => s
  | hook :: rest, position, s =>
    tellHooks event rest (position + 1) ⟨hook event s.world, s.marks ++ [.told position]⟩

def preparedArgs (S : Session σ Schema) (call : ToolCall) : String :=
  match S.findTool call.name with
  | none => call.arguments
  | some tool =>
    match S.validateToolArguments tool call with
    | .ok args => args
    | .error _ => call.arguments

/-- The loop of a session, as `ensureAgent` sets its agent up. -/
def host (S : Session σ Schema) : LoopHost (Scene σ) (AgentTool σ Schema) :=
  { S.loop with
    emit := fun event s => { s with world := S.listeners event s.world }
    findTool := S.findTool
    toolNotFoundError := fun name => S.buildToolNotFoundError name (S.loopTools.map AgentTool.name)
    validateToolArguments := S.validateToolArguments
    beforeToolCall := fun _ call args s =>
      let (verdict, s) := askHooks ⟨call.name, args, call.id⟩ S.beforeToolExecutionHooks 0 s
      (.ok verdict, s)
    execute := fun tool args call s => runTool tool args ⟨call.id, true, true⟩ s
    afterToolCall := fun call _ isError s =>
      (none, tellHooks ⟨call.name, S.preparedArgs call, isError⟩ S.afterToolExecutionHooks 0 s) }

end Session

end CrabbyKit.Batch
