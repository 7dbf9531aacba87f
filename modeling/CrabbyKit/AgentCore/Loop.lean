import CrabbyKit.Session.Types
import Mathlib.Algebra.Group.Nat.Defs

/-!
# Messages, tool calls and events of the agent loop

The values that `agent-core` exchanges with the model stream, the tools and its
listeners.
-/

namespace CrabbyKit.AgentCore

structure ToolCall where
  id : String
  name : String
  arguments : String
  deriving DecidableEq, Repr

/-- A complete or partial reply of the model. -/
structure AssistantMessage where
  content : List ContentBlock
  stopReason : StopReason
  errorMessage : Option String := none
  timestamp : Instant
  cost : Option String := none
  deriving DecidableEq, Repr

def AssistantMessage.toAgentMessage (m : AssistantMessage) : AgentMessage :=
  { role := .assistant
    content := .blocks m.content
    timestamp := m.timestamp
    stopReason := some m.stopReason
    errorMessage := m.errorMessage
    cost := m.cost }

def blockToolCall : ContentBlock → Option ToolCall
  | .toolCall id name arguments => some ⟨id, name, arguments⟩
  | _ => none

/-- `message.content.filter((c) => c.type === "toolCall")`. -/
def AssistantMessage.toolCalls (m : AssistantMessage) : List ToolCall :=
  m.content.filterMap blockToolCall

structure AgentToolResult where
  content : List ContentBlock
  details : String
  deriving DecidableEq, Repr

/-- The overrides of an `afterToolCall` hook. -/
structure AfterToolCallResult where
  content : Option (List ContentBlock) := none
  details : Option String := none
  isError : Option Bool := none
  deriving DecidableEq, Repr

/-- The verdict of a `beforeToolCall` hook. -/
structure BeforeToolCallResult where
  block : Bool := false
  reason : Option String := none
  deriving DecidableEq, Repr

structure ToolResultMessage where
  toolCallId : String
  toolName : String
  content : List ContentBlock
  details : String
  isError : Bool
  timestamp : Instant
  deriving DecidableEq, Repr

def ToolResultMessage.toAgentMessage (m : ToolResultMessage) : AgentMessage :=
  { role := .toolResult
    content := .blocks m.content
    timestamp := m.timestamp
    toolCallId := some m.toolCallId
    toolName := some m.toolName
    isError := some m.isError
    details := some m.details }

/-- An event of the model stream; `finish` stands for `done` and `error`. -/
inductive StreamEvent
  | start (reply : AssistantMessage)
  | update (reply : AssistantMessage)
  | finish
  deriving DecidableEq, Repr

/-- A model stream: its events, whether iterating it throws after them, and the outcome
of `response.result()`. -/
structure Response where
  events : List StreamEvent
  interrupted : Option String := none
  result : Except String AssistantMessage

inductive AgentEvent
  | agentStart
  | turnStart
  | messageStart (message : AgentMessage)
  | messageUpdate (message : AgentMessage)
  | messageEnd (message : AgentMessage)
  | toolExecutionStart (call : ToolCall)
  | toolExecutionEnd (call : ToolCall) (result : AgentToolResult) (isError : Bool)
  | turnEnd (message : AgentMessage) (toolResults : List ToolResultMessage)
  | agentEnd (messages : List AgentMessage)
  deriving DecidableEq, Repr

/-- Whether tools of one reply run one after the other or together. -/
inductive ToolExecutionMode
  | sequential | parallel
  deriving DecidableEq, Repr

@[simp] theorem AssistantMessage.toAgentMessage_role (m : AssistantMessage) :
    m.toAgentMessage.role = .assistant := rfl

@[simp] theorem ToolResultMessage.toAgentMessage_role (m : ToolResultMessage) :
    m.toAgentMessage.role = .toolResult := rfl

end CrabbyKit.AgentCore

/-!
## The agent loop

`runAgentLoop` of `agent-core/src/agent-loop.ts` over an abstract host: every point
where the loop awaits something hands the host state to the host, which may change it
in any way.
-/

namespace CrabbyKit.AgentCore

/-- What the loop is given: the event sink, the model stream, the message suppliers, the
tools with their hooks, and the limits. `τ` is the type of tools. -/
structure LoopHost (σ τ : Type) where
  emit : AgentEvent → σ → σ
  transformContext : List AgentMessage → σ → List AgentMessage × σ
  convertToLlm : List AgentMessage → List AgentMessage
  /-- A model call: it rejects or answers with a stream. -/
  streamFn : List AgentMessage → σ → Except String Response × σ
  /-- `signal?.aborted`. -/
  aborted : σ → Bool
  /-- The pause before a retry. -/
  sleep : Nat → σ → σ
  getSteeringMessages : σ → List AgentMessage × σ
  getFollowUpMessages : σ → List AgentMessage × σ
  /-- The tool of that name, else the one `repairToolName` finds. -/
  findTool : String → Option τ
  /-- The text of `buildToolNotFoundError`. -/
  toolNotFoundError : String → String
  validateToolArguments : τ → ToolCall → Except String String
  beforeToolCall : AssistantMessage → ToolCall → String → σ →
    Except String (Option BeforeToolCallResult) × σ
  /-- `tool.execute` with the updates it sends while running. -/
  execute : τ → String → ToolCall → σ → Except String AgentToolResult × σ
  afterToolCall : ToolCall → AgentToolResult → Bool → σ → Option AfterToolCallResult × σ
  now : σ → Instant
  toolExecution : ToolExecutionMode
  maxIterations : Nat
  maxStreamRetries : Nat
  baseRetryDelayMs : Nat

/-- `currentContext.messages`, `newMessages` and the host. -/
structure LoopState (σ : Type) where
  messages : List AgentMessage
  newMessages : List AgentMessage
  host : σ

variable {σ τ : Type}

namespace LoopState

def emit (H : LoopHost σ τ) (e : AgentEvent) (s : LoopState σ) : LoopState σ :=
  { s with host := H.emit e s.host }

/-- `currentContext.messages.push(m)`. -/
def push (m : AgentMessage) (s : LoopState σ) : LoopState σ :=
  { s with messages := s.messages ++ [m] }

def replaceLast (m : AgentMessage) (s : LoopState σ) : LoopState σ :=
  { s with messages := s.messages.dropLast ++ [m] }

/-- `newMessages.push(m)`. -/
def record (m : AgentMessage) (s : LoopState σ) : LoopState σ :=
  { s with newMessages := s.newMessages ++ [m] }

end LoopState

/-- The end of a model stream: put the final message in place and announce it. -/
def finishStream (H : LoopHost σ τ) (result : Except String AssistantMessage) (addedPartial : Bool)
    (s : LoopState σ) : LoopState σ × Except String AssistantMessage :=
  match result with
  | .error e => (s, .error e)
  | .ok final =>
    let s :=
      if addedPartial then s.replaceLast final.toAgentMessage
      else (s.push final.toAgentMessage).emit H (.messageStart final.toAgentMessage)
    (s.emit H (.messageEnd final.toAgentMessage), .ok final)

def consumeStream (H : LoopHost σ τ) (response : Response) :
    List StreamEvent → Bool → LoopState σ → LoopState σ × Except String AssistantMessage
  | [], addedPartial, s =>
    match response.interrupted with
    | some e => (s, .error e)
    | none => finishStream H response.result addedPartial s
  | .start reply :: rest, _, s =>
    consumeStream H response rest true
      ((s.push reply.toAgentMessage).emit H (.messageStart reply.toAgentMessage))
  | .update reply :: rest, addedPartial, s =>
    let s :=
      if addedPartial then
        (s.replaceLast reply.toAgentMessage).emit H (.messageUpdate reply.toAgentMessage)
      else s
    consumeStream H response rest addedPartial s
  | .finish :: _, addedPartial, s => finishStream H response.result addedPartial s

def streamAssistantResponse (H : LoopHost σ τ) (s : LoopState σ) :
    LoopState σ × Except String AssistantMessage :=
  let (messages, host) := H.transformContext s.messages s.host
  let (answer, host) := H.streamFn (H.convertToLlm messages) host
  let s := { s with host := host }
  match answer with
  | .error e => (s, .error e)
  | .ok response => consumeStream H response response.events false s

/-- A character of `\w`. -/
def isWordChar (c : Char) : Bool := c.isAlphanum || c = '_'

/-- Whether a text contains a pattern at a place where `ok` accepts what stands before
and after it. -/
def containsAt (pattern : List Char) (ok : Option Char → List Char → Bool) :
    Option Char → List Char → Bool
  | before, text =>
    (pattern.isPrefixOf text && ok before (text.drop pattern.length)) ||
      match text with
      | [] => false
      | c :: rest => containsAt pattern ok (some c) rest

def containsStatus (code : String) (text : List Char) : Bool :=
  containsAt code.toList
    (fun before after => !before.any isWordChar && !after.head?.any isWordChar) none text

def containsText (pattern : String) (text : List Char) : Bool :=
  containsAt pattern.toList (fun _ _ => true) none (text.map Char.toLower)

/-- `/rate.?limit/i`. -/
def containsRateLimit (text : List Char) : Bool :=
  containsAt "rate".toList
    (fun _ after => "limit".toList.isPrefixOf after ||
      match after with
      | [] => false
      | c :: rest => c ≠ '\n' && c ≠ '\r' && c.toNat ≠ 8232 && c.toNat ≠ 8233 &&
        "limit".toList.isPrefixOf rest)
    none (text.map Char.toLower)

def isTransientError (errorMessage : Option String) : Bool :=
  match errorMessage with
  | none => false
  | some text =>
    ["429", "500", "502", "503", "529"].any (containsStatus · text.toList) ||
      ["timeout", "econnreset", "econnrefused", "network", "overloaded"].any
        (containsText · text.toList) ||
      containsRateLimit text.toList

/-- Whether a reply is a transient failure. -/
def AssistantMessage.transient (m : AssistantMessage) : Bool :=
  m.stopReason = .error && isTransientError m.errorMessage

/-- Take a failed reply off the context when it is the last message. -/
def popFailed (m : AssistantMessage) (s : LoopState σ) : LoopState σ :=
  if s.messages.getLast? = some m.toAgentMessage then { s with messages := s.messages.dropLast }
  else s

/-- The retry loop after a transient failure: attempts left, index of the next one. -/
def retryStream (H : LoopHost σ τ) : Nat → Nat → AssistantMessage → LoopState σ →
    LoopState σ × Except String AssistantMessage
  | 0, _, message, s => (s, .ok message)
  | left + 1, attempt, message, s =>
    if H.aborted s.host then (s, .ok message)
    else
      let s := { s with host := H.sleep (H.baseRetryDelayMs * 2 ^ attempt) s.host }
      if H.aborted s.host then (s, .ok message)
      else
        match streamAssistantResponse H (popFailed message s) with
        | (s, .error e) => (s, .error e)
        | (s, .ok next) =>
          if next.transient then retryStream H left (attempt + 1) next s else (s, .ok next)

/-- Stream a response, with retries for transient failures. -/
def streamWithRetry (H : LoopHost σ τ) (s : LoopState σ) :
    LoopState σ × Except String AssistantMessage :=
  match streamAssistantResponse H s with
  | (s, .error e) => (s, .error e)
  | (s, .ok message) =>
    if message.transient then retryStream H H.maxStreamRetries 0 message s else (s, .ok message)

def createErrorToolResult (message : String) : AgentToolResult := ⟨[.text message], "{}"⟩

/-- A call that is answered at once, or one that is ready to run. -/
inductive Preparation (τ : Type)
  | immediate (result : AgentToolResult) (isError : Bool)
  | prepared (tool : τ) (args : String)

/-- Look up the tool, validate the arguments, ask the hook. -/
def prepareToolCall (H : LoopHost σ τ) (assistantMessage : AssistantMessage) (call : ToolCall)
    (s : LoopState σ) : LoopState σ × Preparation τ :=
  match H.findTool call.name with
  | none => (s, .immediate (createErrorToolResult (H.toolNotFoundError call.name)) true)
  | some tool =>
    match H.validateToolArguments tool call with
    | .error e => (s, .immediate (createErrorToolResult e) true)
    | .ok args =>
      let (verdict, host) := H.beforeToolCall assistantMessage call args s.host
      let s := { s with host := host }
      match verdict with
      | .error e => (s, .immediate (createErrorToolResult e) true)
      | .ok none => (s, .prepared tool args)
      | .ok (some before) =>
        if before.block then
          let reason := match before.reason with
            | some text => if text = "" then "Tool execution was blocked" else text
            | none => "Tool execution was blocked"
          (s, .immediate (createErrorToolResult reason) true)
        else (s, .prepared tool args)

def emitToolCallOutcome (H : LoopHost σ τ) (call : ToolCall) (result : AgentToolResult)
    (isError : Bool) (s : LoopState σ) : LoopState σ × ToolResultMessage :=
  let s := s.emit H (.toolExecutionEnd call result isError)
  let message : ToolResultMessage :=
    ⟨call.id, call.name, result.content, result.details, isError, H.now s.host⟩
  let s := s.emit H (.messageStart message.toAgentMessage)
  (s.emit H (.messageEnd message.toAgentMessage), message)

def executePreparedToolCall (H : LoopHost σ τ) (call : ToolCall) (tool : τ) (args : String)
    (s : LoopState σ) : LoopState σ × AgentToolResult × Bool :=
  let (outcome, host) := H.execute tool args call s.host
  match outcome with
  | .ok result => ({ s with host := host }, result, false)
  | .error e => ({ s with host := host }, createErrorToolResult e, true)

/-- Let the hook override the outcome and announce it. -/
def finalizeExecutedToolCall (H : LoopHost σ τ) (call : ToolCall) (result : AgentToolResult)
    (isError : Bool) (s : LoopState σ) : LoopState σ × ToolResultMessage :=
  let (override, host) := H.afterToolCall call result isError s.host
  let s := { s with host := host }
  match override with
  | none => emitToolCallOutcome H call result isError s
  | some after =>
    emitToolCallOutcome H call
      ⟨after.content.getD result.content, after.details.getD result.details⟩
      (after.isError.getD isError) s

def runPrepared (H : LoopHost σ τ) (call : ToolCall) (tool : τ) (args : String)
    (s : LoopState σ) : LoopState σ × ToolResultMessage :=
  let (s, result, isError) := executePreparedToolCall H call tool args s
  finalizeExecutedToolCall H call result isError s

/-- One call after the other. -/
def executeToolCallsSequential (H : LoopHost σ τ) (assistantMessage : AssistantMessage) :
    List ToolCall → LoopState σ → LoopState σ × List ToolResultMessage
  | [], s => (s, [])
  | call :: rest, s =>
    let s := s.emit H (.toolExecutionStart call)
    let (s, preparation) := prepareToolCall H assistantMessage call s
    let (s, message) := match preparation with
      | .immediate result isError => emitToolCallOutcome H call result isError s
      | .prepared tool args => runPrepared H call tool args s
    let (s, later) := executeToolCallsSequential H assistantMessage rest s
    (s, message :: later)

/-- The first pass of the parallel mode: answer the immediate calls, collect the others. -/
def prepareToolCalls (H : LoopHost σ τ) (assistantMessage : AssistantMessage) :
    List ToolCall → LoopState σ →
      LoopState σ × List ToolResultMessage × List (ToolCall × τ × String)
  | [], s => (s, [], [])
  | call :: rest, s =>
    let s := s.emit H (.toolExecutionStart call)
    let (s, preparation) := prepareToolCall H assistantMessage call s
    match preparation with
    | .immediate result isError =>
      let (s, message) := emitToolCallOutcome H call result isError s
      let (s, messages, runnable) := prepareToolCalls H assistantMessage rest s
      (s, message :: messages, runnable)
    | .prepared tool args =>
      let (s, messages, runnable) := prepareToolCalls H assistantMessage rest s
      (s, messages, (call, tool, args) :: runnable)

/-- The second pass of the parallel mode: await and finalize the running calls in order. -/
def finishToolCalls (H : LoopHost σ τ) :
    List (ToolCall × τ × String) → LoopState σ → LoopState σ × List ToolResultMessage
  | [], s => (s, [])
  | (call, tool, args) :: rest, s =>
    let (s, message) := runPrepared H call tool args s
    let (s, later) := finishToolCalls H rest s
    (s, message :: later)

/-- Prepare all calls, then run the runnable ones together. -/
def executeToolCallsParallel (H : LoopHost σ τ) (assistantMessage : AssistantMessage)
    (calls : List ToolCall) (s : LoopState σ) : LoopState σ × List ToolResultMessage :=
  let (s, immediate, runnable) := prepareToolCalls H assistantMessage calls s
  let (s, executed) := finishToolCalls H runnable s
  (s, immediate ++ executed)

def executeToolCalls (H : LoopHost σ τ) (assistantMessage : AssistantMessage)
    (s : LoopState σ) : LoopState σ × List ToolResultMessage :=
  match H.toolExecution with
  | .sequential => executeToolCallsSequential H assistantMessage assistantMessage.toolCalls s
  | .parallel => executeToolCallsParallel H assistantMessage assistantMessage.toolCalls s

inductive LoopEnd
  | returned
  | threw (message : String)
  deriving DecidableEq, Repr

/-- Put a supplied message into the context. -/
def injectPending (H : LoopHost σ τ) (s : LoopState σ) (message : AgentMessage) : LoopState σ :=
  let s := (s.emit H (.messageStart message)).emit H (.messageEnd message)
  (s.push message).record message

/-- The end of a run past the iteration limit. -/
def exceedIterations (H : LoopHost σ τ) (s : LoopState σ) : LoopState σ :=
  let message : AssistantMessage :=
    { content := [.text s!"Agent loop terminated: exceeded maximum iterations ({H.maxIterations})."]
      stopReason := .error
      errorMessage := some s!"Maximum loop iterations ({H.maxIterations}) exceeded"
      timestamp := H.now s.host }
  let s := (s.push message.toAgentMessage).record message.toAgentMessage
  let s := s.emit H (.messageStart message.toAgentMessage)
  let s := s.emit H (.messageEnd message.toAgentMessage)
  let s := s.emit H (.turnEnd message.toAgentMessage [])
  s.emit H (.agentEnd s.newMessages)

def pushResult (s : LoopState σ) (result : ToolResultMessage) : LoopState σ :=
  (s.push result.toAgentMessage).record result.toAgentMessage

/-- What comes after a turn: an end, or another turn with pending messages. -/
inductive TurnEnd
  | done (ended : LoopEnd)
  | again (pending : List AgentMessage)
  deriving DecidableEq, Repr

/-- What follows a reply that is neither an error nor aborted: its tool calls, the end of
the turn, and the suppliers. -/
def afterReply (H : LoopHost σ τ) (message : AssistantMessage) (s : LoopState σ) :
    LoopState σ × TurnEnd :=
  let (s, toolResults) :=
    if message.toolCalls = [] then (s, []) else executeToolCalls H message s
  let s := toolResults.foldl pushResult s
  let s := s.emit H (.turnEnd message.toAgentMessage toolResults)
  let (steering, host) := H.getSteeringMessages s.host
  let s := { s with host := host }
  if message.toolCalls ≠ [] ∨ steering ≠ [] then (s, .again steering)
  else
    let (followUps, host) := H.getFollowUpMessages s.host
    let s := { s with host := host }
    if followUps ≠ [] then (s, .again followUps)
    else (s.emit H (.agentEnd s.newMessages), .done .returned)

def runTurn (H : LoopHost σ τ) (firstTurn : Bool) (pending : List AgentMessage)
    (s : LoopState σ) : LoopState σ × TurnEnd :=
  let s := if firstTurn then s else s.emit H .turnStart
  let s := pending.foldl (injectPending H) s
  match streamWithRetry H s with
  | (s, .error e) => (s, .done (.threw e))
  | (s, .ok message) =>
    let s := s.record message.toAgentMessage
    if message.stopReason = .error ∨ message.stopReason = .aborted then
      let s := s.emit H (.turnEnd message.toAgentMessage [])
      (s.emit H (.agentEnd s.newMessages), .done .returned)
    else afterReply H message s

/-- The iterations of the loop, with those left before the limit. -/
def runTurns (H : LoopHost σ τ) : Nat → Bool → List AgentMessage → LoopState σ →
    LoopState σ × LoopEnd
  | 0, _, _, s => (exceedIterations H s, .returned)
  | left + 1, firstTurn, pending, s =>
    match runTurn H firstTurn pending s with
    | (s, .done ended) => (s, ended)
    | (s, .again pending) => runTurns H left false pending s

/-- The loop: steering messages that wait already, then the iterations. -/
def runLoop (H : LoopHost σ τ) (s : LoopState σ) : LoopState σ × LoopEnd :=
  let (pending, host) := H.getSteeringMessages s.host
  runTurns H H.maxIterations true pending { s with host := host }

def announcePrompt (H : LoopHost σ τ) (s : LoopState σ) (prompt : AgentMessage) : LoopState σ :=
  (s.emit H (.messageStart prompt)).emit H (.messageEnd prompt)

def runAgentLoop (H : LoopHost σ τ) (prompts messages : List AgentMessage) (host : σ) :
    LoopState σ × LoopEnd :=
  let s : LoopState σ := ⟨messages ++ prompts, prompts, host⟩
  let s := (s.emit H .agentStart).emit H .turnStart
  runLoop H (prompts.foldl (announcePrompt H) s)

/-- Start the loop again on the context as it is; it throws when there is nothing to
answer. -/
def runAgentLoopContinue (H : LoopHost σ τ) (messages : List AgentMessage) (host : σ) :
    Except String (LoopState σ × LoopEnd) :=
  match messages.getLast? with
  | none => .error "Cannot continue: no messages in context"
  | some last =>
    if last.role = .assistant then .error "Cannot continue from message role: assistant"
    else
      let s : LoopState σ := ⟨messages, [], host⟩
      .ok (runLoop H ((s.emit H .agentStart).emit H .turnStart))

end CrabbyKit.AgentCore
