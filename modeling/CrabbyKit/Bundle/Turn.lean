import CrabbyKit.Bundle.ProviderStream

/-!
# A turn of a bundle

`runBundleTurn` of `bundle-sdk/src/runtime.ts`: the messages of the first request are assembled from
the system prompt, the history and the prompt, then requests and tool executions alternate. What
spine, model, tools and hook bridge answer is given for every iteration.
-/

namespace CrabbyKit.Bundle

inductive MessageRole
  | system | user | assistant | tool
  deriving DecidableEq, Repr

/-- An element of `tool_calls`. -/
structure WireToolCall where
  id : String
  name : String
  arguments : String
  deriving DecidableEq, Repr

/-- `MinimalMessage`; without tool calls the member `tool_calls` is absent. -/
structure MinimalMessage where
  role : MessageRole
  content : String
  toolCalls : List WireToolCall := []
  toolCallId : Option String := none
  deriving DecidableEq, Repr

def blockText : ContentBlock → Option String
  | .text text => some text
  | _ => none

def flattenContent : Content → String
  | .plain text => text
  | .blocks blocks => String.join (blocks.filterMap blockText)

def replayedRole : Role → Option MessageRole
  | .user => some .user
  | .assistant => some .assistant
  | .toolResult => none

def historyToMessages (history : List AgentMessage) : List MinimalMessage :=
  history.filterMap fun entry => (replayedRole entry.role).bind fun role =>
    if flattenContent entry.content = "" then none
    else some { role := role, content := flattenContent entry.content }

def resultText : Json → Option String
  | .str text => some text
  | block =>
    if hasText (block.field "type") "text" then (block.field "text").bind Json.asString else none

/-- `stringifyToolResult`; a tool may return nothing. -/
def stringifyToolResult (jsonStringify : Json → String) : Option Json → String
  | none => "undefined"
  | some .null => "null"
  | some (.bool value) => if value then "true" else "false"
  | some (.num value) => toString value
  | some (.str text) => text
  | some result =>
    let parts := (((result.field "content").bind Json.asArray).getD []).filterMap resultText
    if parts ≠ [] then String.join parts else jsonStringify result

/-- What a turn is given: its system prompt and tools, and the answers that it gets. An error is
the message of what is thrown. -/
structure TurnEnv where
  systemPrompt : String
  jsonParse : String → Option Json
  jsonStringify : Json → String
  /-- `sessionStore.buildContext()`. -/
  buildContext : Except String (List AgentMessage)
  bundleToken : Bool
  llm : Bool
  /-- The `beforeInference` hooks; one that returns no array leaves the messages. -/
  beforeInferenceHooks : List (Nat → List MinimalMessage → Except String
    (Option (List MinimalMessage)))
  processBeforeInference : Nat → List MinimalMessage → Except String (List MinimalMessage)
  /-- The data payloads of the stream, and the error in which reading it ends, if any. -/
  inferStream : Nat → Except String (List String × Option String)
  /-- The keys of `toolByName`. -/
  toolNames : List String
  /-- The verdict on the `k`-th call of an iteration: whether it is blocked, and the reason. -/
  processBeforeToolExecution : Nat → Nat → Except String (Bool × Option String)
  execute : Nat → Nat → Except String (Option Json)
  now : Nat → Nat → Instant

inductive TurnEvent
  | messageStart (message : AgentMessage)
  | messageUpdate (message : AgentMessage) (delta : String)
  | messageEnd (message : AgentMessage)
  | toolExecutionStart (toolCallId toolName : String) (args : Json)
  | toolExecutionEnd (toolCallId toolName result : String) (isError : Bool)
  | agentEnd (messages : List AgentMessage)

/-- What a turn has done: the conversation, the messages of each request, the entries that it
appended to the session and the events that it broadcast. -/
structure TurnState where
  conversation : List MinimalMessage
  requests : List (List MinimalMessage) := []
  entries : List EntryData := []
  events : List TurnEvent := []
  finalAssistantMessages : List AgentMessage := []

namespace TurnState

def safeBroadcast (state : TurnState) (events : List TurnEvent) : TurnState :=
  { state with events := state.events ++ events }

def appendEntry (state : TurnState) (data : EntryData) : TurnState :=
  { state with entries := state.entries ++ [data] }

def push (state : TurnState) (message : MinimalMessage) : TurnState :=
  { state with conversation := state.conversation ++ [message] }

end TurnState

def maxInferenceIterationsPerTurn : Nat := 25

namespace TurnEnv

variable (env : TurnEnv)

/-- The conversation before the first request. -/
def conversation (prompt : String) : List MinimalMessage :=
  (if env.systemPrompt ≠ "" then [{ role := .system, content := env.systemPrompt }] else []) ++
    (match env.buildContext with
      | .ok raw => historyToMessages raw
      | .error _ => []) ++ [{ role := .user, content := prompt }]

def bridgedMessages (iter : Nat) (messages : List MinimalMessage) :
    Except String (List MinimalMessage) := do
  let preMessages ← env.beforeInferenceHooks.foldlM
    (fun preMessages hook => (hook iter preMessages).map fun next => next.getD preMessages) messages
  env.processBeforeInference iter preMessages

def assistantMessage (iter : Nat) (content : List ContentBlock) (stopReason : StopReason) :
    AgentMessage where
  role := .assistant
  content := .blocks content
  timestamp := env.now iter 0
  stopReason := some stopReason

def textBlocks (text : String) : List ContentBlock := if text ≠ "" then [.text text] else []

def readText (iter : Nat) : List StreamChunk → String → String × List TurnEvent
  | [], textBuffer => (textBuffer, [])
  | .text delta :: rest, textBuffer =>
    let (final, updates) := readText iter rest (textBuffer ++ delta)
    let message := env.assistantMessage iter [.text (textBuffer ++ delta)] .stop
    (final, .messageUpdate message delta :: updates)
  | .completed _ _ :: rest, textBuffer => readText iter rest textBuffer

def completedOf : List StreamChunk → Option (List ParsedToolCall × StopReason)
  | [] => none
  | .text _ :: rest => completedOf rest
  | .completed toolCalls stopReason :: rest =>
    (completedOf rest).or (some (toolCalls, stopReason))

/-- How reading a stream ends: a stream without a completed chunk has thrown. -/
def completion (payloads : List String) (broken : Option String) :
    Except String (List ParsedToolCall × StopReason) :=
  match completedOf (iterateProviderStream env.jsonParse payloads), broken with
  | none, _ => .error "Cannot read properties of null (reading 'index')"
  | some _, some message => .error message
  | some completed, none => .ok completed

/-- The final message of a reply is broadcast, persisted and added to the conversation. -/
def finishReply (iter : Nat) (textBuffer : String) (toolCalls : List ParsedToolCall)
    (stopReason : StopReason) (state : TurnState) : TurnState :=
  let finalContent := textBlocks textBuffer ++ toolCalls.map fun tc =>
    ContentBlock.toolCall tc.id tc.name (env.jsonStringify tc.args)
  let finalMessage := env.assistantMessage iter finalContent stopReason
  let state := { state with
    finalAssistantMessages := state.finalAssistantMessages ++ [finalMessage] }
  ((state.safeBroadcast [.messageEnd finalMessage]).appendEntry (.message {
    role := .assistant, content := .blocks finalContent, timestamp := some (env.now iter 0) })).push
    { role := .assistant, content := textBuffer
      toolCalls := toolCalls.map fun tc =>
        ⟨tc.id, tc.name, if tc.rawArgs ≠ "" then tc.rawArgs else "\x7b\x7d"⟩ }

/-- `toolCallId`: a call without an id gets a synthetic one. -/
def toolCallId (iter : Nat) (tc : ParsedToolCall) : String :=
  if tc.id ≠ "" then tc.id else "call_" ++ toString iter ++ "_" ++ tc.name

/-- The result of a call is broadcast, persisted and added to the conversation. -/
def finishToolCall (iter k : Nat) (tc : ParsedToolCall) (text : String) (isError : Bool)
    (state : TurnState) : TurnState :=
  let id := toolCallId iter tc
  ((state.safeBroadcast [.toolExecutionEnd id tc.name text isError]).appendEntry (.message {
    role := .toolResult, content := .blocks [.text text], toolCallId := some id
    toolName := some tc.name, isError := some isError
    timestamp := some (env.now iter (k + 1)) })).push
    { role := .tool, content := text, toolCallId := some id }

def toolResult (iter k : Nat) (tc : ParsedToolCall) : String × Bool :=
  match env.processBeforeToolExecution iter k with
  | .ok (true, reason) => (reason.getD "blocked by host hook", true)
  -- A bridge that fails lets the call through.
  | _ =>
    if tc.name ∈ env.toolNames then
      match env.execute iter k with
      | .ok raw => (stringifyToolResult env.jsonStringify raw, false)
      | .error message => (message, true)
    else ("Unknown tool: " ++ tc.name, true)

/-- The `k`-th call of an iteration. -/
def runToolCall (iter k : Nat) (tc : ParsedToolCall) (state : TurnState) : TurnState :=
  let (text, isError) := env.toolResult iter k tc
  env.finishToolCall iter k tc text isError
    (state.safeBroadcast [.toolExecutionStart (toolCallId iter tc) tc.name tc.args])

/-- The calls of an iteration, one after the other. -/
def runToolCalls (iter : Nat) : Nat → List ParsedToolCall → TurnState → TurnState
  | _, [], state => state
  | k, tc :: rest, state => runToolCalls iter (k + 1) rest (env.runToolCall iter k tc state)

/-- One request: the calls and the stop reason of its reply. -/
def infer (iter : Nat) (state : TurnState) :
    TurnState × Except String (List ParsedToolCall × StopReason) :=
  match env.bridgedMessages iter state.conversation with
  | .error message => (state, .error message)
  | .ok messages =>
    let state := { state.safeBroadcast [.messageStart (env.assistantMessage iter [] .stop)] with
      requests := state.requests ++ [messages] }
    match env.inferStream iter with
    | .error message => (state, .error message)
    | .ok (payloads, broken) =>
      let (textBuffer, updates) :=
        env.readText iter (iterateProviderStream env.jsonParse payloads) ""
      let state := state.safeBroadcast updates
      match env.completion payloads broken with
      | .error message => (state, .error message)
      | .ok (toolCalls, stopReason) =>
        (env.finishReply iter textBuffer toolCalls stopReason state, .ok (toolCalls, stopReason))

def iterations : Nat → Nat → TurnState → TurnState × Except String Unit
  | 0, _, state => (state, .error ("Bundle turn exceeded max inference iterations (" ++
      toString maxInferenceIterationsPerTurn ++ ")"))
  | left + 1, iter, state =>
    match env.infer iter state with
    | (state, .error message) => (state, .error message)
    | (state, .ok (toolCalls, stopReason)) =>
      if stopReason ≠ .toolUse ∨ toolCalls = [] then
        (state.safeBroadcast [.agentEnd state.finalAssistantMessages], .ok ())
      else iterations left (iter + 1) (env.runToolCalls iter 0 toolCalls state)

def work (prompt : String) : TurnState × Except String Unit :=
  let state : TurnState := { conversation := env.conversation prompt }
  if !env.bundleToken then (state, .error "Missing __BUNDLE_TOKEN in bundle env")
  else if !env.llm then
    (state, .error "Missing env.LLM service binding with inferStream method")
  else env.iterations maxInferenceIterationsPerTurn 0 state

def errorMessage (message : String) : AgentMessage where
  role := .assistant
  content := .blocks [ContentBlock.text ("[Bundle error] " ++ message)]
  timestamp := env.now 0 0
  stopReason := some .error
  errorMessage := some message

/-- `runBundleTurn`: an error is shown to the client. -/
def runBundleTurn (prompt : String) : TurnState :=
  match env.work prompt with
  | (state, .ok _) => state
  | (state, .error message) =>
    state.safeBroadcast [.messageEnd (env.errorMessage message), .agentEnd []]

variable {env}

theorem infer_requests (iter : Nat) (state : TurnState) :
    (env.infer iter state).1.requests =
      state.requests ++ (env.bridgedMessages iter state.conversation).toOption.toList := by
  unfold infer
  cases env.bridgedMessages iter state.conversation with
  | error message => exact (List.append_nil _).symm
  | ok messages =>
    cases env.inferStream iter with
    | error message => rfl
    | ok stream =>
      dsimp only
      split
      next => rfl
      next => rfl

theorem runToolCalls_requests (iter k : Nat) (toolCalls : List ParsedToolCall)
    (state : TurnState) : (env.runToolCalls iter k toolCalls state).requests = state.requests := by
  induction toolCalls generalizing k state with
  | nil => rfl
  | cons tc rest ih => exact ih (k + 1) (env.runToolCall iter k tc state)

theorem iterations_requests_append (left iter : Nat) (state : TurnState) :
    ∃ more, (env.iterations left iter state).1.requests = state.requests ++ more ∧
      more.length ≤ left := by
  induction left generalizing iter state with
  | zero => exact ⟨[], (List.append_nil _).symm, Nat.le_refl _⟩
  | succ left ih =>
    have hone : (env.infer iter state).1.requests = _ := infer_requests iter state
    have hlength : (env.bridgedMessages iter state.conversation).toOption.toList.length ≤ 1 :=
      Option.length_toList_le
    rw [iterations]
    split
    next hpair =>
      rw [hpair] at hone
      exact ⟨_, hone, by omega⟩
    next replied toolCalls stopReason hpair =>
      rw [hpair] at hone
      split
      next => exact ⟨_, hone, by omega⟩
      next =>
        obtain ⟨more, hrest, hmore⟩ := ih (iter + 1) (env.runToolCalls iter 0 toolCalls replied)
        rw [runToolCalls_requests, hone, List.append_assoc] at hrest
        refine ⟨_, hrest, ?_⟩
        rw [List.length_append]
        omega

theorem iterations_head? (left iter : Nat) {state : TurnState} (hnone : state.requests = []) :
    (env.iterations (left + 1) iter state).1.requests.head? =
      (env.bridgedMessages iter state.conversation).toOption := by
  cases hbridged : env.bridgedMessages iter state.conversation with
  | error message =>
    have hfailed : env.infer iter state = (state, .error message) := by
      unfold infer
      rw [hbridged]
    rw [iterations, hfailed]
    dsimp only
    rw [hnone]
    rfl
  | ok messages =>
    have hone : (env.infer iter state).1.requests = [messages] := by
      rw [infer_requests, hbridged, hnone]
      rfl
    rw [iterations]
    split
    next hpair =>
      rw [hpair] at hone
      dsimp only at hone ⊢
      rw [hone]
      rfl
    next replied toolCalls stopReason hpair =>
      rw [hpair] at hone
      split
      next =>
        dsimp only [TurnState.safeBroadcast] at hone ⊢
        rw [hone]
        rfl
      next =>
        obtain ⟨more, hrest, _⟩ := iterations_requests_append left (iter + 1)
          (env.runToolCalls iter 0 toolCalls replied)
        rw [hrest, runToolCalls_requests, hone]
        rfl

theorem requests_head? (prompt : String) (first : List MinimalMessage) :
    (env.runBundleTurn prompt).requests.head? = some first ↔
      (env.bundleToken && env.llm) = true ∧
        env.bridgedMessages 0 (env.conversation prompt) = .ok first := by
  have hfinal : (env.runBundleTurn prompt).requests = (env.work prompt).1.requests := by
    unfold runBundleTurn
    split
    next hwork => rw [hwork]
    next hwork => rw [hwork]; rfl
  rw [hfinal, work]
  cases env.bundleToken with
  | false => simp
  | true =>
    cases env.llm with
    | false => simp
    | true =>
      have hhead : (env.iterations maxInferenceIterationsPerTurn 0
          { conversation := env.conversation prompt }).1.requests.head? =
            (env.bridgedMessages 0 (env.conversation prompt)).toOption := iterations_head? 24 0 rfl
      simp only [Bool.not_true, Bool.false_eq_true, if_false, Bool.and_self, true_and, hhead]
      cases env.bridgedMessages 0 (env.conversation prompt) with
      | error message => simp [Except.toOption]
      | ok messages => simp [Except.toOption]

end TurnEnv

end CrabbyKit.Bundle
