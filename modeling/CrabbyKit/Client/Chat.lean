import CrabbyKit.Session.Types

/-!
# The chat of a client

`chatReducer` of `client/chat-reducer.ts` and the branches of `createMessageHandler` in
`client/message-handler.ts` for the events of a run, tool events, costs, command results and
injected messages. The handler dispatches actions; the reducer works them off when the client
renders, and an updater then reads the stream reference as it is at that time.
-/

namespace CrabbyKit.Client

structure CommandResultTag where
  commandName : String
  isError : Bool
  deriving DecidableEq, Repr

/-- An element of the message list, with the transient tags `_streaming`, `_thinking` and
`_commandResult`. -/
structure StreamableMessage where
  message : AgentMessage
  streaming : Bool := false
  thinking : Option String := none
  commandResult : Option CommandResultTag := none
  deriving DecidableEq, Repr

inductive ToolState
  | executing (toolName : String)
  | streaming (toolName partialResult : String)
  | complete (toolName result : String) (isError : Bool)
  deriving DecidableEq, Repr

inductive AgentStatus
  | idle | streaming | executingTools
  deriving DecidableEq, Repr

/-- The part of `ChatState` that a run writes. -/
structure ChatState where
  messages : List StreamableMessage
  agentStatus : AgentStatus
  thinking : Option String
  completedThinking : Option String
  toolStates : String → Option ToolState
  costs : List String

inductive ThinkingUpdate
  | start
  | delta (delta : String)
  | finish
  deriving DecidableEq, Repr

/-- The two updaters of the handler: take over the stream reference, or finalize. -/
inductive Updater
  | takeStream
  | finalize (finalMessage : AgentMessage)
  deriving DecidableEq, Repr

inductive ChatAction
  | setAgentStatus (agentStatus : AgentStatus)
  | addMessage (message : StreamableMessage)
  | addCost (cost : String)
  | agentEnd
  | updateStreamingMessage (updater : Updater) (thinking : Option ThinkingUpdate)
  | toolExecutionStart (toolCallId toolName : String)
  | toolExecutionUpdate (toolCallId toolName partialResult : String)
  | toolExecutionEnd (toolCallId toolName result : String) (isError : Bool)
      (toolResultMessage : StreamableMessage)
  deriving DecidableEq, Repr

def modifyLast (f : StreamableMessage → StreamableMessage) (messages : List StreamableMessage) :
    List StreamableMessage :=
  match messages.getLast? with
  | none => messages
  | some last => messages.dropLast ++ [f last]

def Updater.apply (streamMessage : Option AgentMessage) :
    Updater → List StreamableMessage → List StreamableMessage
  | .takeStream => modifyLast fun last =>
    match streamMessage with
    | none => last
    | some current =>
      if last.message.role = .assistant ∧ last.streaming then
        { message := current, streaming := true }
      else last
  | .finalize finalMessage => modifyLast fun last =>
    if last.streaming then { message := finalMessage } else last

def attachThinking (thinkingToAttach : Option String) (messages : List StreamableMessage) :
    List StreamableMessage :=
  match thinkingToAttach with
  | none => messages
  | some text => modifyLast (fun last =>
      if text ≠ "" ∧ last.message.role = .assistant then { last with thinking := some text }
      else last) messages

def chatReducer (streamMessage : Option AgentMessage) (state : ChatState) : ChatAction → ChatState
  | .setAgentStatus agentStatus => { state with agentStatus := agentStatus }
  | .addMessage message => { state with messages := state.messages ++ [message] }
  | .addCost cost => { state with costs := state.costs ++ [cost] }
  | .agentEnd => { state with agentStatus := .idle, thinking := none, toolStates := fun _ => none }
  | .updateStreamingMessage updater thinking =>
    let messages := updater.apply streamMessage state.messages
    match thinking with
    | none => { state with messages := messages }
    | some .start =>
      { state with messages := messages, thinking := some "", completedThinking := none }
    | some (.delta delta) =>
      { state with messages := messages, thinking := some (state.thinking.getD "" ++ delta) }
    | some .finish =>
      { state with messages := attachThinking state.thinking messages
                   thinking := none
                   completedThinking := state.thinking }
  | .toolExecutionStart toolCallId toolName =>
    { state with agentStatus := .executingTools
                 toolStates :=
                   Function.update state.toolStates toolCallId (some (.executing toolName)) }
  | .toolExecutionUpdate toolCallId toolName partialResult =>
    { state with toolStates := Function.update state.toolStates toolCallId
                   (some (.streaming toolName partialResult)) }
  | .toolExecutionEnd toolCallId toolName result isError toolResultMessage =>
    { state with toolStates := Function.update state.toolStates toolCallId
                   (some (.complete toolName result isError))
                 messages := state.messages ++ [toolResultMessage] }

inductive AssistantMessageEvent
  | thinkingStart
  | thinkingDelta (delta : String)
  | thinkingEnd
  | other
  deriving DecidableEq, Repr

/-- An `agent_event`; `other` stands for turn events and those of tools, which it ignores. -/
inductive AgentEvent
  | agentStart
  | messageStart (message : AgentMessage)
  | messageUpdate (message : AgentMessage) (assistantMessageEvent : AssistantMessageEvent)
  | messageEnd (message : AgentMessage)
  | agentEnd
  | other
  deriving DecidableEq, Repr

structure ToolResult where
  text : String
  content : Option Content
  details : Option String
  deriving DecidableEq, Repr

inductive ToolEvent
  | start
  | update (partialResult : String)
  | finish (result : ToolResult) (isError : Option Bool)
  deriving DecidableEq, Repr

/-- What a message of the server brings for its session. -/
inductive Payload
  | agentEvent (event : AgentEvent)
  | toolEvent (toolCallId toolName : String) (event : ToolEvent)
  | costEvent (cost : String)
  | commandResult (name : String) (text data : Option String) (isError : Bool)
  | injectMessage (message : AgentMessage)
  deriving DecidableEq, Repr

structure ServerMessage where
  sessionId : String
  payload : Payload
  deriving DecidableEq, Repr

/-- `currentSessionIdRef` and `streamMessageRef`. -/
structure Refs where
  currentSessionId : Option String
  streamMessage : Option AgentMessage
  deriving DecidableEq, Repr

def thinkingOf : AssistantMessageEvent → Option ThinkingUpdate
  | .thinkingStart => some .start
  | .thinkingDelta delta => some (.delta delta)
  | .thinkingEnd => some .finish
  | .other => none

def toolResultMessage (now : Instant) (toolCallId toolName : String) (result : ToolResult)
    (isError : Option Bool) : StreamableMessage where
  message :=
    { role := .toolResult
      content := result.content.getD (.plain result.text)
      timestamp := now
      toolCallId := some toolCallId
      toolName := some toolName
      isError := some (isError.getD false)
      details := result.details }

def commandResultMessage (now : Instant) (name : String) (text data : Option String)
    (isError : Bool) : StreamableMessage where
  message :=
    { role := .assistant
      content := .plain (text.getD (data.getD ""))
      timestamp := now }
  commandResult := some ⟨name, isError⟩

def dispatched (now : Instant) : Payload → List ChatAction
  | .agentEvent .agentStart => [.setAgentStatus .streaming]
  | .agentEvent (.messageStart message) =>
    if message.role = .assistant then
      [.setAgentStatus .streaming, .addMessage { message := message, streaming := true }]
    else []
  | .agentEvent (.messageUpdate _ event) =>
    [.updateStreamingMessage .takeStream (thinkingOf event)]
  | .agentEvent (.messageEnd message) =>
    if message.role = .assistant then [.updateStreamingMessage (.finalize message) none] else []
  | .agentEvent .agentEnd => [.agentEnd]
  | .agentEvent .other => []
  | .toolEvent toolCallId toolName .start => [.toolExecutionStart toolCallId toolName]
  | .toolEvent toolCallId toolName (.update partialResult) =>
    [.toolExecutionUpdate toolCallId toolName partialResult]
  | .toolEvent toolCallId toolName (.finish result isError) =>
    [.toolExecutionEnd toolCallId toolName result.text (isError.getD false)
      (toolResultMessage now toolCallId toolName result isError)]
  | .costEvent cost => [.addCost cost]
  | .commandResult name text data isError =>
    [.addMessage (commandResultMessage now name text data isError)]
  | .injectMessage message => [.addMessage { message := message }]

/-- `streamMessageRef.current` after a message. -/
def streamMessageAfter (streamMessage : Option AgentMessage) : Payload → Option AgentMessage
  | .agentEvent (.messageStart message) =>
    if message.role = .assistant then some message else streamMessage
  | .agentEvent (.messageUpdate message _) => some message
  | .agentEvent (.messageEnd message) =>
    if message.role = .assistant then none else streamMessage
  | _ => streamMessage

/-- A client: what it shows, its references, and the actions that it has not worked off yet. -/
structure ChatClient where
  chat : ChatState
  refs : Refs
  pending : List ChatAction

/-- What happens at a client. -/
inductive Event
  | receive (now : Instant) (msg : ServerMessage)
  | render
  deriving DecidableEq, Repr

namespace ChatClient

def handle (client : ChatClient) (now : Instant) (msg : ServerMessage) : ChatClient :=
  if some msg.sessionId ≠ client.refs.currentSessionId then client
  else
    { client with
      refs := { client.refs with
        streamMessage := streamMessageAfter client.refs.streamMessage msg.payload }
      pending := client.pending ++ dispatched now msg.payload }

/-- A render works the dispatched actions off. -/
def render (client : ChatClient) : ChatClient :=
  { client with
    chat := client.pending.foldl (chatReducer client.refs.streamMessage) client.chat
    pending := [] }

def step (client : ChatClient) : Event → ChatClient
  | .receive now msg => client.handle now msg
  | .render => client.render

end ChatClient

end CrabbyKit.Client
