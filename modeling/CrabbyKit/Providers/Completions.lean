import CrabbyKit.Core.Json
import CrabbyKit.Providers.TransformMessages

/-!
# The chat-completion stream of the native provider

The chunk loop of `streamOpenAICompletions` in `ai/src/providers/openai-completions.ts`. It builds
the content of the message block by block and keeps only the last block open. A member of a delta
that is absent reads as empty, as the loop tests whether it is true; usage is left out.
-/

namespace CrabbyKit.Completions

open Providers

/-- A block of the message; a tool call has `partialArgs` while it is open. -/
inductive Block
  | text (text : String)
  | thinking (thinking thinkingSignature : String)
  | toolCall (id name : String) (arguments : Json) (partialArgs : Option String)
      (thoughtSignature : Option Json)

inductive BlockKind
  | text | thinking | toolCall
  deriving DecidableEq, Repr

/-- `block.type`. -/
def Block.kind : Block → BlockKind
  | .text _ => .text
  | .thinking _ _ => .thinking
  | .toolCall .. => .toolCall

inductive StreamEvent
  | start
  | blockStart (kind : BlockKind) (contentIndex : Nat)
  | blockDelta (kind : BlockKind) (contentIndex : Nat) (delta : String)
  | blockEnd (contentIndex : Nat) (block : Block)
  | done (reason : StopReason)
  | error (reason : StopReason)

/-- An element of `tool_calls`. -/
structure ToolCallDelta where
  index : Int
  id : String
  name : String
  arguments : String
  deriving DecidableEq, Repr

/-- An element of `reasoning_details`; `detail` is the whole of it. -/
structure ReasoningDetail where
  type : String
  id : String
  data : String
  detail : Json

structure Delta where
  content : String := ""
  reasoningContent : String := ""
  reasoning : String := ""
  reasoningText : String := ""
  toolCalls : List ToolCallDelta := []
  reasoningDetails : List ReasoningDetail := []

structure Choice where
  delta : Option Delta := none
  finishReason : String := ""

/-- A chunk with its first choice. -/
structure Chunk where
  id : String := ""
  choice : Option Choice := none

/-- The message so far: the blocks that are closed and `currentBlock`, behind them. -/
structure Output where
  blocks : List Block := []
  currentBlock : Option Block := none
  responseId : String := ""
  stopReason : StopReason := .stop
  errorMessage : Option String := none
  events : List StreamEvent := []

def Output.content (output : Output) : List Block := output.blocks ++ output.currentBlock.toList

/-- `parseStreamingJson`, with `JSON.parse` and the parser of incomplete texts. -/
def parseStreamingJson (jsonParse partialParse : String → Option Json) (partialJson : String) :
    Json :=
  if isBlank (js partialJson) then .obj []
  else match jsonParse partialJson with
    | some value => value
    | none => match partialParse partialJson with
      | none => .obj []
      | some .null => .obj []
      | some value => value

def mapStopReason (reason : String) : StopReason × Option String :=
  if reason ∈ ["stop", "end"] then (.stop, none)
  else if reason = "length" then (.length, none)
  else if reason ∈ ["function_call", "tool_calls"] then (.toolUse, none)
  else (.error, some ("Provider finish_reason: " ++ reason))

section Loop

variable (parse : String → Json)

/-- What `finishCurrentBlock` makes of a block. -/
def Block.finish : Block → Block
  | .toolCall id name _ partialArgs signature =>
    .toolCall id name (parse (partialArgs.getD "")) none signature
  | block => block

def finishCurrentBlock (output : Output) : Output :=
  match output.currentBlock with
  | none => output
  | some block => { output with
      blocks := output.blocks ++ [block.finish parse]
      currentBlock := none
      events := output.events ++ [.blockEnd output.blocks.length (block.finish parse)] }

/-- Close the open block and open another. -/
def startBlock (block : Block) (output : Output) : Output :=
  let output := finishCurrentBlock parse output
  { output with
    currentBlock := some block
    events := output.events ++ [.blockStart block.kind output.blocks.length] }

def extendBlock (f : Block → Block) (kind : BlockKind) (delta : String) (output : Output) :
    Output :=
  { output with
    currentBlock := output.currentBlock.map f
    events := output.events ++ [.blockDelta kind output.blocks.length delta] }

/-- Open a block unless the open one is of its kind. -/
def ensureBlock (block : Block) (output : Output) : Output :=
  if output.currentBlock.map Block.kind = some block.kind then output
  else startBlock parse block output

/-- `currentBlock.text += content`. -/
def Block.addText (content : String) : Block → Block
  | .text old => .text (old ++ content)
  | block => block

/-- A text delta. -/
def handleContent (content : String) (output : Output) : Output :=
  extendBlock (Block.addText content) .text content (ensureBlock parse (.text "") output)

/-- `currentBlock.thinking += delta`. -/
def Block.addThinking (delta : String) : Block → Block
  | .thinking old signature => .thinking (old ++ delta) signature
  | block => block

def handleReasoning (field delta : String) (output : Output) : Output :=
  extendBlock (Block.addThinking delta) .thinking delta
    (ensureBlock parse (.thinking "" field) output)

def startsToolCall (current : Option Block) (tc : ToolCallDelta) : Bool :=
  match current with
  | some (.toolCall id ..) => tc.id ≠ "" ∧ id ≠ tc.id
  | _ => true

def Block.addToolCall (tc : ToolCallDelta) : Block → Block
  | .toolCall id name arguments partialArgs signature =>
    let partialArgs' := partialArgs.getD "" ++ tc.arguments
    .toolCall (if tc.id ≠ "" then tc.id else id) (if tc.name ≠ "" then tc.name else name)
      (if tc.arguments ≠ "" then parse partialArgs' else arguments) (some partialArgs') signature
  | block => block

def handleToolCall (tc : ToolCallDelta) (output : Output) : Output :=
  extendBlock (Block.addToolCall parse tc) .toolCall tc.arguments
    (if startsToolCall output.currentBlock tc then
      startBlock parse (.toolCall tc.id tc.name (.obj []) (some "") none) output
    else output)

/-- A text or reasoning delta that is not empty, or a delta of a tool call. -/
inductive Piece
  | text (content : String)
  | thinking (field delta : String)
  | call (tc : ToolCallDelta)

def Delta.reasoningField (delta : Delta) : Option (String × String) :=
  [("reasoning_content", delta.reasoningContent), ("reasoning", delta.reasoning),
    ("reasoning_text", delta.reasoningText)].find? fun field => field.2 ≠ ""

def Delta.pieces (delta : Delta) : List Piece :=
  (if delta.content ≠ "" then [.text delta.content] else []) ++
    (delta.reasoningField.toList.map fun field => .thinking field.1 field.2) ++
      delta.toolCalls.map .call

def handlePiece (output : Output) : Piece → Output
  | .text content => handleContent parse content output
  | .thinking field delta => handleReasoning parse field delta output
  | .call tc => handleToolCall parse tc output

end Loop

def Block.hasId (id : String) : Block → Bool
  | .toolCall id' .. => id' = id
  | _ => false

/-- `thoughtSignature = JSON.stringify(detail)`. -/
def Block.sign (detail : Json) : Block → Block
  | .toolCall id name arguments partialArgs _ =>
    .toolCall id name arguments partialArgs (some detail)
  | block => block

def signFirst (id : String) (detail : Json) : List Block → List Block
  | [] => []
  | block :: rest =>
    if block.hasId id then block.sign detail :: rest else block :: signFirst id detail rest

def handleDetail (output : Output) (d : ReasoningDetail) : Output :=
  if d.type = "reasoning.encrypted" ∧ d.id ≠ "" ∧ d.data ≠ "" then
    if output.blocks.any (Block.hasId d.id) then
      { output with blocks := signFirst d.id d.detail output.blocks }
    else
      { output with currentBlock := output.currentBlock.map fun block =>
          if block.hasId d.id then block.sign d.detail else block }
  else output

/-- `output.responseId ||= chunk.id`. -/
def setResponseId (id : String) (output : Output) : Output :=
  if output.responseId = "" then { output with responseId := id } else output

def setStopReason (finishReason : String) (output : Output) : Output :=
  if finishReason ≠ "" then
    let (stopReason, errorMessage) := mapStopReason finishReason
    { output with stopReason := stopReason, errorMessage := errorMessage.or output.errorMessage }
  else output

section Stream

variable (parse : String → Json)

def handleChunk (output : Output) (chunk : Chunk) : Output :=
  let output := setResponseId chunk.id output
  match chunk.choice with
  | none => output
  | some choice =>
    let output := setStopReason choice.finishReason output
    match choice.delta with
    | none => output
    | some delta =>
      delta.reasoningDetails.foldl handleDetail (delta.pieces.foldl (handlePiece parse) output)

def failStream (aborted : Bool) (message : String) (output : Output) : Output :=
  let stopReason := if aborted then StopReason.aborted else .error
  { output with
    stopReason := stopReason
    errorMessage := some message
    events := output.events ++ [.error stopReason] }

/-- `streamOpenAICompletions` over the chunks that come, and the error in which they end, if any. -/
def streamOpenAICompletions (chunks : List Chunk) (failure : Option String) (aborted : Bool) :
    Output :=
  let output := chunks.foldl (handleChunk parse) { events := [.start] }
  match failure with
  | some message => failStream aborted message output
  | none =>
    let output := finishCurrentBlock parse output
    if aborted then failStream aborted "Request was aborted" output
    else if output.stopReason = .aborted then failStream aborted "Request was aborted" output
    else if output.stopReason = .error then
      failStream aborted (output.errorMessage.getD "Provider returned an error stop reason") output
    else { output with events := output.events ++ [.done output.stopReason] }

end Stream

end CrabbyKit.Completions
