import CrabbyKit.Core.Json
import CrabbyKit.Core.Table
import CrabbyKit.Session.Types

/-!
# The provider stream of a bundle

`iterateProviderStream` of `bundle-sdk/src/providers/stream-iterator.ts` over the `data:` payloads
of a stream, with the two accumulators of `openai-toolcalls.ts` and `anthropic-toolcalls.ts`. An
accumulator object is its place in a heap, so that two map entries can hold the same one.
-/

namespace CrabbyKit.Bundle

structure ToolCallAccumulator where
  id : String
  name : String
  rawArgs : String
  deriving DecidableEq, Repr

/-- The accumulators and the two maps, in the order in which their keys came. -/
structure Accumulated where
  heap : List ToolCallAccumulator := []
  byId : List (String × Nat) := []
  byIndex : List (Int × Nat) := []
  deriving DecidableEq, Repr

/-- `map.get(key)`. -/
def mapGet {κ : Type*} [DecidableEq κ] (map : List (κ × Nat)) (key : κ) : Option Nat :=
  (Table.lookup Prod.fst map key).map Prod.snd

/-- `map.set(key, value)`. -/
def mapSet {κ : Type*} [DecidableEq κ] (map : List (κ × Nat)) (key : κ) (value : Nat) :
    List (κ × Nat) :=
  if key ∈ map.map Prod.fst then Table.modify Prod.fst key (fun _ => (key, value)) map
  else map ++ [(key, value)]

namespace Accumulated

/-- Put a new accumulator on the heap. -/
def alloc (state : Accumulated) (entry : ToolCallAccumulator) : Nat × Accumulated :=
  (state.heap.length, { state with heap := state.heap ++ [entry] })

def write (state : Accumulated) (entry : Nat) (f : ToolCallAccumulator → ToolCallAccumulator) :
    Accumulated :=
  { state with heap := state.heap.modify entry f }

end Accumulated

def extractOpenAITextDelta (payload : Json) : String :=
  ((((payload.field "choices").bind Json.first).bind (Json.field "delta")).bind
    (Json.field "content")).bind Json.asString |>.getD ""

def extractOpenAIStopReason (payload : Json) : Option StopReason :=
  match ((payload.field "choices").bind Json.first).bind (Json.field "finish_reason") with
  | none => none
  | some finish =>
    if finish.truthy then
      match finish with
      | .str "tool_calls" => some .toolUse
      | .str "function_call" => some .toolUse
      | .str "length" => some .length
      | _ => some .stop
    else none

/-- The accumulator that a delta belongs to: by its index, else by its id. -/
def findEntry (state : Accumulated) (idxKey : Option Int) (id : Option String) : Option Nat :=
  (idxKey.bind (mapGet state.byIndex)).or ((id.filter (· ≠ "")).bind (mapGet state.byId))

/-- A new accumulator, under the keys that its first delta has. -/
def newEntry (state : Accumulated) (idxKey : Option Int) (id name : Option String) :
    Nat × Accumulated :=
  let (entry, state) := state.alloc ⟨id.getD "", name.getD "", ""⟩
  (entry, { state with
    byIndex := match idxKey with
      | some idx => mapSet state.byIndex idx entry
      | none => state.byIndex
    byId := if id.getD "" ≠ "" then mapSet state.byId (id.getD "") entry else state.byId })

def updateEntry (state : Accumulated) (entry : Nat) (id name : Option String) : Accumulated :=
  let old := (state.heap[entry]?.map ToolCallAccumulator.id).getD ""
  let state := if id.getD "" ≠ "" ∧ id.getD "" ≠ old then
      { state.write entry fun a => { a with id := id.getD "" } with
        byId := mapSet state.byId (id.getD "") entry }
    else state
  match name with
  | some name => state.write entry fun a => if a.name = "" then { a with name := name } else a
  | none => state

def absorbDelta (state : Accumulated) (idxKey : Option Int) (id name arguments : Option String) :
    Accumulated :=
  let (entry, state) := match findEntry state idxKey id with
    | none => newEntry state idxKey id name
    | some entry => (entry, updateEntry state entry id name)
  match arguments with
  | some text => state.write entry fun a => { a with rawArgs := a.rawArgs ++ text }
  | none => state

/-- One element of `tool_calls`; reading from `null` throws. -/
def absorbToolCall (state : Accumulated) : Json → Option Accumulated
  | .null => none
  | tc => some (absorbDelta state ((tc.field "index").bind Json.asNumber)
      ((tc.field "id").bind Json.asString)
      (((tc.field "function").bind (Json.field "name")).bind Json.asString)
      (((tc.field "function").bind (Json.field "arguments")).bind Json.asString))

def absorbOpenAIToolCallDeltas (payload : Json) (state : Accumulated) : Option Accumulated :=
  match (payload.field "choices").bind Json.asArray with
  | none => some state
  | some choices =>
    (choices.flatMap fun choice =>
      (((choice.field "delta").bind (Json.field "tool_calls")).bind Json.asArray).getD []).foldlM
        absorbToolCall state

/-- A member that must be the given text. -/
def hasText (value : Option Json) (text : String) : Bool := value.bind Json.asString = some text

def extractAnthropicTextDelta (payload : Json) : String :=
  if hasText (payload.field "type") "content_block_delta" then
    let delta := payload.field "delta"
    if hasText (delta.bind (Json.field "type")) "text_delta" then
      ((delta.bind (Json.field "text")).bind Json.asString).getD ""
    else ""
  else ""

def extractAnthropicStopReason (payload : Json) : Option StopReason :=
  if hasText (payload.field "type") "message_delta" then
    match (payload.field "delta").bind (Json.field "stop_reason") with
    | none => none
    | some reason =>
      if reason.truthy then
        match reason with
        | .str "tool_use" => some .toolUse
        | .str "max_tokens" => some .length
        | _ => some .stop
      else none
  else none

def absorbAnthropicToolCallEvent (payload : Json) (state : Accumulated) : Accumulated :=
  let index := (payload.field "index").bind Json.asNumber
  if hasText (payload.field "type") "content_block_start" then
    let block := payload.field "content_block"
    if hasText (block.bind (Json.field "type")) "tool_use" then
      match index with
      | none => state
      | some idx =>
        let (entry, state) := state.alloc
          ⟨((block.bind (Json.field "id")).bind Json.asString).getD "",
            ((block.bind (Json.field "name")).bind Json.asString).getD "", ""⟩
        { state with byIndex := mapSet state.byIndex idx entry }
    else state
  else if hasText (payload.field "type") "content_block_delta" then
    match index.bind (mapGet state.byIndex) with
    | none => state
    | some entry =>
      let delta := payload.field "delta"
      if hasText (delta.bind (Json.field "type")) "input_json_delta" then
        match (delta.bind (Json.field "partial_json")).bind Json.asString with
        | some text => state.write entry fun a => { a with rawArgs := a.rawArgs ++ text }
        | none => state
      else state
  else state

structure ParsedToolCall where
  id : String
  name : String
  args : Json
  rawArgs : String

inductive StreamChunk
  | text (delta : String)
  | completed (toolCalls : List ParsedToolCall) (stopReason : StopReason)

/-- The parsed arguments: an empty object where the text is empty, malformed or no object. -/
def parseArgs (jsonParse : String → Option Json) (rawArgs : String) : Json :=
  if rawArgs = "" then .obj []
  else match jsonParse rawArgs with
    | some (.obj members) => .obj members
    | _ => .obj []

/-- The values of both maps, each accumulator once. -/
def distinctEntries (state : Accumulated) : List Nat :=
  (state.byId.map Prod.snd ++ state.byIndex.map Prod.snd).foldl
    (fun seen entry => if entry ∈ seen then seen else seen ++ [entry]) []

def finalizeToolCalls (jsonParse : String → Option Json) (state : Accumulated) :
    List ParsedToolCall :=
  (distinctEntries state).filterMap fun entry => state.heap[entry]?.map fun a =>
    ⟨a.id, a.name, parseArgs jsonParse a.rawArgs, a.rawArgs⟩

/-- `parsePayload`, with `JSON.parse`. -/
def parsePayload (jsonParse : String → Option Json) (payload : String) : Option Json :=
  if payload = "[DONE]" then none
  else match jsonParse payload with
    | some .null => none
    | parsed => parsed

/-- The text that a payload yields: that of the OpenAI shape, else of the Anthropic one. -/
def textOf (parsed : Json) : String :=
  if extractOpenAITextDelta parsed ≠ "" then extractOpenAITextDelta parsed
  else extractAnthropicTextDelta parsed

/-- The first stop reason other than `stop` is kept. -/
def nextStopReason (stopReason : StopReason) (parsed : Json) : StopReason :=
  if stopReason = .stop then
    ((extractOpenAIStopReason parsed).or (extractAnthropicStopReason parsed)).getD stopReason
  else stopReason

/-- The loop of `iterateProviderStream` over payloads that parse: the chunks that it yields and,
unless it throws, what it has gathered. -/
def iteratePayloads : List Json → Accumulated → StopReason →
    List StreamChunk × Option (Accumulated × StopReason)
  | [], state, stopReason => ([], some (state, stopReason))
  | parsed :: rest, state, stopReason =>
    let yielded := if textOf parsed ≠ "" then [.text (textOf parsed)] else []
    match absorbOpenAIToolCallDeltas parsed state with
    | none => (yielded, none)
    | some state =>
      let (chunks, ending) := iteratePayloads rest (absorbAnthropicToolCallEvent parsed state)
        (nextStopReason stopReason parsed)
      (yielded ++ chunks, ending)

/-- `iterateProviderStream`, over the payloads of `iterateSseData`. -/
def iterateProviderStream (jsonParse : String → Option Json) (dataPayloads : List String) :
    List StreamChunk :=
  match iteratePayloads (dataPayloads.filterMap (parsePayload jsonParse)) {} .stop with
  | (chunks, none) => chunks
  | (chunks, some (state, stopReason)) =>
    let toolCalls := finalizeToolCalls jsonParse state
    chunks ++ [.completed toolCalls
      (if toolCalls ≠ [] ∧ stopReason = .stop then .toolUse else stopReason)]

end CrabbyKit.Bundle
