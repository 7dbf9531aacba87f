import CrabbyKit.Core.Json
import CrabbyKit.Providers.TransformMessages

/-!
# Messages for OpenAI completions

The loop of `convertMessages` of `ai/src/providers/openai-completions.ts` over messages that
`transformMessages` has made ready, and `sanitizeSurrogates`. Arguments of tool calls are kept as
the text that `JSON.stringify` makes of them.
-/

namespace CrabbyKit.Providers

def isHighSurrogate (u : UInt16) : Bool := 0xD800 ≤ u && u ≤ 0xDBFF

def isLowSurrogate (u : UInt16) : Bool := 0xDC00 ≤ u && u ≤ 0xDFFF

/-- `sanitizeSurrogates` after a code unit: high surrogates go that no low one follows, and low
ones that no high one precedes. -/
def sanitizeAfter (previous : Option UInt16) : JsString → JsString
  | [] => []
  | u :: rest =>
    let unpaired := (isHighSurrogate u && !rest.head?.any isLowSurrogate) ||
      (isLowSurrogate u && !previous.any isHighSurrogate)
    if unpaired then sanitizeAfter (some u) rest else u :: sanitizeAfter (some u) rest

def sanitizeSurrogates (text : JsString) : JsString := sanitizeAfter none text

inductive UserContent
  | plain (text : JsString)
  | blocks (blocks : List UserBlock)
  deriving DecidableEq, Repr

inductive ReadyMessage
  | user (content : UserContent)
  | assistant (message : AssistantMessage)
  | toolResult (message : ToolResultMessage)
  deriving DecidableEq, Repr

/-- A transformed message whose user content is blocks. -/
def Message.ready : Message → ReadyMessage
  | .user m => .user (.blocks m.content)
  | .assistant m => .assistant m
  | .toolResult m => .toolResult m

structure CompletionsModel where
  reasoning : Bool
  acceptsImages : Bool
  deriving DecidableEq, Repr

/-- What the conversion reads of `OpenAICompletionsCompat`. -/
structure Compat where
  supportsDeveloperRole : Bool
  requiresToolResultName : Bool
  requiresAssistantAfterToolResult : Bool
  requiresThinkingAsText : Bool
  deriving DecidableEq, Repr

inductive ContentPart
  | text (text : JsString)
  | imageUrl (url : JsString)
  deriving DecidableEq, Repr

/-- The property `content`. -/
inductive ParamContent
  | null
  | plain (text : JsString)
  | parts (parts : List ContentPart)
  deriving DecidableEq, Repr

/-- An element of `tool_calls`. -/
structure FunctionCall where
  id : JsString
  name : JsString
  arguments : JsString
  deriving DecidableEq, Repr

/-- The property `tool_calls`: missing, the calls of the message, or a text that was written
there. -/
inductive ToolCallsField
  | absent
  | calls (calls : List FunctionCall)
  | written (text : JsString)
  deriving DecidableEq, Repr

/-- `ChatCompletionMessageParam`, with the properties that have no place of their own. -/
structure Param where
  role : JsString
  content : ParamContent
  toolCalls : ToolCallsField := .absent
  toolCallId : Option JsString := none
  name : Option JsString := none
  reasoningDetails : List Json := []
  others : List (JsString × JsString) := []

/-- What the conversion throws. -/
inductive ConvertError
  | typeError (message : String)
  deriving DecidableEq, Repr

/-- `(param as any)[key] = value` for a text. -/
def Param.write (param : Param) (key value : JsString) : Param :=
  if key = js "role" then { param with role := value }
  else if key = js "content" then { param with content := .plain value }
  else if key = js "tool_calls" then { param with toolCalls := .written value }
  else if key = js "tool_call_id" then { param with toolCallId := some value }
  else if key = js "name" then { param with name := some value }
  else if key = js "__proto__" then param
  else { param with others := param.others ++ [(key, value)] }

/-- `data:${mimeType};base64,${data}`. -/
def dataUrl (data mimeType : JsString) : JsString :=
  js "data:" ++ mimeType ++ js ";base64," ++ data

def UserBlock.part : UserBlock → ContentPart
  | .text t => .text (sanitizeSurrogates t)
  | .image data mimeType => .imageUrl (dataUrl data mimeType)

def ContentPart.isImage : ContentPart → Bool
  | .imageUrl _ => true
  | .text _ => false

def UserBlock.text? : UserBlock → Option JsString
  | .text t => some t
  | .image _ _ => none

def UserBlock.url? : UserBlock → Option JsString
  | .text _ => none
  | .image data mimeType => some (dataUrl data mimeType)

def filteredContent (model : CompletionsModel) (blocks : List UserBlock) : List ContentPart :=
  let content := blocks.map UserBlock.part
  if !model.acceptsImages then content.filter fun c => !c.isImage else content

/-- A user message; one without parts is skipped. -/
def convertUser (model : CompletionsModel) : UserContent → Option Param
  | .plain text => some { role := js "user", content := .plain (sanitizeSurrogates text) }
  | .blocks blocks =>
    if (filteredContent model blocks).length = 0 then none
    else some { role := js "user", content := .parts (filteredContent model blocks) }

/-- `nonEmptyTextBlocks`, as their texts. -/
def AssistantMessage.nonEmptyTexts (m : AssistantMessage) : List JsString :=
  m.content.filterMap fun
    | .text text _ => if isBlank text then none else some text
    | _ => none

/-- `nonEmptyThinkingBlocks`, as their texts and signatures. -/
def AssistantMessage.nonEmptyThinking (m : AssistantMessage) :
    List (JsString × Option JsString) :=
  m.content.filterMap fun
    | .thinking thinking signature _ =>
      if isBlank thinking then none else some (thinking, signature)
    | _ => none

def joinWith (separator : JsString) (texts : List JsString) : JsString :=
  (texts.intersperse separator).flatten

/-- The thinking of a reply goes before its text, or into the property that its signature
names. A text has no `unshift`. -/
def addThinking (compat : Compat) (thinking : List (JsString × Option JsString)) (param : Param) :
    Except ConvertError Param :=
  match thinking with
  | [] => .ok param
  | (first, signature) :: rest =>
    let texts := first :: rest.map Prod.fst
    if compat.requiresThinkingAsText then
      let thinkingText := joinWith (js "\n\n") texts
      match param.content with
      | .null => .ok { param with content := .parts [.text thinkingText] }
      | .plain [] => .ok { param with content := .parts [.text thinkingText] }
      | .plain (_ :: _) => .error (.typeError "textContent.unshift is not a function")
      | .parts parts => .ok { param with content := .parts (.text thinkingText :: parts) }
    else
      match signature with
      | none => .ok param
      | some [] => .ok param
      | some signature => .ok (param.write signature (joinWith (js "\n") texts))

variable (jsonParse : JsString → Option Json)

/-- The parsed signatures of the calls; what does not parse, or is falsy, is left out. -/
def reasoningDetails (toolCalls : List ToolCall) : List Json :=
  ((toolCalls.filterMap fun tc => tc.thoughtSignature.filter fun s => !s.isEmpty).filterMap
    jsonParse).filter Json.truthy

/-- The tool calls of a reply, if there are some. -/
def addToolCalls (toolCalls : List ToolCall) (param : Param) : Param :=
  if toolCalls.length > 0 then
    let details := reasoningDetails jsonParse toolCalls
    let param :=
      { param with toolCalls := .calls (toolCalls.map fun tc => ⟨tc.id, tc.name, tc.arguments⟩) }
    if details.length > 0 then
      { param with
        reasoningDetails := details
        others := param.others.filter fun entry => entry.1 ≠ js "reasoning_details" }
    else param
  else param

def ParamContent.hasContent : ParamContent → Bool
  | .null => false
  | .plain t => !t.isEmpty
  | .parts ps => !ps.isEmpty

/-- The content of a reply before its thinking; some providers take no `null`. -/
def textContent (compat : Compat) (m : AssistantMessage) : ParamContent :=
  if m.nonEmptyTexts.length > 0 then .plain (m.nonEmptyTexts.map sanitizeSurrogates).flatten
  else if compat.requiresAssistantAfterToolResult then .plain []
  else .null

/-- A reply; one without content and tool calls is skipped. -/
def convertAssistant (compat : Compat) (m : AssistantMessage) :
    Except ConvertError (Option Param) :=
  let assistantMsg : Param := { role := js "assistant", content := textContent compat m }
  match addThinking compat m.nonEmptyThinking assistantMsg with
  | .error e => .error e
  | .ok param =>
    let param := addToolCalls jsonParse m.toolCalls param
    if !param.content.hasContent && param.toolCalls = .absent then .ok none else .ok (some param)

def ToolResultMessage.textResult (m : ToolResultMessage) : JsString :=
  joinWith (js "\n") (m.content.filterMap UserBlock.text?)

def convertToolResult (compat : Compat) (toolMsg : ToolResultMessage) : Param where
  role := js "tool"
  content := .plain (sanitizeSurrogates
    (if toolMsg.textResult.length > 0 then toolMsg.textResult else js "(see attached image)"))
  toolCallId := some toolMsg.toolCallId
  name :=
    if compat.requiresToolResultName && !toolMsg.toolName.isEmpty then some toolMsg.toolName
    else none

/-- The assistant message between tool results and a user message. -/
def bridge : Param :=
  { role := js "assistant", content := .plain (js "I have processed the tool results.") }

/-- `imageBlocks` after a run of tool results, as their urls. -/
def imageBlocks (model : CompletionsModel) (results : List ToolResultMessage) : List JsString :=
  if model.acceptsImages then results.flatMap fun m => m.content.filterMap UserBlock.url? else []

/-- The images of tool results as a user message. -/
def imageMessage (urls : List JsString) : Param where
  role := js "user"
  content := .parts (.text (js "Attached image(s) from tool result:") :: urls.map .imageUrl)

/-- What one turn of the loop takes: a message, or a run of tool results. -/
inductive Turn
  | user (content : UserContent)
  | assistant (message : AssistantMessage)
  | results (first : ToolResultMessage) (rest : List ToolResultMessage)
  deriving DecidableEq, Repr

/-- The turns of the loop: the inner index takes tool results up to the next other message. -/
def turns : List ReadyMessage → List Turn
  | [] => []
  | .user content :: rest => .user content :: turns rest
  | .assistant m :: rest => .assistant m :: turns rest
  | .toolResult m :: rest =>
    match turns rest with
    | .results next more :: later => .results m (next :: more) :: later
    | later => .results m [] :: later

inductive LastRole
  | user | assistant | toolResult
  deriving DecidableEq, Repr

/-- One turn of the loop: what it pushes, and the `lastRole` after it. A skipped message leaves
`lastRole` as it is. -/
def convertTurn (model : CompletionsModel) (compat : Compat) (lastRole : Option LastRole) :
    Turn → Except ConvertError (List Param × Option LastRole)
  | .user content =>
    let bridged :=
      if compat.requiresAssistantAfterToolResult && lastRole = some .toolResult then [bridge]
      else []
    match convertUser model content with
    | none => .ok (bridged, lastRole)
    | some param => .ok (bridged ++ [param], some .user)
  | .assistant m =>
    match convertAssistant jsonParse compat m with
    | .error e => .error e
    | .ok none => .ok ([], lastRole)
    | .ok (some param) => .ok ([param], some .assistant)
  | .results first rest =>
    let results := (first :: rest).map (convertToolResult compat)
    let images := imageBlocks model (first :: rest)
    if images.length > 0 then
      let bridged := if compat.requiresAssistantAfterToolResult then [bridge] else []
      .ok (results ++ (bridged ++ [imageMessage images]), some .user)
    else .ok (results, some .toolResult)

def convertTurns (model : CompletionsModel) (compat : Compat) :
    Option LastRole → List Turn → Except ConvertError (List (List Param))
  | _, [] => .ok []
  | lastRole, turn :: rest =>
    match convertTurn jsonParse model compat lastRole turn with
    | .error e => .error e
    | .ok (pushed, lastRole) => (convertTurns model compat lastRole rest).map (pushed :: ·)

def systemParams (model : CompletionsModel) (compat : Compat) (systemPrompt : Option JsString) :
    List Param :=
  match systemPrompt with
  | none => []
  | some [] => []
  | some text =>
    let useDeveloperRole := model.reasoning && compat.supportsDeveloperRole
    [{ role := if useDeveloperRole then js "developer" else js "system"
       content := .plain (sanitizeSurrogates text) }]

/-- `convertMessages` on the transformed messages. -/
def convertMessages (model : CompletionsModel) (compat : Compat) (systemPrompt : Option JsString)
    (transformedMessages : List ReadyMessage) : Except ConvertError (List Param) :=
  (convertTurns jsonParse model compat none (turns transformedMessages)).map fun pushed =>
    systemParams model compat systemPrompt ++ pushed.flatten

end CrabbyKit.Providers
