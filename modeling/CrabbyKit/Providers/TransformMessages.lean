import CrabbyKit.Core.Answers
import CrabbyKit.Session.Types

/-!
# Messages for a provider

`transformMessages` of `ai/src/providers/transform-messages.ts`: a first pass rewrites
blocks and tool call ids for the model that is called, a second one repairs tool calls
without results.
-/

namespace CrabbyKit.Providers

open List

/-- A string as its UTF-16 code units. -/
abbrev JsString := List UInt16

def charUnits (c : Char) : JsString :=
  if c.toNat < 0x10000 then [c.toNat.toUInt16]
  else [(0xD800 + (c.toNat - 0x10000) / 0x400).toUInt16,
    (0xDC00 + (c.toNat - 0x10000) % 0x400).toUInt16]

def js (text : String) : JsString := text.toList.flatMap charUnits

/-- White space and line ends, as `trim` takes them off. -/
def isTrimmed (u : UInt16) : Bool :=
  [0x09, 0x0A, 0x0B, 0x0C, 0x0D, 0x20, 0xA0, 0x1680, 0x2028, 0x2029, 0x202F, 0x205F, 0x3000,
    0xFEFF].contains u || (0x2000 ≤ u && u ≤ 0x200A)

/-- `text.trim() === ""`. -/
def isBlank (text : JsString) : Bool := text.all isTrimmed

structure ToolCall where
  id : JsString
  name : JsString
  arguments : JsString
  thoughtSignature : Option JsString := none
  deriving DecidableEq, Repr

inductive Block
  | text (text : JsString) (textSignature : Option JsString)
  | thinking (thinking : JsString) (thinkingSignature : Option JsString) (redacted : Bool)
  | toolCall (call : ToolCall)
  deriving DecidableEq, Repr

inductive UserBlock
  | text (text : JsString)
  | image (data mimeType : JsString)
  deriving DecidableEq, Repr

structure UserMessage where
  content : List UserBlock
  timestamp : Instant
  deriving DecidableEq, Repr

structure AssistantMessage where
  content : List Block
  api : JsString
  provider : JsString
  model : JsString
  stopReason : StopReason
  timestamp : Instant
  deriving DecidableEq, Repr

structure ToolResultMessage where
  toolCallId : JsString
  toolName : JsString
  content : List UserBlock
  isError : Bool
  timestamp : Instant
  deriving DecidableEq, Repr

inductive Message
  | user (message : UserMessage)
  | assistant (message : AssistantMessage)
  | toolResult (message : ToolResultMessage)
  deriving DecidableEq, Repr

structure Model where
  id : JsString
  api : JsString
  provider : JsString
  deriving DecidableEq, Repr

/-- The callback that normalizes a tool call id of a source message. -/
abbrev Normalizer := JsString → AssistantMessage → JsString

/-- The normalized ids by original id, the latest entry first. -/
abbrev IdMap := List (JsString × JsString)

/-- `toolCallIdMap.get(id)`. -/
def IdMap.get (ids : IdMap) (id : JsString) : Option JsString :=
  (ids.find? fun entry => entry.1 = id).map Prod.snd

/-- `toolCallIdMap.set(id, normalizedId)`. -/
def IdMap.set (ids : IdMap) (id normalizedId : JsString) : IdMap := (id, normalizedId) :: ids

/-- Whether a reply came from the model that is called. -/
def isSameModel (model : Model) (m : AssistantMessage) : Bool :=
  m.provider = model.provider && m.api = model.api && m.model = model.id

def truthy (text : Option JsString) : Bool := text.any fun t => !t.isEmpty

def transformBlock (model : Model) (normalizeToolCallId : Option Normalizer)
    (source : AssistantMessage) (ids : IdMap) : Block → List Block × IdMap
  | .thinking thinking signature redacted =>
    let same := isSameModel model source
    if redacted then (if same then [.thinking thinking signature redacted] else [], ids)
    else if same && truthy signature then ([.thinking thinking signature redacted], ids)
    else if thinking.isEmpty || isBlank thinking then ([], ids)
    else if same then ([.thinking thinking signature redacted], ids)
    else ([.text thinking none], ids)
  | .text text signature =>
    if isSameModel model source then ([.text text signature], ids) else ([.text text none], ids)
  | .toolCall call =>
    if isSameModel model source then ([.toolCall call], ids)
    else
      let normalizedToolCall :=
        if truthy call.thoughtSignature then { call with thoughtSignature := none } else call
      match normalizeToolCallId with
      | none => ([.toolCall normalizedToolCall], ids)
      | some normalize =>
        let normalizedId := normalize call.id source
        if normalizedId ≠ call.id then
          ([.toolCall { normalizedToolCall with id := normalizedId }],
            ids.set call.id normalizedId)
        else ([.toolCall normalizedToolCall], ids)

/-- Rewrite the blocks of a reply in order. -/
def transformBlocks (model : Model) (normalizeToolCallId : Option Normalizer)
    (source : AssistantMessage) : IdMap → List Block → List Block × IdMap
  | ids, [] => ([], ids)
  | ids, block :: rest =>
    let (first, ids) := transformBlock model normalizeToolCallId source ids block
    let (later, ids) := transformBlocks model normalizeToolCallId source ids rest
    (first ++ later, ids)

def transformMessage (model : Model) (normalizeToolCallId : Option Normalizer) (ids : IdMap) :
    Message → Message × IdMap
  | .user m => (.user m, ids)
  | .toolResult m =>
    match ids.get m.toolCallId with
    | none => (.toolResult m, ids)
    | some normalizedId =>
      if !normalizedId.isEmpty && normalizedId ≠ m.toolCallId then
        (.toolResult { m with toolCallId := normalizedId }, ids)
      else (.toolResult m, ids)
  | .assistant m =>
    let (content, ids) := transformBlocks model normalizeToolCallId m ids m.content
    (.assistant { m with content := content }, ids)

/-- The first pass. -/
def transformed (model : Model) (normalizeToolCallId : Option Normalizer) :
    IdMap → List Message → List Message
  | _, [] => []
  | ids, m :: rest =>
    let (first, ids) := transformMessage model normalizeToolCallId ids m
    first :: transformed model normalizeToolCallId ids rest

def Block.call? : Block → Option ToolCall
  | .toolCall call => some call
  | _ => none

/-- `content.filter((b) => b.type === "toolCall")`. -/
def AssistantMessage.toolCalls (m : AssistantMessage) : List ToolCall :=
  m.content.filterMap Block.call?

/-- Whether a reply is left out: it failed or was aborted. -/
def AssistantMessage.skipped (m : AssistantMessage) : Bool :=
  m.stopReason = .error || m.stopReason = .aborted

/-- The variables of the second pass. -/
structure Repair where
  result : List Message
  pendingToolCalls : List ToolCall
  existingToolResultIds : List JsString

def syntheticResult (now : Instant) (call : ToolCall) : ToolResultMessage :=
  { toolCallId := call.id
    toolName := call.name
    content := [.text (js "No result provided")]
    isError := true
    timestamp := now }

def syntheticResults (now : Instant) (calls : List ToolCall) (existing : List JsString) :
    List ToolResultMessage :=
  (calls.filter fun call => !existing.contains call.id).map (syntheticResult now)

/-- Insert the missing results of the pending calls. -/
def Repair.flush (now : Instant) (st : Repair) : Repair :=
  if st.pendingToolCalls ≠ [] then
    { result := st.result ++
        (syntheticResults now st.pendingToolCalls st.existingToolResultIds).map .toolResult
      pendingToolCalls := []
      existingToolResultIds := [] }
  else st

/-- One message of the second pass; `now` is the clock during the pass. -/
def Repair.step (now : Instant) (st : Repair) : Message → Repair
  | .assistant m =>
    let st := st.flush now
    if m.skipped then st
    else
      let st :=
        if m.toolCalls ≠ [] then
          { st with pendingToolCalls := m.toolCalls, existingToolResultIds := [] }
        else st
      { st with result := st.result ++ [.assistant m] }
  | .toolResult m =>
    { st with
      existingToolResultIds := st.existingToolResultIds ++ [m.toolCallId]
      result := st.result ++ [.toolResult m] }
  | .user m =>
    let st := st.flush now
    { st with result := st.result ++ [.user m] }

/-- The second pass. -/
def repaired (now : Instant) (messages : List Message) : List Message :=
  (messages.foldl (Repair.step now) ⟨[], [], []⟩).result

/-- Make a history ready for the model that is called. -/
def transformMessages (now : Instant) (messages : List Message) (model : Model)
    (normalizeToolCallId : Option Normalizer) : List Message :=
  repaired now (transformed model normalizeToolCallId [] messages)

/-!
# Calls and results in a provider's history

The second pass of `transformMessages` mends the log of calls and results. The list it gives
is well formed exactly when every result of the input belongs where it stands and nothing is
missing behind the last message.
-/

/-- What a message of a provider's history asks for or answers. -/
def Message.entry : Message → Entry JsString
  | .user _ => .ask []
  | .assistant m => .ask (m.toolCalls.map ToolCall.id)
  | .toolResult m => .answer m.toolCallId

/-- What a message asks for or answers when replies that are left out ask for nothing. -/
def Message.source : Message → Entry JsString
  | .user _ => .ask []
  | .assistant m => if m.skipped then .cut else .ask (m.toolCalls.map ToolCall.id)
  | .toolResult m => .answer m.toolCallId

/-- Directly behind every reply each of its calls has exactly one result, and every result
stands directly behind a reply, with only results between, and has a call there. -/
def WellFormed (history : List Message) : Prop := Paired (history.map Message.entry)

instance (history : List Message) : Decidable (WellFormed history) :=
  inferInstanceAs (Decidable (Paired _))

theorem entry_syntheticResults (now : Instant) (calls : List ToolCall) (existing : List JsString) :
    ((syntheticResults now calls existing).map Message.toolResult).map Message.entry =
      (missing (calls.map ToolCall.id) existing).map .answer := by
  rw [syntheticResults, missing, map_map, map_map, filter_map, map_map]
  exact congrArg (List.map (Entry.answer ∘ ToolCall.id)) (filter_congr fun call _ => by simp)

section Repair

variable (now : Instant)

/-- The second pass, as far as calls and results go, from any point on. -/
def Repair.rest (st : Repair) (messages : List Message) : List (Entry JsString) :=
  mend (st.pendingToolCalls.map ToolCall.id) st.existingToolResultIds
    (messages.map Message.source)

theorem Repair.flush_spec (st : Repair) :
    (st.flush now).pendingToolCalls = [] ∧
      (st.flush now).result.map Message.entry = st.result.map Message.entry ++
        (missing (st.pendingToolCalls.map ToolCall.id) st.existingToolResultIds).map .answer := by
  unfold Repair.flush
  by_cases hpending : st.pendingToolCalls = []
  · simp only [hpending, ne_eq, not_true, if_false]
    exact ⟨trivial, by rw [map_nil, missing_nil, map_nil, append_nil]⟩
  · simp only [hpending, ne_eq, not_false_iff, if_true]
    exact ⟨trivial, by rw [map_append, entry_syntheticResults]⟩

theorem Repair.step_spec (st : Repair) (m : Message) (messages : List Message) :
    (st.step now m).result.map Message.entry ++ (st.step now m).rest messages =
      st.result.map Message.entry ++ st.rest (m :: messages) := by
  obtain ⟨hpending, hresult⟩ := st.flush_spec now
  cases m with
  | toolResult m =>
    simp only [Repair.step, Repair.rest, map_append, map_cons, Message.source,
      Message.entry, mend, map_nil, append_assoc, cons_append, nil_append]
  | user m =>
    simp only [Repair.step, Repair.rest, map_append, hresult, hpending, map_cons, Message.source,
      Message.entry, mend, map_nil, append_assoc, cons_append, nil_append]
    rw [mend_nil _ []]
  | assistant m =>
    simp only [Repair.step, Repair.rest, map_cons, Message.source]
    by_cases hskipped : m.skipped = true
    · simp only [hskipped, if_true, hresult, hpending, mend, map_nil, append_assoc]
      rw [mend_nil _ []]
    · by_cases hcalls : m.toolCalls = []
      · simp only [hskipped, if_false, hcalls, ne_eq, not_true, hresult, hpending, mend,
          map_append, map_cons, map_nil, append_assoc, Message.entry,
          cons_append, nil_append, Bool.false_eq_true]
        rw [mend_nil _ []]
      · simp only [hskipped, if_false, hcalls, ne_eq, not_false_iff, if_true, hresult, mend,
          map_append, map_cons, map_nil, append_assoc, Message.entry,
          cons_append, nil_append, Bool.false_eq_true]

theorem repaired_entries (messages : List Message) :
    (repaired now messages).map Message.entry = mend [] [] (messages.map Message.source) := by
  have hrun : ∀ (messages : List Message) (st : Repair),
      (messages.foldl (Repair.step now) st).result.map Message.entry =
        st.result.map Message.entry ++ st.rest messages := by
    intro messages
    induction messages with
    | nil =>
      intro st
      exact (append_nil _).symm
    | cons m rest ih =>
      intro st
      rw [foldl_cons, ih, st.step_spec now m rest]
  exact hrun messages ⟨[], [], []⟩

end Repair

section Ids

variable (model : Model) (normalizeToolCallId : Option Normalizer)

def sentId (source : AssistantMessage) (id : JsString) : JsString :=
  if isSameModel model source then id
  else normalizeToolCallId.elim id fun normalize => normalize id source

/-- The ids of a message that change, with what they become, in order. -/
def renames : Message → List (JsString × JsString)
  | .assistant m => (m.toolCalls.map fun call =>
      (call.id, sentId model normalizeToolCallId m call.id)).filter fun entry => entry.2 ≠ entry.1
  | _ => []

/-- The id under which a result is sent: what the latest change of its id in an earlier message
made of it, unless that is empty. -/
def answeredId (earlier : List Message) (id : JsString) : JsString :=
  match (earlier.flatMap (renames model normalizeToolCallId)).reverse.find? (·.1 = id) with
  | none => id
  | some entry => if entry.2.isEmpty then id else entry.2

/-- The calls and results of a history under the ids that are sent. -/
def outline (earlier : List Message) : List Message → List (Entry JsString)
  | [] => []
  | m :: rest =>
    (match m with
      | .user _ => .ask []
      | .assistant m =>
        if m.skipped then .cut
        else .ask (m.toolCalls.map fun call => sentId model normalizeToolCallId m call.id)
      | .toolResult m => .answer (answeredId model normalizeToolCallId earlier m.toolCallId)) ::
      outline (earlier ++ [m]) rest

theorem transformBlock_spec (source : AssistantMessage) (ids : IdMap) (block : Block) :
    ((transformBlock model normalizeToolCallId source ids block).1.filterMap Block.call?).map
        ToolCall.id =
      block.call?.toList.map (fun call => sentId model normalizeToolCallId source call.id) ∧
    (transformBlock model normalizeToolCallId source ids block).2 =
      ((block.call?.toList.map fun call =>
        (call.id, sentId model normalizeToolCallId source call.id)).filter
          fun entry => entry.2 ≠ entry.1).reverse ++ ids := by
  cases block with
  | text text signature =>
    simp only [transformBlock]
    split_ifs
    · exact ⟨rfl, rfl⟩
    · exact ⟨rfl, rfl⟩
  | thinking thinking signature redacted =>
    simp only [transformBlock]
    split_ifs <;> exact ⟨rfl, rfl⟩
  | toolCall call =>
    by_cases hsame : isSameModel model source = true
    · simp [transformBlock, sentId, Block.call?, hsame]
    · cases normalizeToolCallId with
      | none =>
        by_cases hsignature : truthy call.thoughtSignature = true <;>
          simp [transformBlock, sentId, Block.call?, hsame, hsignature]
      | some normalize =>
        by_cases hid : normalize call.id source = call.id
        · by_cases hsignature : truthy call.thoughtSignature = true <;>
            simp [transformBlock, sentId, Block.call?, hsame, hid, hsignature]
        · simp [transformBlock, sentId, Block.call?, hsame, hid, IdMap.set]

theorem transformBlocks_spec (source : AssistantMessage) (ids : IdMap) (blocks : List Block) :
    ((transformBlocks model normalizeToolCallId source ids blocks).1.filterMap Block.call?).map
        ToolCall.id =
      (blocks.filterMap Block.call?).map
        (fun call => sentId model normalizeToolCallId source call.id) ∧
    (transformBlocks model normalizeToolCallId source ids blocks).2 =
      (((blocks.filterMap Block.call?).map fun call =>
        (call.id, sentId model normalizeToolCallId source call.id)).filter
          fun entry => entry.2 ≠ entry.1).reverse ++ ids := by
  induction blocks generalizing ids with
  | nil => exact ⟨rfl, rfl⟩
  | cons block rest ih =>
    obtain ⟨hcalls, hids⟩ := transformBlock_spec model normalizeToolCallId source ids block
    obtain ⟨hcalls', hids'⟩ := ih (transformBlock model normalizeToolCallId source ids block).2
    have hsplit : (block :: rest).filterMap Block.call? =
        block.call?.toList ++ rest.filterMap Block.call? := by
      rw [filterMap_cons]
      cases block.call? with
      | none => rfl
      | some call => rfl
    simp only [transformBlocks]
    rw [hsplit]
    constructor
    · rw [filterMap_append, map_append, hcalls, hcalls', map_append]
    · rw [hids', hids, map_append, filter_append, reverse_append, append_assoc]

theorem transformMessage_ids (ids : IdMap) (m : Message) :
    (transformMessage model normalizeToolCallId ids m).2 =
      (renames model normalizeToolCallId m).reverse ++ ids := by
  cases m with
  | user m => rfl
  | assistant m => exact (transformBlocks_spec model normalizeToolCallId m ids m.content).2
  | toolResult m =>
    simp only [transformMessage]
    cases ids.get m.toolCallId with
    | none => rfl
    | some normalizedId =>
      simp only
      split_ifs
      · rfl
      · rfl

theorem transformMessage_answer (earlier : List Message) (m : ToolResultMessage) :
    (transformMessage model normalizeToolCallId
        (earlier.flatMap (renames model normalizeToolCallId)).reverse (.toolResult m)).1.source =
      .answer (answeredId model normalizeToolCallId earlier m.toolCallId) := by
  simp only [transformMessage, answeredId, IdMap.get]
  cases (earlier.flatMap (renames model normalizeToolCallId)).reverse.find?
    (·.1 = m.toolCallId) with
  | none => rfl
  | some entry =>
    simp only [Option.map_some]
    by_cases hempty : entry.2.isEmpty = true
    · simp [hempty, Message.source]
    · by_cases hid : entry.2 = m.toolCallId
      · simp [hid, Message.source]
      · simp [hempty, hid, Message.source]

theorem transformed_source (earlier messages : List Message) :
    (transformed model normalizeToolCallId
        (earlier.flatMap (renames model normalizeToolCallId)).reverse messages).map
      Message.source = outline model normalizeToolCallId earlier messages := by
  induction messages generalizing earlier with
  | nil => rfl
  | cons m rest ih =>
    have hids : (transformMessage model normalizeToolCallId
        (earlier.flatMap (renames model normalizeToolCallId)).reverse m).2 =
        ((earlier ++ [m]).flatMap (renames model normalizeToolCallId)).reverse := by
      rw [transformMessage_ids, flatMap_append, reverse_append, flatMap_singleton]
    simp only [transformed, map_cons, outline]
    rw [hids, ih]
    congr 1
    cases m with
    | user m => rfl
    | toolResult m => exact transformMessage_answer model normalizeToolCallId earlier m
    | assistant m =>
      have hcalls := (transformBlocks_spec model normalizeToolCallId m
        (earlier.flatMap (renames model normalizeToolCallId)).reverse m.content).1
      simp only [transformMessage, Message.source, AssistantMessage.skipped,
        AssistantMessage.toolCalls]
      rw [hcalls]
      rfl

/-- The history that is sent is well formed exactly when, under the ids that are sent, every
result of the input stands directly behind a reply that is sent and has a call there, no call
has a second result, a call without a result shares its id with no other call of its reply,
and behind the last message nothing is missing. -/
theorem wellFormed_iff_mendable (now : Instant) (messages : List Message) :
    WellFormed (transformMessages now messages model normalizeToolCallId) ↔
      AllMendable (sections (outline model normalizeToolCallId [] messages)) := by
  rw [WellFormed, transformMessages, repaired_entries]
  have hsource := transformed_source model normalizeToolCallId [] messages
  rw [flatMap_nil, reverse_nil] at hsource
  rw [hsource, paired_mend]

end Ids

/-- A model and a reply of it that calls one tool. -/
def gpt : Model := ⟨js "gpt-4o", js "openai-completions", js "openai"⟩

def callingReply (id : JsString) : AssistantMessage :=
  { content := [.toolCall { id := id, name := js "read", arguments := js "{}" }]
    api := gpt.api
    provider := gpt.provider
    model := gpt.id
    stopReason := .toolUse
    timestamp := 1 }

/-- The history of a session that stopped during its tool calls. -/
def interrupted : List Message :=
  [.user ⟨[.text (js "read it")], 0⟩, .assistant (callingReply (js "call_1"))]

/-- A history that ends with tool calls is sent as it is, with the calls unanswered. -/
theorem interrupted_dangling :
    transformMessages 5 interrupted gpt none = interrupted ∧
      ¬ WellFormed (transformMessages 5 interrupted gpt none) := by
  decide

/-- With a user message behind it the missing result is supplied. -/
example : WellFormed (transformMessages 5 (interrupted ++ [.user ⟨[], 2⟩]) gpt none) := by
  decide

end CrabbyKit.Providers
