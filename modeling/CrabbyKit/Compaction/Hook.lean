import CrabbyKit.Compaction.Engine
import CrabbyKit.Session.Context

/-!
# The compaction-summary capability

The `beforeInference` hook of `compaction-summary` with the pruning of tool outputs and
the LLM summariser it uses. The model provider is the parameter `AiModule`.
-/

namespace CrabbyKit.Compaction

open SessionStore

/-- The text pruned tool output is replaced by. -/
def prunedMarker : String := "[pruned]"

def pruneTextTokens (text : String) : Nat := (2 * textLength text + 6) / 7

def isToolResult (message : AgentMessage) : Bool := message.role = .toolResult

def getToolResultTokens (message : AgentMessage) : Nat :=
  match message.content with
  | .plain text => pruneTextTokens text
  | .blocks blocks =>
    (blocks.map fun b => match b with
      | .text text => pruneTextTokens text
      | _ => 0).sum

def pruneBlock : ContentBlock → ContentBlock
  | .text _ => .text prunedMarker
  | b => b

def pruneMessage (message : AgentMessage) : AgentMessage :=
  { message with
    content := match message.content with
      | .plain _ => .plain prunedMarker
      | .blocks blocks => .blocks (blocks.map pruneBlock) }

/-- The tool results of a list with their indices and tokens, newest first. -/
def toolIndices (messages : List AgentMessage) : List (Nat × Nat) :=
  (messages.zipIdx.reverse.filter fun p => isToolResult p.1).map fun p =>
    (p.2, getToolResultTokens p.1)

/-- The indices whose tokens still fit into the budget when their turn comes. -/
def keepSet : List (Nat × Nat) → Nat → List Nat
  | [], _ => []
  | (index, tokens) :: rest, remaining =>
    if tokens ≤ remaining then index :: keepSet rest (remaining - tokens)
    else keepSet rest remaining

/-- Replace the text of tool results past the budget, newest results first. -/
def pruneToolOutputs (messages : List AgentMessage) (budgetTokens : Nat) : List AgentMessage :=
  let kept := keepSet (toolIndices messages) budgetTokens
  messages.mapIdx fun i msg =>
    if isToolResult msg && !kept.contains i then pruneMessage msg else msg

@[simp] theorem length_pruneToolOutputs (messages : List AgentMessage) (budgetTokens : Nat) :
    (pruneToolOutputs messages budgetTokens).length = messages.length := by
  simp [pruneToolOutputs]

inductive StreamEvent
  | done (content : Option (List ContentBlock))
  | error (errorMessage message : Option String)
  | other
  deriving DecidableEq, Repr

def blockText : ContentBlock → Option String
  | .text text => some text
  | _ => none

def collectStreamText : List StreamEvent → Except String String
  | [] => .ok "No summary generated."
  | .done content :: _ =>
    let finalText := match content with
      | some blocks => "\n".intercalate (blocks.filterMap blockText)
      | none => ""
    .ok (if finalText = "" then "No summary generated." else finalText)
  | .error errorMessage message :: _ =>
    let errorMsg := (errorMessage.orElse fun _ => message).getD "Summarization failed"
    .error s!"Summarization error: {errorMsg}"
  | .other :: rest => collectStreamText rest

def roleText : Role → String
  | .user => "USER"
  | .assistant => "ASSISTANT"
  | .toolResult => "TOOLRESULT"

def messagesToText (messages : List AgentMessage) : String :=
  "\n".intercalate <| messages.map fun m =>
    let text := match m.content with
      | .plain text => text
      | .blocks blocks => " ".intercalate (blocks.filterMap blockText)
    s!"{roleText m.role}: {text}"

def identifierPreservationInstructions : String :=
  "\n".intercalate
    ["CRITICAL: You MUST preserve ALL opaque identifiers exactly as they appear. This includes:",
      "- UUIDs (e.g., a1b2c3d4-e5f6-7890-abcd-ef1234567890)",
      "- Hashes (e.g., sha256:abc123, commit hashes)",
      "- Authentication tokens and API keys (preserve the format, not necessarily full value)",
      "- URLs (full URLs including paths and query parameters)",
      "- IP addresses and ports (e.g., 192.168.1.1:8080)",
      "- File paths (e.g., /workspace/src/agent/tools/file-read.ts)",
      "- Database IDs and record identifiers",
      "- Tool call IDs (e.g., call_abc123)",
      "- Session IDs and correlation IDs",
      "",
      "Do NOT paraphrase, abbreviate, or generalize these identifiers. Copy them exactly."]

def buildSummarizationPrompt (previousSummary : Option String) : String :=
  let parts :=
    ["You are summarizing a conversation to maintain context while reducing token count.",
      "",
      identifierPreservationInstructions,
      "",
      "Focus on:",
      "- Active tasks and their current status",
      "- Decisions made and their rationale",
      "- Pending work, TODOs, and commitments",
      "- Key facts and context needed for future turns",
      "- Tool execution results and their outcomes",
      "",
      "Omit:",
      "- Pleasantries and conversational filler",
      "- Redundant information already captured",
      "- Superseded decisions (only keep the latest)",
      "",
      "Write the summary as a dense, factual record. Use bullet points for clarity."]
  "\n".intercalate <| parts ++ match truthy previousSummary with
    | none => []
    | some summary =>
      ["", "Previous summary (for continuity — integrate and extend, don't repeat):", summary]

/-- The model provider: which models exist, and the stream a request is answered by. -/
structure AiModule where
  getModel : String → String → Bool
  streamSimple : (provider modelId systemPrompt content : String) → Except String (List StreamEvent)

def createLlmSummarizer (ai : AiModule) (provider modelId : String) : SummarizeFn :=
  fun messages previousSummary =>
    if !ai.getModel provider modelId then
      .error s!"Summarization model not found: {provider}/{modelId}"
    else do
      let stream ← ai.streamSimple provider modelId (buildSummarizationPrompt previousSummary)
        s!"Please summarize this conversation:\n\n{messagesToText messages}"
      collectStreamText stream

theorem collectStreamText_ne {stream : List StreamEvent} {text : String}
    (h : collectStreamText stream = .ok text) : text ≠ "" := by
  induction stream with
  | nil =>
    cases h
    decide
  | cons event rest ih =>
    cases event with
    | done content =>
      simp only [collectStreamText, Except.ok.injEq] at h
      subst h
      split_ifs with hempty
      · decide
      · exact hempty
    | error errorMessage message => cases h
    | other => exact ih h

theorem createLlmSummarizer_ne {ai : AiModule} {provider modelId : String}
    {messages : List AgentMessage} {previous : Option String} {summary : String}
    (h : createLlmSummarizer ai provider modelId messages previous = .ok summary) :
    summary ≠ "" := by
  unfold createLlmSummarizer at h
  split_ifs at h with hmodel
  cases hs : ai.streamSimple provider modelId (buildSummarizationPrompt previous)
      s!"Please summarize this conversation:\n\n{messagesToText messages}" with
  | error e =>
    rw [hs] at h
    cases h
  | ok stream =>
    rw [hs] at h
    exact collectStreamText_ne h

/-- Options of the capability; absent fields take the defaults. -/
structure CompactionSummaryOptions where
  provider : String
  modelId : String
  threshold : Option ℚ := none
  contextWindowTokens : Option Nat := none
  keepRecentTokens : Option Nat := none
  baseChunkRatio : Option ℚ := none
  minChunkRatio : Option ℚ := none
  pruneBudget : Option Nat := none

namespace CompactionSummaryOptions

def defaultCompactionThreshold : ℚ := 3 / 4

def defaultContextWindowTokens : Nat := 200000

def defaultKeepRecentTokens : Nat := 20000

def defaultPruneBudget : Nat := 40000

/-- The configuration the hook runs with. -/
def config (options : CompactionSummaryOptions) : CompactionConfig where
  threshold := options.threshold.getD defaultCompactionThreshold
  contextWindowTokens := options.contextWindowTokens.getD defaultContextWindowTokens
  keepRecentTokens := options.keepRecentTokens.getD defaultKeepRecentTokens
  baseChunkRatio := options.baseChunkRatio
  minChunkRatio := options.minChunkRatio

/-- The list the hook hands to the engine: its messages with old tool output pruned. -/
def messagesToCompact (options : CompactionSummaryOptions) (messages : List AgentMessage) :
    List AgentMessage :=
  pruneToolOutputs messages (options.pruneBudget.getD defaultPruneBudget)

end CompactionSummaryOptions

def messageEntryIds (st : SessionStore) (sessionId : String) : List String :=
  ((st.getEntries sessionId).filter SessionEntry.isMessage).map SessionEntry.id

/-- The `beforeInference` hook: the store it leaves and the messages it returns. Errors
of the summariser and of the store return the original messages. -/
def beforeInference (ai : AiModule) (options : CompactionSummaryOptions) (st : SessionStore)
    (sessionId : String) (messages : List AgentMessage) (nanoid : String) (now : Instant) :
    SessionStore × List AgentMessage :=
  if !shouldCompact (estimateMessagesTokens messages) options.config then (st, messages)
  else
    let pruned := options.messagesToCompact messages
    if !shouldCompact (estimateMessagesTokens pruned) options.config then (st, pruned)
    else
      let summarize := createLlmSummarizer ai options.provider options.modelId
      match compactSession pruned (messageEntryIds st sessionId) options.config summarize now with
      | .error _ => (st, messages)
      | .ok none => (st, messages)
      | .ok (some result) =>
        let data : CompactionEntryData :=
          ⟨result.summary, result.firstKeptEntryId, result.tokensBefore⟩
        match st.appendEntry sessionId (.compaction data) nanoid now with
        | .error _ => (st, messages)
        | .ok (st', _) =>
          match st'.buildContext sessionId now with
          | .error _ => (st', messages)
          | .ok context => (st', context)

/-- The hook compacted: it cut its messages at `cutIndex` and appended `entry` with `data`. -/
structure Compacted (ai : AiModule) (options : CompactionSummaryOptions) (st : SessionStore)
    (sessionId : String) (messages : List AgentMessage) (nanoid : String) (now : Instant)
    (cutIndex : Nat) (data : CompactionEntryData) (st' : SessionStore) : Prop where
  /-- The store the hook leaves. -/
  hook : (beforeInference ai options st sessionId messages nanoid now).1 = st'
  /-- The chosen cut. -/
  cut : (findCutPoint (options.messagesToCompact messages) options.config.keepRecentTokens).map
    CutPoint.cutIndex = some cutIndex
  /-- The compaction entry it appended. -/
  append : (st.appendEntry sessionId (.compaction data) nanoid now).map Prod.fst = .ok st'

theorem beforeInference_cases (ai : AiModule) (options : CompactionSummaryOptions)
    (st : SessionStore) (sessionId : String) (messages : List AgentMessage) (nanoid : String)
    (now : Instant) :
    (beforeInference ai options st sessionId messages nanoid now).1 = st ∨
      ∃ cut data st' e,
        findCutPoint (options.messagesToCompact messages) options.config.keepRecentTokens =
          some cut ∧
        data.summary ≠ "" ∧ data.firstKeptEntryId = (messageEntryIds st sessionId)[cut.cutIndex]? ∧
        st.appendEntry sessionId (.compaction data) nanoid now = .ok (st', e) ∧
        (beforeInference ai options st sessionId messages nanoid now).1 = st' := by
  unfold beforeInference
  simp only
  split_ifs with hall hpruned
  · exact .inl rfl
  · exact .inl rfl
  · cases hc : compactSession (options.messagesToCompact messages) (messageEntryIds st sessionId)
      options.config (createLlmSummarizer ai options.provider options.modelId) now with
    | error e => exact .inl rfl
    | ok found =>
      cases found with
      | none => exact .inl rfl
      | some result =>
        obtain ⟨cut, hcut, hkept, hsummary⟩ := compactSession_ok hc
        obtain ⟨asked, previous, hasked⟩ := summarizeInStages_ok hsummary
        have hne : result.summary ≠ "" := createLlmSummarizer_ne hasked
        simp only
        cases ha : st.appendEntry sessionId
            (.compaction ⟨result.summary, result.firstKeptEntryId, result.tokensBefore⟩)
            nanoid now with
        | error e => exact .inl rfl
        | ok p =>
          obtain ⟨st', e⟩ := p
          refine .inr ⟨cut, _, st', e, hcut, hne, hkept, ha, ?_⟩
          simp only
          cases st'.buildContext sessionId now with
          | error e => rfl
          | ok context => rfl

end CrabbyKit.Compaction
