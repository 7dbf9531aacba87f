import Mathlib.Data.Rat.Floor
import CrabbyKit.Core.JsonString
import CrabbyKit.Session.Types

/-!
# The compaction engine

`compaction/compaction.ts`: token estimates, the threshold, the cut point, the split
into chunks and the staged summary. Ratios are exact rationals; the summariser is an
argument that may throw.
-/

namespace CrabbyKit.Compaction

/-- The characters that make a text look like code. -/
def codeIndicators : List Char :=
  ['\x7b', '\x7d', '[', ']', '(', ')', ';', '=', '>', '<', '|', '&', '!', '~', '^', '%']

def jsonLike (text : String) : Bool :=
  text.toList.head? = some '\x7b' || text.toList.head? = some '['

/-- Twice the characters one token takes: 2.5 for JSON, 3 for code, 3.5 for prose. -/
def twiceCharsPerToken (text : String) : Nat :=
  if jsonLike text then 5 else if text.toList.any (codeIndicators.contains ·) then 6 else 7

def estimateTextTokens (text : String) : Nat :=
  if textLength text = 0 then 0
  else (2 * textLength text + twiceCharsPerToken text - 1) / twiceCharsPerToken text

def messageOverheadTokens : Nat := 5

def blockTokens : ContentBlock → Nat
  | .text text => estimateTextTokens text
  | .toolCall _ _ arguments => estimateTextTokens arguments + 5
  | .image _ _ => 0
  | .thinking _ => 0

def contentTokens : Content → Nat
  | .plain text => estimateTextTokens text
  | .blocks blocks => (blocks.map blockTokens).sum

def estimateTokens (message : AgentMessage) : Nat :=
  ((messageOverheadTokens + contentTokens message.content) * 23 + 19) / 20

def estimateMessagesTokens (messages : List AgentMessage) : Nat :=
  (messages.map estimateTokens).sum

/-- `CompactionConfig` with its optional ratios. -/
structure CompactionConfig where
  threshold : ℚ
  contextWindowTokens : Nat
  keepRecentTokens : Nat
  baseChunkRatio : Option ℚ := none
  minChunkRatio : Option ℚ := none

def defaultBaseChunkRatio : ℚ := 2 / 5

def defaultMinChunkRatio : ℚ := 3 / 20

/-- Whether an estimate exceeds the configured share of the context window. -/
def shouldCompact (estimatedTokens : Nat) (config : CompactionConfig) : Bool :=
  decide (config.threshold * config.contextWindowTokens < estimatedTokens)

/-- Where a message list is cut: the messages before `cutIndex` are compacted. -/
structure CutPoint where
  cutIndex : Nat
  recentTokens : Nat
  deriving DecidableEq, Repr

/-- The backward loop of `findCutPoint` over the messages below an index. -/
def findCutFrom (messages : List AgentMessage) (keepRecentTokens : Nat) :
    Nat → Nat → Option CutPoint
  | 0, _ => none
  | i + 1, accumulated =>
    let accumulated := accumulated + (messages[i]?.map estimateTokens).getD 0
    if keepRecentTokens ≤ accumulated then
      if i = 0 then none else some ⟨i, accumulated⟩
    else findCutFrom messages keepRecentTokens i accumulated

/-- Walk back from the end until the recent messages reach the budget. -/
def findCutPoint (messages : List AgentMessage) (keepRecentTokens : Nat) : Option CutPoint :=
  findCutFrom messages keepRecentTokens messages.length 0

/-- The state of the loop of `splitByTokenShare`. -/
structure ChunkState where
  chunks : List (List AgentMessage) := []
  currentChunk : List AgentMessage := []
  currentTokens : Nat := 0

/-- Whether a chunk of so many tokens has its share; `none` stands for `Infinity`
chunks, whose share is zero. -/
def sharesOut (totalTokens currentTokens : Nat) : Option Nat → Bool
  | none => true
  | some numChunks => decide (totalTokens ≤ currentTokens * numChunks)

/-- Whether another chunk may be closed before the last one. -/
def chunksLeft (closed : Nat) : Option Nat → Bool
  | none => true
  | some numChunks => decide (closed < numChunks - 1)

/-- One round of `splitByTokenShare`: take a message and close the chunk at its share. -/
def pushMessage (totalTokens : Nat) (numChunks : Option Nat) (s : ChunkState)
    (message : AgentMessage) : ChunkState :=
  let currentChunk := s.currentChunk ++ [message]
  let currentTokens := s.currentTokens + estimateTokens message
  if sharesOut totalTokens currentTokens numChunks && chunksLeft s.chunks.length numChunks then
    { chunks := s.chunks ++ [currentChunk] }
  else { s with currentChunk := currentChunk, currentTokens := currentTokens }

def splitByTokenShare (messages : List AgentMessage) (numChunks : Option Nat) :
    List (List AgentMessage) :=
  if numChunks = some 0 ∨ numChunks = some 1 then [messages]
  else
    let totalTokens := estimateMessagesTokens messages
    let s := messages.foldl (pushMessage totalTokens numChunks) {}
    if s.currentChunk.isEmpty then s.chunks else s.chunks ++ [s.currentChunk]

/-- A summariser: messages and the previous summary to a summary, or a thrown text. -/
abbrev SummarizeFn := List AgentMessage → Option String → Except String String

/-- The share of the context window one chunk may take. -/
def chunkRatio (config : CompactionConfig) (totalTokens : Nat) : ℚ :=
  let windowShare : ℚ :=
    if totalTokens = 0 then 1 else config.contextWindowTokens / (totalTokens * 2)
  max (config.minChunkRatio.getD defaultMinChunkRatio)
    (config.baseChunkRatio.getD defaultBaseChunkRatio * min 1 windowShare)

def maxChunkTokens (config : CompactionConfig) (totalTokens : Nat) : Int :=
  ⌊config.contextWindowTokens * chunkRatio config totalTokens⌋

/-- The number of chunks, at least one; `none` stands for the `Infinity` that a chunk
budget of zero gives. -/
def numChunks (config : CompactionConfig) (totalTokens : Nat) : Option Nat :=
  let budget := maxChunkTokens config totalTokens
  if budget = 0 then none else some (max 1 ⌈(totalTokens : ℚ) / budget⌉.toNat)

/-- Summarise the chunks one after the other, each with the previous summary. -/
def summarizeChunks (summarize : SummarizeFn) :
    List (List AgentMessage) → Option String → Except String (List String)
  | [], _ => .ok []
  | chunk :: rest, previousSummary => do
    let summary ← summarize chunk previousSummary
    let later ← summarizeChunks summarize rest (some summary)
    return summary :: later

def mergeMessage (total : Nat) (now : Instant) (i : Nat) (summary : String) : AgentMessage :=
  { role := .user
    content := .plain s!"[Summary part {i + 1}/{total}]\n\n{summary}"
    timestamp := now }

/-- Summarise in stages: one call for a single chunk, else one per chunk and a merge. -/
def summarizeInStages (messages : List AgentMessage) (config : CompactionConfig)
    (summarize : SummarizeFn) (now : Instant) : Except String String :=
  match splitByTokenShare messages (numChunks config (estimateMessagesTokens messages)) with
  | [chunk] => summarize chunk none
  | chunks => do
    let partialSummaries ← summarizeChunks summarize chunks none
    summarize (partialSummaries.mapIdx (mergeMessage partialSummaries.length now)) none

/-- The loop of `emergencyTruncate`. -/
def keepNewest (budget : Nat) : Nat → List AgentMessage → List AgentMessage → List AgentMessage
  | _, [], kept => kept
  | tokens, message :: older, kept =>
    if budget < tokens + estimateTokens message then kept
    else keepNewest budget (tokens + estimateTokens message) older (message :: kept)

def emergencyTruncate (messages : List AgentMessage) (contextWindowTokens : Nat) (now : Instant) :
    List AgentMessage :=
  { role := .user
    content := .plain ("[System notice: Earlier conversation context was lost due to context " ++
      "window overflow. The conversation continues from the most recent messages below.]")
    timestamp := now } :: keepNewest (contextWindowTokens / 2) 0 messages.reverse []

/-- What a compaction yields; the id list may be too short for the cut. -/
structure CompactionResult where
  summary : String
  firstKeptEntryId : Option String
  tokensBefore : Nat
  deriving DecidableEq, Repr

/-- Threshold check, cut point, summary, result. -/
def compactSession (messages : List AgentMessage) (entryIds : List String)
    (config : CompactionConfig) (summarize : SummarizeFn) (now : Instant) :
    Except String (Option CompactionResult) :=
  let totalTokens := estimateMessagesTokens messages
  if !shouldCompact totalTokens config then .ok none
  else
    match findCutPoint messages config.keepRecentTokens with
    | none => .ok none
    | some cut => do
      let summary ← summarizeInStages (messages.take cut.cutIndex) config summarize now
      return some ⟨summary, entryIds[cut.cutIndex]?, totalTokens⟩

variable {messages : List AgentMessage}

variable {keepRecentTokens : Nat}

theorem findCutFrom_bound {i accumulated : Nat}
    {cut : CutPoint} (h : findCutFrom messages keepRecentTokens i accumulated = some cut) :
    0 < cut.cutIndex ∧ cut.cutIndex < i := by
  induction i generalizing accumulated with
  | zero => cases h
  | succ i ih =>
    rw [findCutFrom] at h
    split_ifs at h with hkeep hi
    · cases h
      exact ⟨Nat.pos_of_ne_zero hi, Nat.lt_succ_self i⟩
    · have hrest := ih h
      omega

theorem findCutPoint_bound
    {cut : CutPoint} (h : findCutPoint messages keepRecentTokens = some cut) :
    0 < cut.cutIndex ∧ cut.cutIndex < messages.length :=
  findCutFrom_bound h

variable {config : CompactionConfig} {summarize : SummarizeFn}

theorem compactSession_ok {entryIds : List String} {now : Instant} {result : CompactionResult}
    (h : compactSession messages entryIds config summarize now = .ok (some result)) :
    ∃ cut, findCutPoint messages config.keepRecentTokens = some cut ∧
      result.firstKeptEntryId = entryIds[cut.cutIndex]? ∧
      summarizeInStages (messages.take cut.cutIndex) config summarize now = .ok result.summary := by
  unfold compactSession at h
  simp only at h
  split_ifs at h with hshould
  · cases h
  · cases hcut : findCutPoint messages config.keepRecentTokens with
    | none =>
      rw [hcut] at h
      cases h
    | some cut =>
      rw [hcut] at h
      simp only at h
      cases hs : summarizeInStages (messages.take cut.cutIndex) config summarize now with
      | error e =>
        rw [hs] at h
        cases h
      | ok summary =>
        rw [hs] at h
        cases h
        exact ⟨cut, rfl, rfl, hs⟩

theorem summarizeInStages_ok {now : Instant} {summary : String}
    (h : summarizeInStages messages config summarize now = .ok summary) :
    ∃ asked previous, summarize asked previous = .ok summary := by
  unfold summarizeInStages at h
  generalize splitByTokenShare messages (numChunks config (estimateMessagesTokens messages)) =
    chunks at h
  split at h
  · exact ⟨_, _, h⟩
  · cases hp : summarizeChunks summarize chunks none with
    | error e =>
      rw [hp] at h
      cases h
    | ok parts =>
      rw [hp] at h
      exact ⟨_, _, h⟩

end CrabbyKit.Compaction
