import CrabbyKit.Compaction.Engine

/-!
# The calls of a staged summary

`summarizeInStages` with a summariser that acts on a world `σ` and a signal that may be
raised in it, and what the summariser is asked: the chunks of the first stage, in order and
each with the summary before it, then the merge of all partial summaries.
-/

namespace CrabbyKit.Compaction

open List

variable {σ : Type}

/-- A summariser with an effect. -/
abbrev Summarizer (σ : Type) :=
  List AgentMessage → Option String → σ → Except String String × σ

/-- The loop over the chunks: `aborted` is the reason of a raised signal. -/
def summarizeChunksIn (aborted : σ → Option String) (summarize : Summarizer σ) :
    List (List AgentMessage) → Option String → σ → Except String (List String) × σ
  | [], _, world => (.ok [], world)
  | chunk :: rest, previousSummary, world =>
    match aborted world with
    | some reason => (.error reason, world)
    | none =>
      match summarize chunk previousSummary world with
      | (.error e, world) => (.error e, world)
      | (.ok summary, world) =>
        match summarizeChunksIn aborted summarize rest (some summary) world with
        | (.error e, world) => (.error e, world)
        | (.ok later, world) => (.ok (summary :: later), world)

/-- `summarizeInStages` over a world. -/
def summarizeInStagesIn (messages : List AgentMessage) (config : CompactionConfig)
    (aborted : σ → Option String) (summarize : Summarizer σ) (now : Instant) (world : σ) :
    Except String String × σ :=
  match splitByTokenShare messages (numChunks config (estimateMessagesTokens messages)) with
  | [chunk] => summarize chunk none world
  | chunks =>
    match summarizeChunksIn aborted summarize chunks none world with
    | (.error e, world) => (.error e, world)
    | (.ok partialSummaries, world) =>
      summarize (partialSummaries.mapIdx (mergeMessage partialSummaries.length now)) none world

structure SummaryCall where
  asked : List AgentMessage
  previousSummary : Option String
  answer : Except String String

/-- A summariser that writes down its calls. -/
def recorded (summarize : Summarizer σ) : Summarizer (σ × List SummaryCall) :=
  fun asked previous world =>
    let (answer, after) := summarize asked previous world.1
    (answer, (after, world.2 ++ [⟨asked, previous, answer⟩]))

def stagedCalls (messages : List AgentMessage) (config : CompactionConfig)
    (aborted : σ → Option String) (summarize : Summarizer σ) (now : Instant) (world : σ) :
    Except String String × List SummaryCall :=
  let (answer, after) := summarizeInStagesIn messages config (fun w => aborted w.1)
    (recorded summarize) now (world, [])
  (answer, after.2)

/-- Each call but the first is given the summary that the call before it answered. -/
def Chained : Option String → List SummaryCall → Prop
  | _, [] => True
  | previous, call :: rest =>
    call.previousSummary = previous ∧
      (rest = [] ∨ ∃ summary, call.answer = .ok summary ∧ Chained (some summary) rest)

section Split

variable {messages : List AgentMessage} {total n : Nat}

/-- What the loop of `splitByTokenShare` keeps: nothing is lost or moved, no closed chunk is
empty, and room is left for the last one. -/
structure SplitSoFar (n : Nat) (seen : List AgentMessage) (s : ChunkState) : Prop where
  flatten : s.chunks.flatten ++ s.currentChunk = seen
  nonempty : ∀ chunk ∈ s.chunks, chunk ≠ []
  room : s.chunks.length ≤ n - 1

theorem SplitSoFar.push {seen : List AgentMessage} {s : ChunkState} (h : SplitSoFar n seen s)
    (message : AgentMessage) :
    SplitSoFar n (seen ++ [message]) (pushMessage total (some n) s message) := by
  obtain ⟨hflatten, hnonempty, hroom⟩ := h
  unfold pushMessage
  dsimp only
  split_ifs with hclose
  · rw [Bool.and_eq_true] at hclose
    have hleft : s.chunks.length < n - 1 := of_decide_eq_true hclose.2
    refine ⟨?_, ?_, ?_⟩
    · simp only [flatten_append, flatten_singleton, append_nil, ← hflatten, append_assoc]
    · intro chunk hchunk
      rcases mem_append.mp hchunk with hold | hnew
      · exact hnonempty chunk hold
      · rw [mem_singleton.mp hnew]
        exact append_ne_nil_of_right_ne_nil _ (cons_ne_nil _ _)
    · simp only [length_append, length_singleton]
      omega
  · refine ⟨?_, hnonempty, hroom⟩
    simp only [← hflatten, append_assoc]

theorem SplitSoFar.foldl {seen : List AgentMessage} {s : ChunkState} (h : SplitSoFar n seen s)
    (rest : List AgentMessage) :
    SplitSoFar n (seen ++ rest) (rest.foldl (pushMessage total (some n)) s) := by
  induction rest generalizing seen s with
  | nil => simpa only [append_nil, foldl_nil] using h
  | cons message rest ih =>
    have hnext : SplitSoFar n (seen ++ [message] ++ rest)
        (rest.foldl (pushMessage total (some n)) (pushMessage total (some n) s message)) :=
      ih (h.push message)
    rwa [append_assoc, singleton_append] at hnext

theorem splitByTokenShare_spec (hmessages : messages ≠ []) (hn : 1 ≤ n) :
    (∀ chunk ∈ splitByTokenShare messages (some n), chunk ≠ []) ∧
      (splitByTokenShare messages (some n)).length ≤ n ∧
      (splitByTokenShare messages (some n)).flatten = messages := by
  unfold splitByTokenShare
  split_ifs with hone
  · refine ⟨fun chunk hchunk => ?_, hn, by simp only [flatten_singleton]⟩
    rwa [mem_singleton.mp hchunk]
  · have hstart : SplitSoFar n [] {} := ⟨rfl, fun _ h => (not_mem_nil h).elim, Nat.zero_le _⟩
    have hend : SplitSoFar n ([] ++ messages)
        (messages.foldl (pushMessage (estimateMessagesTokens messages) (some n)) {}) :=
      hstart.foldl messages
    obtain ⟨hflatten, hnonempty, hroom⟩ := hend
    rw [nil_append] at hflatten
    dsimp only
    split_ifs with hempty
    · refine ⟨hnonempty, by omega, ?_⟩
      rwa [List.isEmpty_iff.mp hempty, append_nil] at hflatten
    · refine ⟨?_, ?_, ?_⟩
      · intro chunk hchunk
        rcases mem_append.mp hchunk with hold | hnew
        · exact hnonempty chunk hold
        · rw [mem_singleton.mp hnew]
          exact fun hnil => hempty (List.isEmpty_iff.mpr hnil)
      · simp only [length_append, length_singleton]
        omega
      · simp only [flatten_append, flatten_singleton]
        exact hflatten

theorem exists_numChunks {config : CompactionConfig} (h : 0 < maxChunkTokens config total) :
    ∃ n, numChunks config total = some n ∧ 1 ≤ n := by
  simp only [numChunks, if_neg h.ne']
  exact ⟨_, rfl, Nat.le_max_left _ _⟩

end Split

section Calls

variable {aborted : σ → Option String} {summarize : Summarizer σ}

theorem summarizeChunksIn_calls (chunks : List (List AgentMessage)) (previous : Option String)
    (world : σ) (before : List SummaryCall) :
    ∃ calls, (summarizeChunksIn (fun w : σ × List SummaryCall => aborted w.1)
        (recorded summarize) chunks previous (world, before)).2.2 = before ++ calls ∧
      calls.map SummaryCall.asked <+: chunks ∧ Chained previous calls ∧
      ∀ summaries, (summarizeChunksIn (fun w : σ × List SummaryCall => aborted w.1)
          (recorded summarize) chunks previous (world, before)).1 = .ok summaries →
        calls.map SummaryCall.asked = chunks ∧
          calls.map SummaryCall.answer = summaries.map Except.ok := by
  induction chunks generalizing previous world before with
  | nil =>
    refine ⟨[], (append_nil _).symm, nil_prefix, trivial, fun summaries h => ?_⟩
    cases h
    exact ⟨rfl, rfl⟩
  | cons chunk rest ih =>
    simp only [summarizeChunksIn]
    cases aborted world with
    | some reason =>
      refine ⟨[], (append_nil _).symm, nil_prefix, trivial, fun summaries h => ?_⟩
      cases h
    | none =>
      simp only [recorded]
      cases (summarize chunk previous world).1 with
      | error e =>
        refine ⟨[⟨chunk, previous, .error e⟩], rfl, ?_, ⟨rfl, .inl rfl⟩, fun summaries h => ?_⟩
        · exact cons_prefix_cons.mpr ⟨rfl, nil_prefix⟩
        · cases h
      | ok summary =>
        have hlater := ih (some summary) (summarize chunk previous world).2
          (before ++ [⟨chunk, previous, .ok summary⟩])
        dsimp only
        -- the rest of the loop, whatever it comes to
        generalize summarizeChunksIn (fun w : σ × List SummaryCall => aborted w.1)
          (recorded summarize) rest (some summary)
            ((summarize chunk previous world).2, before ++ [⟨chunk, previous, .ok summary⟩]) =
              later at hlater ⊢
        obtain ⟨outcome, after⟩ := later
        obtain ⟨calls, hcalls, hprefix, hchained, hdone⟩ := hlater
        rw [append_assoc, singleton_append] at hcalls
        have hfirst : (⟨chunk, previous, .ok summary⟩ :: calls : List SummaryCall).map
            SummaryCall.asked <+: chunk :: rest := cons_prefix_cons.mpr ⟨rfl, hprefix⟩
        refine ⟨⟨chunk, previous, .ok summary⟩ :: calls, ?_, hfirst,
          ⟨rfl, .inr ⟨summary, rfl, hchained⟩⟩, fun summaries h => ?_⟩
        · cases outcome <;> exact hcalls
        · cases outcome with
          | error e => cases h
          | ok partialSummaries =>
            cases h
            obtain ⟨hasked, hanswers⟩ := hdone partialSummaries rfl
            exact ⟨congrArg (chunk :: ·) hasked, congrArg (Except.ok summary :: ·) hanswers⟩

/-- The calls of a staged summary of `chunks`, in two stages. -/
structure TwoStages (chunks : List (List AgentMessage)) (now : Instant)
    (answer : Except String String) (first final : List SummaryCall) : Prop where
  /-- The chunks are asked for in order, up to an error or an abort. -/
  inOrder : first.map SummaryCall.asked <+: chunks
  /-- Each is given the summary of the chunk before it. -/
  chained : Chained none first
  /-- A final call merges the summaries of all chunks, in order. -/
  merged : final = [] ∨ ∃ summaries : List String, first.map SummaryCall.asked = chunks ∧
    first.map SummaryCall.answer = summaries.map Except.ok ∧
    final = [⟨summaries.mapIdx (mergeMessage summaries.length now), none, answer⟩]
  /-- A summary comes from a final call. -/
  answered : ∀ summary, answer = .ok summary → final ≠ []

/-- A staged summary covers the messages once: non-empty chunks, at most `numChunks` of them,
that are the messages in order. A single one is summarised in one call; several are summarised
one after the other and then merged. -/
def CoversOnce (messages : List AgentMessage) (config : CompactionConfig)
    (aborted : σ → Option String) (summarize : Summarizer σ) (now : Instant) (world : σ) : Prop :=
  ∃ (n : Nat) (chunks : List (List AgentMessage)),
    numChunks config (estimateMessagesTokens messages) = some n ∧ chunks.length ≤ n ∧
    (∀ chunk ∈ chunks, chunk ≠ []) ∧ chunks.flatten = messages ∧
    ((chunks.length = 1 ∧ (stagedCalls messages config aborted summarize now world).2 =
        [⟨messages, none, (stagedCalls messages config aborted summarize now world).1⟩]) ∨
      (1 < chunks.length ∧ ∃ first final,
        (stagedCalls messages config aborted summarize now world).2 = first ++ final ∧
        TwoStages chunks now (stagedCalls messages config aborted summarize now world).1
          first final))

end Calls

/-- A window in which a chunk takes eight tokens. -/
def smallChunks : CompactionConfig where
  threshold := 1
  contextWindowTokens := 20
  keepRecentTokens := 1
  baseChunkRatio := some (2 / 5)
  minChunkRatio := some (2 / 5)

def twoShort : List AgentMessage :=
  [ { role := .user, content := .plain "one", timestamp := 1 },
    { role := .assistant, content := .plain "two", timestamp := 2 } ]

theorem maxChunkTokens_smallChunks :
    maxChunkTokens smallChunks (estimateMessagesTokens twoShort) = 8 := by
  have htokens : estimateMessagesTokens twoShort = 14 := by decide
  rw [htokens]
  norm_num [maxChunkTokens, chunkRatio, smallChunks]

end CrabbyKit.Compaction
