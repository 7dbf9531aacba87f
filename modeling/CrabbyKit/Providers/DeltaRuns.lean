import CrabbyKit.Providers.Completions
import Mathlib.Data.List.Perm.Basic

/-!
# Runs of tool call deltas

The chunk loop ends a tool call where another block begins, and goes by the ids of the deltas
alone. So it makes one call out of each run of deltas, whichever calls they belong to.
-/

namespace CrabbyKit.Completions

open List Option

/-- What a run of deltas adds up to. -/
structure Run where
  id : String
  name : String
  arguments : String
  deriving DecidableEq, Repr

def Run.add (run : Run) (tc : ToolCallDelta) : Run :=
  ⟨if tc.id ≠ "" then tc.id else run.id, if tc.name ≠ "" then tc.name else run.name,
    run.arguments ++ tc.arguments⟩

def openRun (tc : ToolCallDelta) : Run := ⟨tc.id, tc.name, tc.arguments⟩

def runStep (current : Option Run) : Piece → List Run × Option Run
  | .text _ => (current.toList, none)
  | .thinking _ _ => (current.toList, none)
  | .call tc => match current with
    | none => ([], some (openRun tc))
    | some run =>
      if tc.id ≠ "" ∧ run.id ≠ tc.id then ([run], some (openRun tc)) else ([], some (run.add tc))

def runsFrom : Option Run → List Piece → List Run
  | current, [] => current.toList
  | current, piece :: rest =>
    (runStep current piece).1 ++ runsFrom (runStep current piece).2 rest

/-- The id, the name and the arguments of a tool call. -/
def Block.call : Block → Option (String × String × Json)
  | .toolCall id name arguments _ _ => some (id, name, arguments)
  | _ => none

/-- What an open tool call has gathered. -/
def Block.gathered : Block → Option Run
  | .toolCall id name _ partialArgs _ => some ⟨id, name, partialArgs.getD ""⟩
  | _ => none

def Block.textOf : Block → String
  | .text content => content
  | _ => ""

def Block.thinkingOf : Block → String
  | .thinking content _ => content
  | _ => ""

def Piece.textOf : Piece → String
  | .text content => content
  | _ => ""

def Piece.thinkingOf : Piece → String
  | .thinking _ delta => delta
  | _ => ""

section Blocks

variable (parse : String → Json)

def Run.call (run : Run) : String × String × Json := (run.id, run.name, parse run.arguments)

/-- The closed calls are runs, and the open one is the current run. -/
structure Holds (output : Output) (runs : List Run × Option Run) (text thinking : String) :
    Prop where
  closed : output.blocks.filterMap Block.call = runs.1.map (Run.call parse)
  opened : output.currentBlock.bind Block.gathered = runs.2
  text : String.join (output.content.map Block.textOf) = text
  thinking : String.join (output.content.map Block.thinkingOf) = thinking

variable {parse} {output : Output} {done : List Run} {current : Option Run} {run : Run}
  {text thinking : String}

theorem call_finish (block : Block) :
    (block.finish parse).call = block.gathered.map (Run.call parse) := by
  cases block with
  | _ => rfl

theorem Holds.finishCurrentBlock (h : Holds parse output (done, current) text thinking) :
    Holds parse (finishCurrentBlock parse output) (done ++ current.toList, none) text thinking := by
  have hopened := h.opened
  unfold Completions.finishCurrentBlock
  cases hblock : output.currentBlock with
  | none =>
    rw [hblock] at hopened
    obtain rfl : none = current := hopened
    refine ⟨?_, ?_, h.text, h.thinking⟩
    · rw [h.closed, toList_none, append_nil]
    · rw [hblock]
      rfl
  | some block =>
    rw [hblock] at hopened
    obtain rfl : block.gathered = current := hopened
    have htext : (block.finish parse).textOf = block.textOf := by
      cases block with
      | _ => rfl
    have hthinking : (block.finish parse).thinkingOf = block.thinkingOf := by
      cases block with
      | _ => rfl
    refine ⟨?_, rfl, ?_, ?_⟩
    · have hcall : [block.finish parse].filterMap Block.call =
          block.gathered.toList.map (Run.call parse) := by
        rw [filterMap_cons, call_finish]
        cases block.gathered with
        | _ => rfl
      rw [filterMap_append, h.closed, hcall, map_append]
    · rw [← h.text, Output.content, Output.content, hblock]
      simp only [toList_none, append_nil, toList_some, map_append, map_cons, map_nil, htext]
    · rw [← h.thinking, Output.content, Output.content, hblock]
      simp only [toList_none, append_nil, toList_some, map_append, map_cons, map_nil, hthinking]

theorem Holds.startBlock (h : Holds parse output (done, current) text thinking) (block : Block)
    (htext : block.textOf = "") (hthinking : block.thinkingOf = "") :
    Holds parse (startBlock parse block output) (done ++ current.toList, block.gathered) text
      thinking := by
  have hclosed := h.finishCurrentBlock
  have hnone : (Completions.finishCurrentBlock parse output).currentBlock = none := by
    unfold Completions.finishCurrentBlock
    cases hblock : output.currentBlock with
    | none => exact hblock
    | some old => rfl
  refine ⟨hclosed.closed, rfl, ?_, ?_⟩
  · have hcontent := hclosed.text
    rw [Output.content, hnone] at hcontent
    rw [← hcontent]
    simp only [Completions.startBlock, Output.content, toList_some, toList_none,
      append_nil, map_append, map_cons, map_nil, htext, String.join_append,
      String.join_cons, String.join_nil, String.append_empty]
  · have hcontent := hclosed.thinking
    rw [Output.content, hnone] at hcontent
    rw [← hcontent]
    simp only [Completions.startBlock, Output.content, toList_some, toList_none,
      append_nil, map_append, map_cons, map_nil, hthinking, String.join_append,
      String.join_cons, String.join_nil, String.append_empty]

theorem Holds.extendBlock (h : Holds parse output (done, current) text thinking) {block : Block}
    (hblock : output.currentBlock = some block) (f : Block → Block) (moreText moreThinking : String)
    (htext : (f block).textOf = block.textOf ++ moreText)
    (hthinking : (f block).thinkingOf = block.thinkingOf ++ moreThinking) (kind : BlockKind)
    (delta : String) :
    Holds parse (extendBlock f kind delta output) (done, (f block).gathered) (text ++ moreText)
      (thinking ++ moreThinking) := by
  have hcurrent : (Completions.extendBlock f kind delta output).currentBlock = some (f block) := by
    rw [Completions.extendBlock, hblock]
    rfl
  refine ⟨h.closed, ?_, ?_, ?_⟩
  · rw [hcurrent]
    rfl
  · rw [← h.text, Output.content, Output.content, hcurrent, hblock]
    simp only [Completions.extendBlock, toList_some, map_append, map_cons,
      map_nil, htext, String.join_append, String.join_cons, String.join_nil,
      String.append_empty, String.append_assoc]
  · rw [← h.thinking, Output.content, Output.content, hcurrent, hblock]
    simp only [Completions.extendBlock, toList_some, map_append, map_cons,
      map_nil, hthinking, String.join_append, String.join_cons, String.join_nil,
      String.append_empty, String.append_assoc]

theorem Holds.ensureBlock (h : Holds parse output (done, current) text thinking) (block : Block)
    (htext : block.textOf = "") (hthinking : block.thinkingOf = "")
    (hgathered : ∀ open' : Block, open'.kind = block.kind → open'.gathered = none) :
    Holds parse (ensureBlock parse block output) (done ++ current.toList, none) text thinking ∧
      ∃ open' : Block, (ensureBlock parse block output).currentBlock = some open' ∧
        open'.kind = block.kind := by
  unfold Completions.ensureBlock
  split
  next hkind =>
    obtain ⟨old, hold, hsame⟩ := map_eq_some_iff.mp hkind
    have hopened := h.opened
    rw [hold, bind_some, hgathered old hsame] at hopened
    obtain rfl : none = current := hopened
    exact ⟨(append_nil done).symm ▸ h, old, hold, hsame⟩
  next =>
    refine ⟨?_, block, rfl, rfl⟩
    have hstart := h.startBlock block htext hthinking
    rw [hgathered block rfl] at hstart
    exact hstart

theorem Holds.handleContent (h : Holds parse output (done, current) text thinking)
    (content : String) :
    Holds parse (handleContent parse content output) (done ++ current.toList, none)
      (text ++ content) thinking := by
  have hnone : ∀ open' : Block, open'.kind = BlockKind.text → open'.gathered = none := by
    intro open' hkind
    cases open' with
    | toolCall => cases hkind
    | _ => rfl
  obtain ⟨hensured, open', hopen, hkind⟩ := h.ensureBlock (.text "") rfl rfl hnone
  cases open' with
  | text old =>
    have hextended := hensured.extendBlock hopen (Block.addText content) content "" rfl rfl .text
      content
    rw [String.append_empty] at hextended
    exact hextended
  | _ => cases hkind

theorem Holds.handleReasoning (h : Holds parse output (done, current) text thinking)
    (field delta : String) :
    Holds parse (handleReasoning parse field delta output) (done ++ current.toList, none) text
      (thinking ++ delta) := by
  have hnone : ∀ open' : Block, open'.kind = BlockKind.thinking → open'.gathered = none := by
    intro open' hkind
    cases open' with
    | toolCall => cases hkind
    | _ => rfl
  obtain ⟨hensured, open', hopen, hkind⟩ := h.ensureBlock (.thinking "" field) rfl rfl hnone
  cases open' with
  | thinking old signature =>
    have hextended := hensured.extendBlock hopen (Block.addThinking delta) "" delta rfl rfl
      .thinking delta
    rw [String.append_empty] at hextended
    exact hextended
  | _ => cases hkind

theorem Holds.addToolCall (h : Holds parse output (done, some run) text thinking)
    {block : Block} (hblock : output.currentBlock = some block)
    (hgathered : block.gathered = some run) (tc : ToolCallDelta) :
    Holds parse (Completions.extendBlock (Block.addToolCall parse tc) .toolCall tc.arguments output)
      (done, some (run.add tc)) text thinking := by
  cases block with
  | toolCall id name arguments partialArgs signature =>
    obtain rfl := Option.some.inj hgathered
    have hextended := h.extendBlock hblock (Block.addToolCall parse tc) "" "" rfl rfl .toolCall
      tc.arguments
    rw [String.append_empty, String.append_empty] at hextended
    exact hextended
  | _ => cases hgathered

theorem Holds.handleToolCall (h : Holds parse output (done, current) text thinking)
    (tc : ToolCallDelta) :
    Holds parse (handleToolCall parse tc output)
      (done ++ (runStep current (.call tc)).1, (runStep current (.call tc)).2) text thinking := by
  have hopen : (⟨tc.id, tc.name, ""⟩ : Run).add tc = openRun tc := by
    simp only [Run.add, openRun, String.empty_append, ite_self]
  have hstarted : Holds parse
      (Completions.extendBlock (Block.addToolCall parse tc) .toolCall tc.arguments
        (Completions.startBlock parse (.toolCall tc.id tc.name (.obj []) (some "") none) output))
      (done ++ current.toList, some (openRun tc)) text thinking :=
    hopen ▸ (h.startBlock (.toolCall tc.id tc.name (.obj []) (some "") none) rfl rfl).addToolCall
      rfl rfl tc
  have hopened := h.opened
  unfold Completions.handleToolCall
  cases hblock : output.currentBlock with
  | none =>
    rw [hblock] at hopened
    obtain rfl : none = current := hopened
    exact hstarted
  | some block =>
    rw [hblock] at hopened
    cases block with
    | text content =>
      obtain rfl : none = current := hopened
      exact hstarted
    | thinking content signature =>
      obtain rfl : none = current := hopened
      exact hstarted
    | toolCall id name arguments partialArgs signature =>
      obtain rfl : some _ = current := hopened
      simp only [startsToolCall, runStep, decide_eq_true_eq]
      by_cases hother : tc.id ≠ "" ∧ id ≠ tc.id
      · rw [if_pos hother, if_pos hother]
        exact hstarted
      · rw [if_neg hother, if_neg hother, append_nil]
        exact h.addToolCall hblock rfl tc

theorem Holds.handlePiece (h : Holds parse output (done, current) text thinking) (piece : Piece) :
    Holds parse (handlePiece parse output piece)
      (done ++ (runStep current piece).1, (runStep current piece).2) (text ++ piece.textOf)
      (thinking ++ piece.thinkingOf) := by
  cases piece with
  | text content => exact (String.append_empty (s := thinking)).symm ▸ h.handleContent content
  | thinking field delta =>
    exact (String.append_empty (s := text)).symm ▸ h.handleReasoning field delta
  | call tc =>
    have hcall := h.handleToolCall tc
    rw [← String.append_empty (s := text), ← String.append_empty (s := thinking)] at hcall
    exact hcall

theorem Holds.handlePieces (h : Holds parse output (done, current) text thinking)
    (pieces : List Piece) :
    ∃ done' current', Holds parse (pieces.foldl (Completions.handlePiece parse) output)
        (done', current') (text ++ String.join (pieces.map Piece.textOf))
        (thinking ++ String.join (pieces.map Piece.thinkingOf)) ∧
      ∀ rest, done' ++ runsFrom current' rest = done ++ runsFrom current (pieces ++ rest) := by
  induction pieces generalizing output done current text thinking with
  | nil =>
    refine ⟨done, current, ?_, fun rest => rfl⟩
    rw [map_nil, map_nil, String.join_nil, String.append_empty, String.append_empty]
    exact h
  | cons piece pieces ih =>
    obtain ⟨done', current', hholds, hruns⟩ := ih (h.handlePiece piece)
    refine ⟨done', current', ?_, fun rest => ?_⟩
    · rw [map_cons, map_cons, String.join_cons, String.join_cons, ← String.append_assoc,
        ← String.append_assoc]
      exact hholds
    · rw [hruns rest, append_assoc]
      rfl

theorem sign_fields (detail : Json) (block : Block) :
    (block.sign detail).call = block.call ∧ (block.sign detail).gathered = block.gathered ∧
      (block.sign detail).textOf = block.textOf ∧
        (block.sign detail).thinkingOf = block.thinkingOf := by
  cases block with
  | _ => exact ⟨rfl, rfl, rfl, rfl⟩

section Sign

variable {α : Type*} {f : Block → α}

theorem map_signFirst (hf : ∀ detail block, f (Block.sign detail block) = f block) (id : String)
    (detail : Json) (blocks : List Block) : (signFirst id detail blocks).map f = blocks.map f := by
  induction blocks with
  | nil => rfl
  | cons block rest ih =>
    rw [signFirst]
    split
    next => rw [map_cons, map_cons, hf]
    next => rw [map_cons, map_cons, ih]

theorem map_handleDetail (hf : ∀ detail block, f (Block.sign detail block) = f block)
    (output : Output) (d : ReasoningDetail) :
    (handleDetail output d).blocks.map f = output.blocks.map f ∧
      (handleDetail output d).currentBlock.map f = output.currentBlock.map f := by
  unfold handleDetail
  split
  next =>
    split
    next => exact ⟨map_signFirst hf d.id d.detail output.blocks, rfl⟩
    next =>
      refine ⟨rfl, ?_⟩
      cases output.currentBlock with
      | none => rfl
      | some block =>
        simp only [map_some, Option.some.injEq]
        split
        next => exact hf d.detail block
        next => rfl
  next => exact ⟨rfl, rfl⟩

end Sign

variable {runs : List Run × Option Run}

theorem Holds.handleDetail (h : Holds parse output runs text thinking) (d : ReasoningDetail) :
    Holds parse (handleDetail output d) runs text thinking := by
  have hcontent : ∀ f : Block → String, (∀ detail block, f (Block.sign detail block) = f block) →
      (Completions.handleDetail output d).content.map f = output.content.map f := by
    intro f hf
    obtain ⟨hblocks, hcurrent⟩ := map_handleDetail hf output d
    rw [Output.content, Output.content, map_append, map_append, hblocks,
      ← toList_map, ← toList_map, hcurrent]
  obtain ⟨hcalls, -⟩ :=
    map_handleDetail (fun detail b => (sign_fields detail b).1) output d
  obtain ⟨-, hgathered⟩ :=
    map_handleDetail (fun detail b => (sign_fields detail b).2.1) output d
  constructor
  · have hread := congrArg (List.filterMap id) hcalls
    rw [filterMap_map, filterMap_map] at hread
    exact hread.trans h.closed
  · have hread := congrArg (fun o => o.bind id) hgathered
    rw [bind_map, bind_map] at hread
    exact hread.trans h.opened
  · rw [hcontent _ fun detail b => (sign_fields detail b).2.2.1]
    exact h.text
  · rw [hcontent _ fun detail b => (sign_fields detail b).2.2.2]
    exact h.thinking

def Chunk.pieces (chunk : Chunk) : List Piece :=
  ((chunk.choice.bind Choice.delta).map Delta.pieces).getD []

theorem Holds.frame (h : Holds parse output runs text thinking)
    {output' : Output} (hblocks : output'.blocks = output.blocks)
    (hcurrent : output'.currentBlock = output.currentBlock) :
    Holds parse output' runs text thinking := by
  have hcontent : output'.content = output.content := by
    rw [Output.content, Output.content, hblocks, hcurrent]
  exact ⟨hblocks ▸ h.closed, hcurrent ▸ h.opened, hcontent ▸ h.text, hcontent ▸ h.thinking⟩

theorem Holds.setResponseId (h : Holds parse output runs text thinking) (id : String) :
    Holds parse (setResponseId id output) runs text thinking := by
  unfold Completions.setResponseId
  split
  next => exact h.frame rfl rfl
  next => exact h

theorem Holds.setStopReason (h : Holds parse output runs text thinking) (finishReason : String) :
    Holds parse (setStopReason finishReason output) runs text thinking := by
  unfold Completions.setStopReason
  split
  next => exact h.frame rfl rfl
  next => exact h

theorem Holds.handleDetails
    (h : Holds parse output runs text thinking) (details : List ReasoningDetail) :
    Holds parse (details.foldl Completions.handleDetail output) runs text thinking := by
  induction details generalizing output with
  | nil => exact h
  | cons d rest ih => exact ih (h.handleDetail d)

theorem Holds.handleChunk (h : Holds parse output (done, current) text thinking) (chunk : Chunk) :
    ∃ done' current', Holds parse (handleChunk parse output chunk) (done', current')
        (text ++ String.join (chunk.pieces.map Piece.textOf))
        (thinking ++ String.join (chunk.pieces.map Piece.thinkingOf)) ∧
      ∀ rest, done' ++ runsFrom current' rest =
        done ++ runsFrom current (chunk.pieces ++ rest) := by
  have hempty : Holds parse output (done, current) (text ++ String.join [])
      (thinking ++ String.join []) := by
    rw [String.join_nil, String.append_empty, String.append_empty]
    exact h
  unfold Completions.handleChunk Chunk.pieces
  cases chunk.choice with
  | none => exact ⟨done, current, hempty.setResponseId chunk.id, fun rest => rfl⟩
  | some choice =>
    cases hdelta : choice.delta with
    | none =>
      simp only [bind_some, hdelta]
      exact ⟨done, current, (hempty.setResponseId chunk.id).setStopReason choice.finishReason,
        fun rest => rfl⟩
    | some delta =>
      simp only [bind_some, hdelta]
      obtain ⟨done', current', hholds, hruns⟩ :=
        ((h.setResponseId chunk.id).setStopReason choice.finishReason).handlePieces delta.pieces
      exact ⟨done', current', hholds.handleDetails delta.reasoningDetails, hruns⟩

def piecesOf (chunks : List Chunk) : List Piece := chunks.flatMap Chunk.pieces

theorem Holds.handleChunks (h : Holds parse output (done, current) text thinking)
    (chunks : List Chunk) :
    ∃ done' current', Holds parse (chunks.foldl (Completions.handleChunk parse) output)
        (done', current') (text ++ String.join ((piecesOf chunks).map Piece.textOf))
        (thinking ++ String.join ((piecesOf chunks).map Piece.thinkingOf)) ∧
      done' ++ current'.toList = done ++ runsFrom current (piecesOf chunks) := by
  induction chunks generalizing output done current text thinking with
  | nil =>
    refine ⟨done, current, ?_, rfl⟩
    rw [piecesOf, flatMap_nil, map_nil, map_nil, String.join_nil,
      String.append_empty, String.append_empty]
    exact h
  | cons chunk chunks ih =>
    obtain ⟨done₁, current₁, hchunk, hruns⟩ := h.handleChunk chunk
    obtain ⟨done', current', hholds, hall⟩ := ih hchunk
    refine ⟨done', current', ?_, ?_⟩
    · rw [piecesOf, flatMap_cons, map_append, map_append, String.join_append,
        String.join_append, ← String.append_assoc, ← String.append_assoc]
      exact hholds
    · rw [hall, hruns]
      rfl

theorem Holds.calls (h : Holds parse output (done, none) text thinking) :
    output.content.filterMap Block.call = done.map (Run.call parse) := by
  have hnone : output.currentBlock.toList.filterMap Block.call = [] := by
    have hopened := h.opened
    cases hblock : output.currentBlock with
    | none => rfl
    | some block =>
      rw [hblock] at hopened
      cases block with
      | toolCall => cases hopened
      | _ => rfl
  rw [Output.content, filterMap_append, h.closed, hnone, append_nil]

theorem holds_streamOpenAICompletions (parse : String → Json) (chunks : List Chunk)
    (aborted : Bool) :
    Holds parse (streamOpenAICompletions parse chunks none aborted)
      (runsFrom none (piecesOf chunks), none) (String.join ((piecesOf chunks).map Piece.textOf))
      (String.join ((piecesOf chunks).map Piece.thinkingOf)) := by
  have hstart : Holds parse { events := [.start] } ([], none) "" "" := ⟨rfl, rfl, rfl, rfl⟩
  obtain ⟨done, current, hholds, hruns⟩ := hstart.handleChunks chunks
  have hfinished := hholds.finishCurrentBlock
  rw [hruns, nil_append, String.empty_append, String.empty_append] at hfinished
  unfold streamOpenAICompletions
  dsimp only
  split
  next => exact hfinished.frame rfl rfl
  next =>
    split
    next => exact hfinished.frame rfl rfl
    next =>
      split
      next => exact hfinished.frame rfl rfl
      next => exact hfinished.frame rfl rfl

end Blocks

end CrabbyKit.Completions
