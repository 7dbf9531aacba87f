import CrabbyKit.Core.JsonString
import CrabbyKit.Core.Split
import CrabbyKit.Skills.Tracking
import Mathlib.Data.List.Chain
import Mathlib.Data.List.TakeWhile

/-!
# Chunks of a memory file

`chunker.ts`: a text is cut into paragraphs, and runs of paragraphs become chunks that overlap. The
loop over the paragraphs runs with one unit of fuel for each of them, which is enough: every round
starts behind the one before.
-/

namespace CrabbyKit.Memory

open List

open Skills (trim)

def chunkSizeChars : Nat := 1600

/-- `OVERLAP_CHARS`. -/
def overlapSizeChars : Nat := 320

/-- `text.length`. -/
def units (text : List Char) : Nat := (text.map charUnits).sum

structure Chunk where
  content : String
  startLine : Nat
  endLine : Nat
  hash : String
  deriving DecidableEq, Repr

structure LineRange where
  text : List Char
  startLine : Nat
  endLine : Nat
  deriving DecidableEq, Repr

/-- `flush`: the open block becomes a paragraph. -/
def flush (blockLines : List (List Char)) (blockStart endLine : Nat) : List LineRange :=
  if blockLines = [] then [] else [⟨['\n'].intercalate blockLines, blockStart, endLine⟩]

/-- The loop of `getParagraphs` at the line with index `i`. -/
def paragraphsFrom (i : Nat) (blockLines : List (List Char)) (blockStart : Nat) :
    List (List Char) → List LineRange
  | [] => flush blockLines blockStart i
  | line :: rest =>
    if trim line = [] then flush blockLines blockStart i ++ paragraphsFrom (i + 1) [] 0 rest
    else
      paragraphsFrom (i + 1) (blockLines ++ [line]) (if blockLines = [] then i + 1 else blockStart)
        rest

def getParagraphs (lines : List (List Char)) : List LineRange := paragraphsFrom 0 [] 0 lines

/-- The inner loop: paragraphs are taken up while the chunk has room, with the end of the last one
taken and the index of the first one left. -/
def gather (chunkText : List Char) (chunkEnd j : Nat) : List LineRange → List Char × Nat × Nat
  | [] => (chunkText, chunkEnd, j)
  | para :: rest =>
    let addition := if chunkText = [] then para.text else '\n' :: '\n' :: para.text
    let prospective := chunkText ++ addition
    if chunkSizeChars < units prospective ∧ chunkText ≠ [] then (chunkText, chunkEnd, j)
    else gather prospective para.endLine (j + 1) rest

/-- The walk back from `k`, above `i`, until the overlap is covered. -/
def overlapStart (paragraphs : List LineRange) (i overlapChars nextStart : Nat) : Nat → Nat
  | 0 => nextStart
  | k + 1 =>
    if i < k + 1 ∧ overlapChars < overlapSizeChars then
      let text := (paragraphs[k + 1]?.map LineRange.text).getD []
      overlapStart paragraphs i (overlapChars + (units text + 2)) (k + 1) k
    else nextStart

def nextIndex (paragraphs : List LineRange) (i j : Nat) : Nat :=
  let nextStart := overlapStart paragraphs i 0 j (j - 1)
  if nextStart ≤ i then if j = i then i + 1 else j else nextStart

variable (sha256Hex : String → String)

/-- The chunk of the paragraphs from the one with index `i`, and the index it ends before. -/
def chunkFrom (paragraphs : List LineRange) (i : Nat) (first : LineRange) : List Chunk × Nat :=
  let gathered := gather [] first.endLine i (paragraphs.drop i)
  let finalContent := String.ofList (trim gathered.1)
  (if trim gathered.1 = [] then []
    else [⟨finalContent, first.startLine, gathered.2.1, sha256Hex finalContent⟩], gathered.2.2)

/-- The outer loop. -/
def chunksFrom (paragraphs : List LineRange) : Nat → Nat → List Chunk
  | 0, _ => []
  | fuel + 1, i =>
    match paragraphs[i]? with
    | none => []
    | some first =>
      let (chunk, j) := chunkFrom sha256Hex paragraphs i first
      if paragraphs.length ≤ j then chunk
      else chunk ++ chunksFrom paragraphs fuel (nextIndex paragraphs i j)

def chunkMarkdown (content : String) : List Chunk :=
  if trim content.toList = [] then []
  else
    let paragraphs := getParagraphs (content.toList.splitOn '\n')
    chunksFrom sha256Hex paragraphs paragraphs.length 0

/-- What a run of paragraphs is in a chunk, before it is trimmed. -/
def joined (run : List LineRange) : List Char := ['\n', '\n'].intercalate (run.map LineRange.text)

def chunkOf (run : List LineRange) : Chunk :=
  let content := String.ofList (trim (joined run))
  ⟨content, (run.head?.map LineRange.startLine).getD 0, (run.getLast?.map LineRange.endLine).getD 0,
    sha256Hex content⟩

def Chunk.Inside (c : Chunk) (p : LineRange) : Prop :=
  c.startLine ≤ p.startLine ∧ p.endLine ≤ c.endLine

instance (c : Chunk) (p : LineRange) : Decidable (c.Inside p) :=
  inferInstanceAs (Decidable (_ ∧ _))

/-- What the chunks of a text are: they hold every paragraph, in order, none is too long, each is
the paragraphs of its range, and none lies in the one before. -/
structure ChunkingLaw (content : String) (chunks : List Chunk) : Prop where
  lines : ∀ n line, (content.toList.splitOn '\n')[n]? = some line → trim line ≠ [] →
    ∃ p ∈ getParagraphs (content.toList.splitOn '\n'),
      p.startLine ≤ n + 1 ∧ n + 1 ≤ p.endLine ∧ line <:+: p.text
  covers : ∀ p ∈ getParagraphs (content.toList.splitOn '\n'),
    ∃ c ∈ chunks, c.Inside p ∧ trim p.text <:+: c.content.toList
  ordered : chunks.Pairwise fun c c' => c.startLine < c'.startLine
  exact : ∀ c ∈ chunks, c.content.toList =
    trim (joined ((getParagraphs (content.toList.splitOn '\n')).filter (c.Inside ·)))
  bounded : ∀ c ∈ chunks, units c.content.toList ≤ chunkSizeChars ∨
    ∃ p, (getParagraphs (content.toList.splitOn '\n')).filter (c.Inside ·) = [p]
  fresh : chunks.IsChain fun c c' => ¬(c.startLine ≤ c'.startLine ∧ c'.endLine ≤ c.endLine)

/-- Wherever paragraphs are repeated, they leave room for the paragraph behind them. -/
def roomyFrom (paragraphs : List LineRange) : Nat → Nat → Bool
  | 0, _ => true
  | fuel + 1, i =>
    match paragraphs[i]? with
    | none => true
    | some first =>
      let j := (gather [] first.endLine i (paragraphs.drop i)).2.2
      let k := nextIndex paragraphs i j
      decide (paragraphs.length ≤ j) ||
        (decide (k < j → units (joined ((paragraphs.drop k).take (j - k + 1))) ≤ chunkSizeChars) &&
          roomyFrom paragraphs fuel k)

/-- `roomyFrom` for the paragraphs of a text. -/
def roomy (text : List Char) : Bool :=
  let paragraphs := getParagraphs (text.splitOn '\n')
  roomyFrom paragraphs paragraphs.length 0

variable {sha256Hex}

theorem trim_eq_nil_iff (text : List Char) :
    trim text = [] ↔ ∀ c ∈ text, Cron.isSpace c = true := by
  unfold trim
  rw [reverse_eq_nil_iff, dropWhile_eq_nil_iff]
  constructor
  · intro h
    by_contra hink
    have hne : text.dropWhile Cron.isSpace ≠ [] := fun hnil =>
      hink (dropWhile_eq_nil_iff.mp hnil)
    have hhead := head_dropWhile_not Cron.isSpace hne
    rw [h _ (mem_reverse.mpr (head_mem hne))] at hhead
    cases hhead
  · exact fun h c hc => h c ((dropWhile_sublist _).subset (mem_reverse.mp hc))

theorem units_append (text text' : List Char) :
    units (text ++ text') = units text + units text' := by
  unfold units
  rw [map_append, sum_append]

theorem units_trim_le (text : List Char) : units (trim text) ≤ units text := by
  have hdrop : ∀ text : List Char, units (text.dropWhile Cron.isSpace) ≤ units text := by
    intro text
    have happend := units_append (text.takeWhile Cron.isSpace) (text.dropWhile Cron.isSpace)
    rw [takeWhile_append_dropWhile] at happend
    omega
  have hreverse : ∀ text : List Char, units text.reverse = units text := by
    intro text
    unfold units
    rw [map_reverse, sum_reverse]
  unfold trim
  rw [hreverse]
  exact (hdrop _).trans ((hreverse _).le.trans (hdrop _))

variable {run : List LineRange}

theorem joined_concat (h : run ≠ []) (p : LineRange) :
    joined (run ++ [p]) = joined run ++ '\n' :: '\n' :: p.text := by
  induction run with
  | nil => exact absurd rfl h
  | cons q rest ih =>
    unfold joined at ih ⊢
    cases rest with
    | nil => simp [intercalate_cons_cons]
    | cons r rest =>
      have hrest := ih (cons_ne_nil _ _)
      simp only [map_append, map_cons, map_nil, cons_append, intercalate_cons_cons] at hrest ⊢
      rw [hrest]
      simp

theorem units_joined_le_append (run run' : List LineRange) :
    units (joined run) ≤ units (joined (run ++ run')) := by
  induction run' using List.reverseRecOn with
  | nil => rw [append_nil]
  | append_singleton run' p ih =>
    by_cases h : run ++ run' = []
    · rw [(append_eq_nil_iff.mp h).1]
      exact Nat.zero_le _
    · rw [← append_assoc, joined_concat h, units_append]
      exact ih.trans (Nat.le_add_right _ _)

theorem trim_infix_joined {p : LineRange} (hp : p ∈ run)
    (hink : trim p.text ≠ []) : trim p.text <:+: trim (joined run) := by
  have hdrop : ∀ before text : List Char, ∃ rest,
      (before ++ text).dropWhile Cron.isSpace = rest ++ text.dropWhile Cron.isSpace := by
    intro before text
    induction before with
    | nil => exact ⟨[], rfl⟩
    | cons c before ih =>
      rw [cons_append, dropWhile_cons]
      split_ifs
      · exact ih
      · exact ⟨c :: before ++ text.takeWhile Cron.isSpace, by
          rw [cons_append, cons_append, append_assoc, takeWhile_append_dropWhile]⟩
  obtain ⟨before, after, hjoined⟩ :=
    exists_intercalate_eq (mem_map_of_mem hp)
  have hopen : p.text.dropWhile Cron.isSpace ≠ [] := by
    intro hnil
    unfold trim at hink
    rw [hnil] at hink
    exact hink rfl
  obtain ⟨front, hfront⟩ := hdrop before (p.text ++ after)
  obtain ⟨back, hback⟩ := hdrop after.reverse
    ((p.text.dropWhile Cron.isSpace).reverse ++ front.reverse)
  refine ⟨front, back.reverse, ?_⟩
  unfold trim at hink ⊢
  rw [joined, hjoined, hfront, dropWhile_append, isEmpty_eq_false_iff.mpr hopen]
  simp only [Bool.false_eq_true, if_false, reverse_append, append_assoc]
  rw [hback, dropWhile_append, isEmpty_eq_false_iff.mpr (by simpa using hink)]
  simp

/-- Paragraphs with their lines: none is blank, and they stand apart from each other, in order. -/
structure Proper (paragraphs : List LineRange) : Prop where
  inked : ∀ p ∈ paragraphs, trim p.text ≠ []
  ranged : ∀ p ∈ paragraphs, p.startLine ≤ p.endLine
  apart : paragraphs.Pairwise fun p q => p.endLine < q.startLine

theorem trim_intercalate_ne_nil {block : List (List Char)} (hne : block ≠ [])
    (h : ∀ line ∈ block, trim line ≠ []) : trim (['\n'].intercalate block) ≠ [] := by
  intro hblank
  obtain ⟨line, rest, rfl⟩ := exists_cons_of_ne_nil hne
  refine h line mem_cons_self ((trim_eq_nil_iff line).mpr fun c hc => ?_)
  exact (trim_eq_nil_iff _).mp hblank c (mem_intercalate mem_cons_self hc)

variable {i : Nat} {blockLines : List (List Char)} {blockStart : Nat}

theorem paragraphsFrom_proper
    (hopen : blockLines ≠ [] → blockStart ≤ i ∧ ∀ line ∈ blockLines, trim line ≠ [])
    (lines : List (List Char)) :
    (∀ p ∈ paragraphsFrom i blockLines blockStart lines,
      (blockLines ≠ [] ∧ p.startLine = blockStart) ∨ i < p.startLine) ∧
    Proper (paragraphsFrom i blockLines blockStart lines) := by
  induction lines generalizing i blockLines blockStart with
  | nil =>
    unfold paragraphsFrom flush
    split_ifs with hblock
    · refine ⟨fun p hp => ?_, fun p hp => ?_, fun p hp => ?_, List.Pairwise.nil⟩ <;> cases hp
    · refine ⟨fun p hp => .inl ⟨hblock, ?_⟩, fun p hp => ?_, fun p hp => ?_,
        pairwise_singleton _ _⟩ <;> rw [mem_singleton.mp hp]
      · exact trim_intercalate_ne_nil hblock (hopen hblock).2
      · exact (hopen hblock).1
  | cons line rest ih =>
    unfold paragraphsFrom
    by_cases hblank : trim line = []
    · rw [if_pos hblank]
      have hclosed : ([] : List (List Char)) ≠ [] → 0 ≤ i + 1 ∧
          ∀ line ∈ ([] : List (List Char)), trim line ≠ [] := fun hne => absurd rfl hne
      obtain ⟨hall, hproper⟩ := ih hclosed
      have hrest : ∀ p ∈ paragraphsFrom (i + 1) [] 0 rest, i + 1 < p.startLine :=
        fun p hp => (hall p hp).resolve_left fun hne => hne.1 rfl
      unfold flush
      split_ifs with hblock
      · exact ⟨fun p hp => .inr (by have := hrest p hp; omega), hproper⟩
      · have hle := (hopen hblock).1
        refine ⟨forall_mem_cons.mpr ⟨.inl ⟨hblock, rfl⟩, fun p hp => .inr ?_⟩,
          forall_mem_cons.mpr ⟨trim_intercalate_ne_nil hblock (hopen hblock).2, hproper.inked⟩,
          forall_mem_cons.mpr ⟨hle, hproper.ranged⟩,
          pairwise_cons.mpr ⟨fun p hp => ?_, hproper.apart⟩⟩
        · have := hrest p hp
          omega
        · exact (Nat.lt_succ_self i).trans (hrest p hp)
    · rw [if_neg hblank]
      have hopened : blockLines ++ [line] ≠ [] →
          (if blockLines = [] then i + 1 else blockStart) ≤ i + 1 ∧
            ∀ line' ∈ blockLines ++ [line], trim line' ≠ [] := by
        intro _
        split_ifs with hblock
        · refine ⟨le_rfl, fun line' hline' => ?_⟩
          rw [hblock, nil_append, mem_singleton] at hline'
          rwa [hline']
        · refine ⟨(hopen hblock).1.trans (Nat.le_succ i), fun line' hline' => ?_⟩
          rcases mem_append.mp hline' with hline' | hline'
          · exact (hopen hblock).2 line' hline'
          · rwa [mem_singleton.mp hline']
      obtain ⟨hall, hproper⟩ := @ih (i + 1) _ _ hopened
      refine ⟨fun p hp => ?_, hproper⟩
      rcases hall p hp with ⟨-, hp⟩ | hp
      · split_ifs at hp with hblock
        · exact .inr (by omega)
        · exact .inl ⟨hblock, hp⟩
      · exact .inr (by omega)

theorem exists_mem_paragraphsFrom (hopen : blockLines ≠ [] → blockStart ≤ i)
    (lines : List (List Char)) :
    (blockLines ≠ [] → ∃ p ∈ paragraphsFrom i blockLines blockStart lines,
      p.startLine = blockStart ∧ i ≤ p.endLine ∧ ∀ line ∈ blockLines, line <:+: p.text) ∧
    ∀ n line, lines[n]? = some line → trim line ≠ [] →
      ∃ p ∈ paragraphsFrom i blockLines blockStart lines,
        p.startLine ≤ i + n + 1 ∧ i + n + 1 ≤ p.endLine ∧ line <:+: p.text := by
  have hflush : ∀ {i : Nat} {blockLines : List (List Char)} {blockStart : Nat}, blockLines ≠ [] →
      ∃ p ∈ flush blockLines blockStart i,
        p.startLine = blockStart ∧ i ≤ p.endLine ∧ ∀ line ∈ blockLines, line <:+: p.text := by
    intro i blockLines blockStart hblock
    unfold flush
    rw [if_neg hblock]
    refine ⟨_, mem_singleton_self _, rfl, le_rfl, fun line hline => ?_⟩
    obtain ⟨before, after, h⟩ := exists_intercalate_eq hline
    exact ⟨before, after, by rw [h, append_assoc]⟩
  induction lines generalizing i blockLines blockStart with
  | nil => exact ⟨hflush, fun n line hline => by cases hline⟩
  | cons first rest ih =>
    unfold paragraphsFrom
    by_cases hblank : trim first = []
    · rw [if_pos hblank]
      obtain ⟨-, hrest⟩ := @ih (i + 1) [] 0 fun hne => absurd rfl hne
      refine ⟨fun hblock => ?_, fun n line hline hink => ?_⟩
      · obtain ⟨p, hp, h⟩ := hflush hblock
        exact ⟨p, mem_append_left _ hp, h⟩
      · cases n with
        | zero =>
          cases hline
          exact absurd hblank hink
        | succ n =>
          obtain ⟨p, hp, hstart, hend, hin⟩ := hrest n line hline hink
          exact ⟨p, mem_append_right _ hp, by omega, by omega, hin⟩
    · rw [if_neg hblank]
      have hopened : (if blockLines = [] then i + 1 else blockStart) ≤ i + 1 := by
        split_ifs with hblock
        · exact le_rfl
        · exact (hopen hblock).trans (Nat.le_succ i)
      obtain ⟨hfirst, hrest⟩ := @ih (i + 1) (blockLines ++ [first]) _ fun _ => hopened
      obtain ⟨p, hp, hstart, hend, hin⟩ := hfirst (by simp)
      refine ⟨fun hblock => ⟨p, hp, ?_, by omega, ?_⟩, fun n line hline hink => ?_⟩
      · rw [hstart, if_neg hblock]
      · exact fun line hline => hin line (mem_append_left _ hline)
      · cases n with
        | zero =>
          cases hline
          refine ⟨p, hp, ?_, hend, hin _ (mem_append_right _ mem_cons_self)⟩
          rw [hstart]
          exact hopened
        | succ n =>
          obtain ⟨q, hq, h⟩ := hrest n line hline hink
          exact ⟨q, hq, by omega, by omega, h.2.2⟩

/-- A run of paragraphs that may be one chunk. -/
structure Fits (run : List LineRange) : Prop where
  nonempty : run ≠ []
  bounded : run.length = 1 ∨ units (joined run) ≤ chunkSizeChars

/-- The inner loop behind the paragraphs `taken`: it stops where the next one has no room. -/
theorem gather_eq {taken : List LineRange} (htaken : joined taken ≠ []) (chunkEnd j : Nat)
    (rest : List LineRange) :
    ∃ more back, rest = more ++ back ∧
      gather (joined taken) chunkEnd j rest = (joined (taken ++ more),
        (more.getLast?.map LineRange.endLine).getD chunkEnd, j + more.length) ∧
      (more ≠ [] → units (joined (taken ++ more)) ≤ chunkSizeChars) ∧
      ∀ p ∈ back.head?, chunkSizeChars < units (joined (taken ++ more ++ [p])) := by
  induction rest generalizing taken chunkEnd j with
  | nil =>
    refine ⟨[], [], rfl, by rw [append_nil]; rfl, fun hne => absurd rfl hne, fun p hp => ?_⟩
    cases hp
  | cons para rest ih =>
    have hne : taken ≠ [] := by
      rintro rfl
      exact htaken rfl
    have hconcat := joined_concat hne para
    unfold gather
    simp only [htaken, if_false, ne_eq, not_false_eq_true, and_true, ← hconcat]
    split_ifs with hfull
    · refine ⟨[], para :: rest, rfl, by rw [append_nil]; rfl, fun hne => absurd rfl hne,
        fun p hp => ?_⟩
      cases hp
      rwa [append_nil]
    · have hnext : joined (taken ++ [para]) ≠ [] := by
        rw [hconcat]
        exact append_ne_nil_of_right_ne_nil _ (cons_ne_nil _ _)
      obtain ⟨more, back, rfl, hgather, hfits, hback⟩ := ih hnext para.endLine (j + 1)
      refine ⟨para :: more, back, rfl, ?_, fun _ => ?_, ?_⟩
      · rw [hgather, append_assoc, singleton_append]
        cases more with
        | nil => rfl
        | cons q more =>
          rw [getLast?_cons_cons, Nat.add_right_comm]
          simp only [getLast?_cons, Option.map_some, Option.getD_some, length_cons, Nat.add_assoc]
      · cases more with
        | nil => exact Nat.le_of_not_lt hfull
        | cons q more =>
          have := hfits (cons_ne_nil q more)
          rwa [append_assoc, singleton_append] at this
      · rwa [append_assoc taken, singleton_append] at hback

theorem overlapStart_le (paragraphs : List LineRange) (i overlapChars : Nat) {nextStart k : Nat}
    (h : k ≤ nextStart) : overlapStart paragraphs i overlapChars nextStart k ≤ nextStart := by
  induction k generalizing overlapChars nextStart with
  | zero => exact le_rfl
  | succ k ih =>
    unfold overlapStart
    split_ifs
    · exact (ih _ (Nat.le_succ k)).trans h
    · exact le_rfl

theorem nextIndex_mem (paragraphs : List LineRange) {i j : Nat} (h : i < j) :
    i < nextIndex paragraphs i j ∧ nextIndex paragraphs i j ≤ j := by
  have hle := overlapStart_le paragraphs i 0 (Nat.sub_le j 1)
  unfold nextIndex
  simp only
  split_ifs <;> omega

/-- The rounds over paragraphs, each the run of one chunk, and that each has room behind what it
repeats. -/
inductive Rounds : List LineRange → List (List LineRange) → Prop → Prop
  | last {run : List LineRange} : Fits run → Rounds run [run] True
  | more {before again back : List LineRange} {p : LineRange} {runs : List (List LineRange)}
      {roomy : Prop} :
      Fits (before ++ again) → before ≠ [] →
      chunkSizeChars < units (joined (before ++ again ++ [p])) →
      Rounds (again ++ p :: back) runs roomy →
      Rounds (before ++ (again ++ p :: back)) ((before ++ again) :: runs)
        ((again ≠ [] → units (joined (again ++ [p])) ≤ chunkSizeChars) ∧ roomy)

variable {paragraphs : List LineRange}

variable (sha256Hex) in
theorem chunkFrom_eq (h : Proper paragraphs) {i : Nat} {first : LineRange}
    (hi : paragraphs[i]? = some first) :
    ∃ run back, paragraphs.drop i = run ++ back ∧ Fits run ∧
      chunkFrom sha256Hex paragraphs i first = ([chunkOf sha256Hex run], i + run.length) ∧
      (gather [] first.endLine i (paragraphs.drop i)).2.2 = i + run.length ∧
      ∀ p ∈ back.head?, chunkSizeChars < units (joined (run ++ [p])) := by
  obtain ⟨hlt, rfl⟩ := List.getElem?_eq_some_iff.mp hi
  have hink := h.inked _ (getElem_mem hlt)
  have hfirst : joined [paragraphs[i]] = paragraphs[i].text := by simp [joined]
  have hne : joined [paragraphs[i]] ≠ [] := by
    rw [hfirst]
    intro hnil
    rw [hnil] at hink
    exact hink rfl
  obtain ⟨more, back, hrest, hgather, hfits, hback⟩ :=
    gather_eq hne paragraphs[i].endLine (i + 1) (paragraphs.drop (i + 1))
  have hround : gather [] paragraphs[i].endLine i (paragraphs.drop i) =
      (joined (paragraphs[i] :: more),
        ((paragraphs[i] :: more).getLast?.map LineRange.endLine).getD 0,
        i + (paragraphs[i] :: more).length) := by
    rw [drop_eq_getElem_cons hlt, gather]
    simp only [ne_eq, not_true_eq_false, and_false, if_false, if_true, nil_append]
    rw [← hfirst, hgather, length_cons, Nat.add_assoc, Nat.add_comm 1]
    cases more with
    | nil => rfl
    | cons q more => rw [getLast?_cons_cons]; simp [getLast?_cons]
  have hchunk : trim (joined (paragraphs[i] :: more)) ≠ [] := by
    intro hnil
    have hin := trim_infix_joined (mem_cons_self (a := paragraphs[i]) (l := more)) hink
    rw [hnil, infix_nil] at hin
    exact hink hin
  refine ⟨paragraphs[i] :: more, back, ?_, ⟨cons_ne_nil _ _, ?_⟩, ?_, ?_, hback⟩
  · rw [drop_eq_getElem_cons hlt, hrest, cons_append]
  · cases more with
    | nil => exact .inl rfl
    | cons q more => exact .inr (hfits (cons_ne_nil _ _))
  · unfold chunkFrom
    simp only [hround, if_neg hchunk]
    rfl
  · rw [hround]

variable (sha256Hex) in
theorem chunksFrom_rounds (h : Proper paragraphs) {fuel i : Nat} (hi : i < paragraphs.length)
    (hfuel : paragraphs.length ≤ fuel + i) :
    ∃ runs good, chunksFrom sha256Hex paragraphs fuel i = runs.map (chunkOf sha256Hex) ∧
      Rounds (paragraphs.drop i) runs good ∧ (roomyFrom paragraphs fuel i = true ↔ good) := by
  induction fuel generalizing i with
  | zero => omega
  | succ fuel ih =>
    have hfirst := getElem?_eq_getElem hi
    obtain ⟨run, back, hdrop, hfits, hchunk, hend, hback⟩ := chunkFrom_eq sha256Hex h hfirst
    have hlen : paragraphs.length - i = run.length + back.length := by
      rw [← length_drop, hdrop, length_append]
    simp only [chunksFrom, roomyFrom, hfirst, hchunk, hend]
    cases back with
    | nil =>
      have hdone : paragraphs.length ≤ i + run.length := by
        rw [length_nil] at hlen
        omega
      rw [append_nil] at hdrop
      refine ⟨[run], True, if_pos hdone, by rw [hdrop]; exact .last hfits, ?_⟩
      rw [decide_eq_true hdone, Bool.true_or]
      exact iff_of_true rfl trivial
    | cons p back =>
      have hmore : ¬paragraphs.length ≤ i + run.length := by
        rw [length_cons] at hlen
        omega
      have hpos := length_pos_iff.mpr hfits.nonempty
      obtain ⟨hlt, hle⟩ :=
        nextIndex_mem paragraphs (Nat.lt_add_of_pos_right hpos : i < i + run.length)
      generalize nextIndex paragraphs i (i + run.length) = k at hlt hle ⊢
      obtain ⟨runs, good, hchunks, hrounds, hgood⟩ := @ih k (by omega) (by omega)
      have hagain : (run.drop (k - i)).length = i + run.length - k := by
        rw [length_drop]
        omega
      have hbefore : run.take (k - i) ≠ [] := by
        refine ne_nil_of_length_pos ?_
        rw [length_take]
        omega
      have hnext : paragraphs.drop k = run.drop (k - i) ++ p :: back := by
        rw [← drop_append_of_le_length (by omega), ← hdrop, drop_drop,
          Nat.add_sub_cancel' hlt.le]
      have hrun : run.take (k - i) ++ run.drop (k - i) = run := take_append_drop _ _
      have htake : (paragraphs.drop k).take (i + run.length - k + 1) = run.drop (k - i) ++ [p] := by
        rw [hnext, ← hagain, take_length_add_append]
        rfl
      refine ⟨run :: runs,
        (run.drop (k - i) ≠ [] → units (joined (run.drop (k - i) ++ [p])) ≤ chunkSizeChars) ∧ good,
        ?_, ?_, ?_⟩
      · rw [if_neg hmore, hchunks]
        rfl
      · rw [hdrop]
        rw [hnext] at hrounds
        have hround := Rounds.more (hrun.symm ▸ hfits) hbefore (hrun.symm ▸ hback p rfl) hrounds
        rwa [← append_assoc, hrun] at hround
      · rw [decide_eq_false hmore, Bool.false_or, Bool.and_eq_true, decide_eq_true_eq, hgood, htake,
          ne_nil_iff_length_pos, hagain, Nat.sub_pos_iff_lt]

variable {ps : List LineRange}

theorem Proper.sublist {qs : List LineRange} (h : Proper qs) (hsub : ps.Sublist qs) :
    Proper ps :=
  ⟨fun p hp => h.inked p (hsub.subset hp), fun p hp => h.ranged p (hsub.subset hp),
    h.apart.sublist hsub⟩

variable (sha256Hex) in
theorem chunkOf_range (h : Proper run) (hne : run ≠ []) :
    (∃ p ∈ run, (chunkOf sha256Hex run).startLine = p.startLine) ∧
      (∃ p ∈ run, (chunkOf sha256Hex run).endLine = p.endLine) ∧
      ∀ p ∈ run, (chunkOf sha256Hex run).Inside p := by
  have hlast := getLast?_eq_some_getLast hne
  have hhead := head?_eq_some_head hne
  refine ⟨⟨run.head hne, head_mem hne, ?_⟩, ⟨run.getLast hne, getLast_mem hne, ?_⟩,
    fun p hp => ⟨?_, ?_⟩⟩
  · simp [chunkOf, hhead]
  · simp [chunkOf, hlast]
  · obtain ⟨first, rest, rfl⟩ := exists_cons_of_ne_nil hne
    rcases mem_cons.mp hp with rfl | hrest
    · exact le_rfl
    · have := (pairwise_cons.mp h.apart).1 p hrest
      have := h.ranged first mem_cons_self
      simp only [chunkOf, head?_cons, Option.map_some, Option.getD_some]
      omega
  · obtain ⟨front, last, rfl⟩ := (eq_nil_or_concat' run).resolve_left hne
    have hend : (chunkOf sha256Hex (front ++ [last])).endLine = last.endLine := by simp [chunkOf]
    rw [hend]
    rcases mem_append.mp hp with hfront | hp
    · have := (pairwise_append.mp h.apart).2.2 p hfront last mem_cons_self
      have := h.ranged last (mem_append_right _ mem_cons_self)
      omega
    · rw [mem_singleton.mp hp]

theorem filter_inside {front back : List LineRange} (h : Proper (front ++ (run ++ back)))
    (hne : run ≠ []) :
    (front ++ (run ++ back)).filter ((chunkOf sha256Hex run).Inside ·) = run := by
  have hfront := pairwise_append.mp h.apart
  have hback := pairwise_append.mp hfront.2.1
  obtain ⟨⟨first, hfirst, hstart⟩, ⟨last, hlast, hend⟩, hinside⟩ :=
    chunkOf_range sha256Hex
      (h.sublist ((sublist_append_left _ _).trans (sublist_append_right _ _))) hne
  have hnone : ∀ p ∈ front, ¬(chunkOf sha256Hex run).Inside p := by
    rintro p hp ⟨hle, -⟩
    have := hfront.2.2 p hp first (mem_append_left _ hfirst)
    have := h.ranged p (mem_append_left _ hp)
    omega
  have hnone' : ∀ p ∈ back, ¬(chunkOf sha256Hex run).Inside p := by
    rintro p hp ⟨-, hle⟩
    have := hback.2.2 last hlast p hp
    have := h.ranged p (mem_append_right _ (mem_append_right _ hp))
    omega
  rw [filter_append, filter_append,
    filter_eq_nil_iff.mpr fun p hp => by simpa using hnone p hp,
    List.filter_eq_self.mpr fun p hp => by simpa using hinside p hp,
    filter_eq_nil_iff.mpr fun p hp => by simpa using hnone' p hp, nil_append,
    append_nil]

variable {runs : List (List LineRange)} {good : Prop}

theorem Rounds.exists_mem
    (h : Rounds ps runs good) {p : LineRange} (hp : p ∈ ps) : ∃ run ∈ runs, p ∈ run := by
  induction h with
  | last _ => exact ⟨_, mem_singleton_self _, hp⟩
  | more _ _ _ _ ih =>
    rcases mem_append.mp hp with hbefore | hrest
    · exact ⟨_, mem_cons_self, mem_append_left _ hbefore⟩
    · obtain ⟨run, hrun, hin⟩ := ih hrest
      exact ⟨run, mem_cons_of_mem _ hrun, hin⟩

theorem Rounds.fits (h : Rounds ps runs good) (hrun : run ∈ runs) : Fits run ∧ run <:+: ps := by
  induction h with
  | last hfits =>
    rw [mem_singleton.mp hrun]
    exact ⟨hfits, infix_refl _⟩
  | more hfits _ _ _ ih =>
    rcases mem_cons.mp hrun with rfl | hrest
    · exact ⟨hfits, [], _, by rw [nil_append, append_assoc]⟩
    · obtain ⟨hrest, hin⟩ := ih hrest
      exact ⟨hrest, hin.trans (suffix_append _ _).isInfix⟩

theorem Rounds.first (h : Rounds ps runs good) :
    ∃ run rest later, runs = run :: later ∧ run ++ rest = ps ∧
      ∀ q ∈ rest.head?, chunkSizeChars < units (joined (run ++ [q])) := by
  cases h with
  | last _ => exact ⟨_, [], [], rfl, append_nil _, fun q hq => by cases hq⟩
  | more _ _ hfull _ =>
    refine ⟨_, _ :: _, _, rfl, append_assoc _ _ _, fun q hq => ?_⟩
    cases hq
    exact hfull

theorem Rounds.ordered (h : Rounds ps runs good) (hproper : Proper ps) :
    (runs.map (chunkOf sha256Hex)).Pairwise fun c c' => c.startLine < c'.startLine := by
  induction h with
  | last _ => exact pairwise_singleton _ _
  | @more before again back p runs roomy hfits hbefore hfull hrest ih =>
    have hproper' := hproper.sublist (sublist_append_right _ _)
    refine pairwise_cons.mpr ⟨fun c hc => ?_, ih hproper'⟩
    obtain ⟨run, hrun, rfl⟩ := mem_map.mp hc
    obtain ⟨hrun, hin⟩ := hrest.fits hrun
    obtain ⟨⟨q, hq, hstart⟩, -⟩ := chunkOf_range sha256Hex (hproper'.sublist hin.sublist)
      hrun.nonempty
    have hfirst := head_mem hbefore
    have hapart := (pairwise_append.mp hproper.apart).2.2 _ hfirst q (hin.subset hq)
    rw [← append_assoc] at hproper
    have hinside := (chunkOf_range sha256Hex (hproper.sublist (sublist_append_left _ _))
      hfits.nonempty).2.2 _ (mem_append_left _ hfirst)
    have := hproper.ranged _ (mem_append_left _ (mem_append_left _ hfirst))
    have := hinside.1
    omega

theorem Rounds.fresh_iff (h : Rounds ps runs good) (hproper : Proper ps) :
    ((runs.map (chunkOf sha256Hex)).IsChain fun c c' =>
      ¬(c.startLine ≤ c'.startLine ∧ c'.endLine ≤ c.endLine)) ↔ good := by
  have hordered : (runs.map (chunkOf sha256Hex)).Pairwise
      fun c c' => c.startLine < c'.startLine := h.ordered hproper
  induction h with
  | last _ => exact iff_of_true (isChain_singleton _) trivial
  | @more before again back p runs roomy hfits hbefore hfull hrest ih =>
    have hproper' := hproper.sublist (sublist_append_right _ _)
    have hnext := ih hproper' (pairwise_cons.mp hordered).2
    obtain ⟨run, rest, later, rfl, heq, hrestFull⟩ := hrest.first
    obtain ⟨hrun, hin⟩ := hrest.fits mem_cons_self
    have hstarts := (pairwise_cons.mp hordered).1 _ mem_cons_self
    obtain ⟨-, ⟨last', hlast', hend'⟩, hinside'⟩ :=
      chunkOf_range sha256Hex (hproper'.sublist hin.sublist) hrun.nonempty
    have hproper'' := hproper
    rw [← append_assoc] at hproper''
    obtain ⟨-, ⟨last, hlast, hend⟩, hinside⟩ :=
      chunkOf_range sha256Hex (hproper''.sublist (sublist_append_left _ _)) hfits.nonempty
    have hcases : (∃ left, again = run ++ left ∧ rest = left ++ p :: back) ∨
        ∃ taken, run = again ++ p :: taken := by
      rcases append_eq_append_iff.mp heq with h | ⟨taken, htaken, hback⟩
      · exact .inl h
      · cases taken with
        | nil => exact .inl ⟨[], by rw [htaken, append_nil, append_nil], hback.symm⟩
        | cons q taken =>
          obtain ⟨rfl, -⟩ := cons_eq_cons.mp hback
          exact .inr ⟨taken, htaken⟩
    refine isChain_cons_cons.trans (and_congr ?_ hnext)
    rcases hcases with ⟨left, hagain, hback⟩ | ⟨taken, htaken⟩
    · refine iff_of_false (fun hnot => hnot ⟨hstarts.le, ?_⟩) fun hroom => ?_
      · rw [hend', hagain]
        rw [hagain] at hinside
        exact (hinside last' (mem_append_right _ (mem_append_left _ hlast'))).2
      · have hpast : chunkSizeChars < units (joined (again ++ [p])) := by
          rw [hagain, append_assoc]
          cases left with
          | nil => exact hrestFull p (by rw [hback]; rfl)
          | cons q left =>
            rw [cons_append, ← singleton_append, ← append_assoc]
            exact (hrestFull q (by rw [hback]; rfl)).trans_le (units_joined_le_append _ _)
        refine absurd (hroom ?_) hpast.not_ge
        rw [hagain]
        exact append_ne_nil_of_left_ne_nil hrun.nonempty _
    · have hp : p ∈ run := by
        rw [htaken]
        exact mem_append_right _ mem_cons_self
      refine iff_of_true (fun hnot => ?_) fun hagain => ?_
      · have := (pairwise_append.mp hproper''.apart).2.2 last hlast p mem_cons_self
        have := hproper''.ranged p (mem_append_right _ mem_cons_self)
        have := (hinside' p hp).2
        omega
      · have hlong : run.length ≠ 1 := by
          have := length_pos_iff.mpr hagain
          rw [htaken, length_append, length_cons]
          omega
        refine le_trans ?_ (hrun.bounded.resolve_left hlong)
        have hle := units_joined_le_append (again ++ [p]) taken
        rw [append_assoc, singleton_append] at hle
        rwa [htaken]

theorem getParagraphs_proper (lines : List (List Char)) : Proper (getParagraphs lines) :=
  (paragraphsFrom_proper (fun hne => absurd rfl hne) lines).2

theorem getParagraphs_blank {lines : List (List Char)} (h : ∀ line ∈ lines, trim line = []) :
    getParagraphs lines = [] := by
  have hfrom : ∀ i, paragraphsFrom i [] 0 lines = [] := by
    induction lines with
    | nil => exact fun i => rfl
    | cons line rest ih =>
      intro i
      rw [paragraphsFrom, if_pos (h line mem_cons_self), flush, if_pos rfl, nil_append]
      exact ih (fun line hline => h line (mem_cons_of_mem _ hline)) _
  exact hfrom 0

variable (sha256Hex) in
theorem chunkMarkdown_rounds (content : String) :
    (getParagraphs (content.toList.splitOn '\n') = [] ∧ chunkMarkdown sha256Hex content = [] ∧
      roomy content.toList = true) ∨
    ∃ runs good, chunkMarkdown sha256Hex content = runs.map (chunkOf sha256Hex) ∧
      Rounds (getParagraphs (content.toList.splitOn '\n')) runs good ∧
      (roomy content.toList = true ↔ good) := by
  have hproper := getParagraphs_proper (content.toList.splitOn '\n')
  have hblank : trim content.toList = [] → getParagraphs (content.toList.splitOn '\n') = [] := by
    intro htrim
    refine getParagraphs_blank fun line hline => (trim_eq_nil_iff line).mpr fun c hc => ?_
    refine (trim_eq_nil_iff _).mp htrim c ?_
    have hmem : c ∈ ['\n'].intercalate (content.toList.splitOn '\n') := mem_intercalate hline hc
    rwa [intercalate_splitOn] at hmem
  unfold chunkMarkdown roomy
  by_cases hnone : getParagraphs (content.toList.splitOn '\n') = []
  · refine .inl ⟨hnone, ?_, ?_⟩
    · rw [hnone]
      exact ite_self _
    · rw [hnone]
      rfl
  · rw [if_neg fun htrim => hnone (hblank htrim)]
    exact .inr (chunksFrom_rounds sha256Hex hproper (length_pos_iff.mpr hnone)
      (Nat.le_add_right _ _))

variable (sha256Hex) in
theorem chunkMarkdown_sorted (content : String) :
    (chunkMarkdown sha256Hex content).Pairwise fun c c' => c.startLine < c'.startLine := by
  rcases chunkMarkdown_rounds sha256Hex content with ⟨-, hnone, -⟩ | ⟨runs, good, hchunks, h, -⟩
  · rw [hnone]
    exact List.Pairwise.nil
  · rw [hchunks]
    exact h.ordered (getParagraphs_proper _)

variable (sha256Hex) in
theorem chunkMarkdown_fresh_iff (content : String) :
    ((chunkMarkdown sha256Hex content).IsChain fun c c' =>
      ¬(c.startLine ≤ c'.startLine ∧ c'.endLine ≤ c.endLine)) ↔ roomy content.toList = true := by
  rcases chunkMarkdown_rounds sha256Hex content with
    ⟨-, hchunks, hroomy⟩ | ⟨runs, good, hchunks, h, hgood⟩
  · rw [hchunks]
    exact iff_of_true isChain_nil hroomy
  · rw [hchunks, hgood]
    exact h.fresh_iff (getParagraphs_proper _)

variable (sha256Hex) in
/-- The chunks of a text are what they should be just where the paragraphs that are repeated always
leave room for one more. -/
theorem chunkingLaw_iff (content : String) :
    ChunkingLaw content (chunkMarkdown sha256Hex content) ↔ roomy content.toList = true := by
  have hproper := getParagraphs_proper (content.toList.splitOn '\n')
  have hlines := (exists_mem_paragraphsFrom (i := 0) (fun hne => absurd rfl hne : [] ≠ [] → 0 ≤ 0)
    (content.toList.splitOn '\n')).2
  simp only [Nat.zero_add] at hlines
  have hordered := chunkMarkdown_sorted sha256Hex content
  rcases chunkMarkdown_rounds sha256Hex content with
    ⟨hnone, hchunks, hroomy⟩ | ⟨runs, good, hchunks, h, -⟩
  · refine iff_of_true ⟨hlines, fun p hp => ?_, hordered, ?_, ?_, ?_⟩ hroomy
    · rw [hnone] at hp
      cases hp
    · rw [hchunks]
      exact fun c hc => by cases hc
    · rw [hchunks]
      exact fun c hc => by cases hc
    · rw [hchunks]
      exact isChain_nil
  · have hrun : ∀ c ∈ chunkMarkdown sha256Hex content, ∃ run, Fits run ∧ c = chunkOf sha256Hex run ∧
        (getParagraphs (content.toList.splitOn '\n')).filter (c.Inside ·) = run := by
      rw [hchunks]
      intro c hc
      obtain ⟨run, hrun, rfl⟩ := mem_map.mp hc
      obtain ⟨hfits, front, back, heq⟩ := h.fits hrun
      rw [append_assoc] at heq
      rw [← heq] at hproper ⊢
      exact ⟨run, hfits, rfl, filter_inside hproper hfits.nonempty⟩
    refine ⟨fun hlaw => (chunkMarkdown_fresh_iff sha256Hex content).mp hlaw.fresh, fun hroomy =>
      ⟨hlines, fun p hp => ?_, hordered, fun c hc => ?_, fun c hc => ?_, 
        (chunkMarkdown_fresh_iff sha256Hex content).mpr hroomy⟩⟩
    · obtain ⟨run, hrun, hin⟩ := h.exists_mem hp
      obtain ⟨hfits, hinfix⟩ := h.fits hrun
      refine ⟨chunkOf sha256Hex run, hchunks ▸ mem_map_of_mem hrun,
        (chunkOf_range sha256Hex (hproper.sublist hinfix.sublist) hfits.nonempty).2.2 p hin, ?_⟩
      simp only [chunkOf, String.toList_ofList]
      exact trim_infix_joined hin (hproper.inked p hp)
    · obtain ⟨run, -, hc, hfilter⟩ := hrun c hc
      rw [hfilter, hc]
      simp only [chunkOf, String.toList_ofList]
    · obtain ⟨run, hfits, hc, hfilter⟩ := hrun c hc
      rw [hfilter]
      rcases hfits.bounded with hone | hle
      · exact .inr (length_eq_one_iff.mp hone)
      · refine .inl ?_
        rw [hc]
        simp only [chunkOf, String.toList_ofList]
        exact (units_trim_le _).trans hle

/-- A short paragraph between two long ones. -/
def crowded : List Char :=
  List.replicate 1000 'a' ++ '\n' :: '\n' :: (List.replicate 300 'b' ++
    '\n' :: '\n' :: List.replicate 1400 'c')

/-- The short paragraph is in the first chunk, and once more a chunk of its own. -/
theorem crowded_not_chunkingLaw :
    ¬ChunkingLaw (String.ofList crowded) (chunkMarkdown (fun _ => "") (String.ofList crowded)) := by
  intro hlaw
  have hroomy := (chunkMarkdown_fresh_iff (fun _ => "") _).mp hlaw.fresh
  rw [String.toList_ofList] at hroomy
  exact absurd hroomy (by decide +kernel)

end CrabbyKit.Memory
