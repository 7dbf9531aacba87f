import CrabbyKit.Core.Split
import CrabbyKit.Core.Utf8Stream
import CrabbyKit.Schedule.Cron

/-!
# The SSE parser of a bundle

`iterateSseData` and `extractSseData` of `bundle-sdk/src/providers/stream-iterator.ts`. A stream is
the list of the chunks that `reader.read` gives.
-/

namespace CrabbyKit.Bundle

open List

/-- The value of a line that starts with `data:`. -/
def dataOfLine (line : List Char) : Option (List Char) :=
  if "data:".toList.isPrefixOf line then
    some (if (line)[5]? = some ' ' then line.drop 6 else line.drop 5)
  else none

/-- `dataLines.join("\n")`, or null without such lines. -/
def joinData (dataLines : List (List Char)) : Option (List Char) :=
  if dataLines.length = 0 then none else some (['\n'].intercalate dataLines)

def extractSseData (rawEvent : List Char) : Option (List Char) :=
  joinData ((rawEvent.splitOn '\n').filterMap dataOfLine)

/-- The text before and after `buffer.indexOf("\n\n")`. -/
def nextEvent : List Char → Option (List Char × List Char)
  | [] => none
  | c :: rest =>
    if c = '\n' ∧ rest.head? = some '\n' then some ([], rest.tail)
    else (nextEvent rest).map fun parts => (c :: parts.1, parts.2)

/-- The inner loop: the events of the buffer, and what is left. Each one takes two characters at
least, so that the length of the buffer is enough fuel. -/
def takeEvents : Nat → List Char → List (List Char) × List Char
  | 0, buffer => ([], buffer)
  | fuel + 1, buffer =>
    match nextEvent buffer with
    | none => ([], buffer)
    | some (rawEvent, rest) => (rawEvent :: (takeEvents fuel rest).1, (takeEvents fuel rest).2)

/-- The variables between two reads. -/
structure SseState where
  decoder : TextDecoder := {}
  buffer : List Char := []
  deriving DecidableEq, Repr

/-- A chunk: the payloads that it yields. -/
def SseState.read (state : SseState) (value : List UInt8) : SseState × List (List Char) :=
  let decoded := state.decoder.decode value
  let buffer := state.buffer ++ decoded.2
  let taken := takeEvents buffer.length buffer
  ({ decoder := decoded.1, buffer := taken.2 }, taken.1.filterMap extractSseData)

/-- The end of the stream: an event without its blank line. -/
def SseState.done (state : SseState) : List (List Char) :=
  let buffer := state.buffer ++ state.decoder.finish
  if buffer.all Cron.isSpace then [] else (extractSseData buffer).toList

def iterateReads (state : SseState) : List (List UInt8) → List (List Char)
  | [] => state.done
  | value :: rest => (state.read value).2 ++ iterateReads (state.read value).1 rest

def iterateSseData (upstream : List (List UInt8)) : List (List Char) := iterateReads {} upstream

/-!
# The events of an SSE stream

The lines of a stream are read one after the other: a data line adds to the event, a blank line
ends it. The parser of a bundle yields these payloads for every cut into chunks. It takes only `LF`
for a line end: in a stream with `CRLF` it finds no blank line, and every data line but one that
ends the stream keeps its `CR`.
-/

/-- The payloads of some lines, after the data lines of the event that is going on. -/
def dispatch (dataLines : List (List Char)) : List (List Char) → List (List Char)
  | [] => (joinData dataLines).toList
  | line :: rest =>
    if line = [] then (joinData dataLines).toList ++ dispatch [] rest
    else dispatch (dataLines ++ (dataOfLine line).toList) rest

def ssePayloads (text : List Char) : List (List Char) := dispatch [] (text.splitOn '\n')

variable {line : List Char}

theorem dataOfLine_eq_none :
    dataOfLine line = none ↔ ¬ "data:".toList <+: line := by
  rw [dataOfLine]
  split
  · next starts => simpa using starts
  · next other => simpa using other

theorem dispatch_blank (rest : List (List Char)) : dispatch [] ([] :: rest) = dispatch [] rest := by
  simp [dispatch, joinData]

variable {lines : List (List Char)}

theorem dispatch_one (filled : ∀ line ∈ lines.dropLast, line ≠ []) :
    ∀ dataLines, dispatch dataLines lines =
      (joinData (dataLines ++ lines.filterMap dataOfLine)).toList := by
  induction lines with
  | nil => simp [dispatch]
  | cons line rest ih =>
    intro dataLines
    cases rest with
    | nil =>
      by_cases blank : line = []
      · simp [dispatch, blank, joinData, dataOfLine]
      · cases data : dataOfLine line <;> simp [dispatch, blank, data]
    | cons next rest =>
      have here : line ≠ [] := filled line (by simp)
      rw [dispatch, if_neg here, ih fun l h => filled l (by simp [h]), append_assoc]
      cases data : dataOfLine line <;> simp [data]

theorem dispatch_append (filled : ∀ line ∈ lines, line ≠ [])
    (rest : List (List Char)) : ∀ dataLines, dispatch dataLines (lines ++ [] :: rest) =
      (joinData (dataLines ++ lines.filterMap dataOfLine)).toList ++ dispatch [] rest := by
  induction lines with
  | nil => simp [dispatch]
  | cons line lines ih =>
    intro dataLines
    rw [cons_append, dispatch, if_neg (filled line (by simp)),
      ih fun l h => filled l (by simp [h]), append_assoc]
    cases data : dataOfLine line <;> simp [data]

variable {before after : List Char}

theorem nextEvent_append {xs : List Char} (h : nextEvent xs = some (before, after))
    (ys : List Char) : nextEvent (xs ++ ys) = some (before, after ++ ys) := by
  induction xs generalizing before after with
  | nil => cases h
  | cons c xs ih =>
    rw [nextEvent] at h
    rw [cons_append, nextEvent]
    cases xs with
    | nil => simp [nextEvent] at h
    | cons d xs =>
      split at h
      · next boundary =>
        cases h
        rw [if_pos (by simpa using boundary)]
        rfl
      · next inside =>
        obtain ⟨front, found, rfl⟩ : ∃ front, nextEvent (d :: xs) = some (front, after) ∧
            c :: front = before := by simpa using h
        rw [if_neg (by simpa using inside), ih found]
        rfl

variable {c : Char}

theorem splitOn_filled (inside : c ≠ '\n') (text : List Char) :
    ∃ line rest, (c :: text).splitOn '\n' = line :: rest ∧ line ≠ [] ∧
      rest = (text.splitOn '\n').tail := by
  obtain ⟨first, rest, split⟩ := exists_cons_of_ne_nil (splitOn_ne_nil '\n' text)
  refine ⟨c :: first, rest, ?_, cons_ne_nil _ _, by rw [split]; rfl⟩
  rw [splitOn_cons_eq_if_modifyHead, split]
  simp [inside]

theorem splitOn_break (text : List Char) :
    ('\n' :: text).splitOn '\n' = [] :: text.splitOn '\n' := by
  rw [splitOn_cons_eq_if_modifyHead]
  rfl

variable {text : List Char}

theorem filled_of_nextEvent_none (h : nextEvent text = none) :
    ∀ line ∈ (text.splitOn '\n').tail.dropLast, line ≠ [] := by
  induction text with
  | nil => simp
  | cons c text ih =>
    rw [nextEvent] at h
    split at h
    · cases h
    · next inside =>
      have later := ih (by simpa using h)
      by_cases lineBreak : c = '\n'
      · subst lineBreak
        rw [splitOn_break, tail_cons]
        cases text with
        | nil => simp
        | cons d text =>
          have other : d ≠ '\n' := by simpa using inside
          obtain ⟨line, rest, split, filled, _⟩ := splitOn_filled other text
          rw [split] at later ⊢
          cases rest with
          | nil => simp
          | cons next rest =>
            rw [dropLast_cons_cons]
            intro l mem
            rcases mem_cons.mp mem with rfl | mem
            · exact filled
            · exact later l mem
      · obtain ⟨line, rest, split, _, rfl⟩ := splitOn_filled lineBreak text
        rw [split]
        exact later

theorem filled_of_nextEvent_some (h : nextEvent text = some (before, after)) :
    text = before ++ '\n' :: '\n' :: after ∧ ∀ line ∈ (before.splitOn '\n').tail, line ≠ [] := by
  induction text generalizing before with
  | nil => cases h
  | cons c text ih =>
    rw [nextEvent] at h
    split at h
    · next boundary =>
      cases h
      obtain ⟨rfl, head⟩ := boundary
      obtain ⟨rest, rfl⟩ : ∃ rest, text = '\n' :: rest := by
        cases text with
        | nil => cases head
        | cons d rest => exact ⟨rest, by rw [Option.some.inj head]⟩
      simp
    · next inside =>
      obtain ⟨rest, found, rfl⟩ : ∃ rest, nextEvent text = some (rest, after) ∧
          c :: rest = before := by simpa using h
      obtain ⟨rfl, later⟩ := ih found
      refine ⟨rfl, ?_⟩
      by_cases lineBreak : c = '\n'
      · subst lineBreak
        rw [splitOn_break, tail_cons]
        cases front : rest with
        | nil => simp [front] at inside
        | cons d before =>
          have other : d ≠ '\n' := by simpa [front] using inside
          obtain ⟨line, rest, split, filled, _⟩ := splitOn_filled other before
          rw [front, split] at later
          rw [split]
          intro l mem
          rcases mem_cons.mp mem with rfl | mem
          · exact filled
          · exact later l mem
      · obtain ⟨line, rest, split, _, rfl⟩ := splitOn_filled lineBreak rest
        rw [split]
        exact later

theorem ssePayloads_of_none (h : nextEvent text = none) :
    ssePayloads text = (extractSseData text).toList := by
  have filled := filled_of_nextEvent_none h
  rw [ssePayloads, extractSseData]
  obtain ⟨line, rest, split⟩ := exists_cons_of_ne_nil (splitOn_ne_nil '\n' text)
  rw [split] at filled ⊢
  rw [tail_cons] at filled
  by_cases blank : line = []
  · subst blank
    rw [dispatch_blank, dispatch_one filled]
    rfl
  · cases rest with
    | nil => rw [dispatch_one (by simp)]; rfl
    | cons next rest =>
      rw [dispatch_one]
      · rfl
      · intro l mem
        rw [dropLast_cons_cons] at mem
        rcases mem_cons.mp mem with rfl | mem
        · exact blank
        · exact filled l mem

theorem ssePayloads_of_some (h : nextEvent text = some (before, after)) :
    ssePayloads text = (extractSseData before).toList ++ ssePayloads after := by
  obtain ⟨rfl, filled⟩ := filled_of_nextEvent_some h
  rw [ssePayloads, ssePayloads, extractSseData, splitOn_append_cons_self, splitOn_break]
  obtain ⟨line, rest, split⟩ := exists_cons_of_ne_nil (splitOn_ne_nil '\n' before)
  rw [split] at filled ⊢
  rw [tail_cons] at filled
  by_cases blank : line = []
  · subst blank
    rw [cons_append, dispatch_blank, dispatch_append filled]
    rfl
  · rw [dispatch_append]
    · rfl
    · intro l mem
      rcases mem_cons.mp mem with rfl | mem
      · exact blank
      · exact filled l mem

theorem takeEvents_payloads (fuel : Nat) (more : List Char) : ∀ buffer : List Char,
    ssePayloads (buffer ++ more) = (takeEvents fuel buffer).1.filterMap extractSseData ++
      ssePayloads ((takeEvents fuel buffer).2 ++ more) := by
  induction fuel with
  | zero => intro buffer; rfl
  | succ fuel ih =>
    intro buffer
    rw [takeEvents]
    cases found : nextEvent buffer with
    | none => rfl
    | some parts =>
      obtain ⟨rawEvent, rest⟩ := parts
      rw [ssePayloads_of_some (nextEvent_append found more), ih rest]
      cases payload : extractSseData rawEvent <;> simp [payload]

theorem nextEvent_length
    (h : nextEvent text = some (before, after)) : after.length < text.length := by
  rw [(filled_of_nextEvent_some h).1]
  simp
  omega

theorem takeEvents_rest (fuel : Nat) : ∀ buffer : List Char, buffer.length ≤ fuel →
    nextEvent (takeEvents fuel buffer).2 = none := by
  induction fuel with
  | zero =>
    intro buffer short
    rw [length_eq_zero_iff.mp (Nat.le_zero.mp short)]
    rfl
  | succ fuel ih =>
    intro buffer short
    rw [takeEvents]
    cases found : nextEvent buffer with
    | none => exact found
    | some parts =>
      obtain ⟨rawEvent, rest⟩ := parts
      have shorter := nextEvent_length found
      exact ih rest (by omega)

theorem nextEvent_snoc (h : nextEvent text = none) (hc : c ≠ '\n') :
    nextEvent (text ++ [c]) = none := by
  induction text with
  | nil => simp [nextEvent]
  | cons d text ih =>
    rw [nextEvent] at h
    split at h
    · cases h
    · next inside =>
      have later := ih (by simpa using h)
      rw [cons_append, nextEvent, if_neg, later]
      · rfl
      · cases text with
        | nil => simp [hc]
        | cons e text => simpa using inside

theorem nextEvent_finish (h : nextEvent text = none) (decoder : TextDecoder) :
    nextEvent (text ++ decoder.finish) = none := by
  have end_ : decoder.finish = [] ∨ decoder.finish = [replacement] := by
    unfold TextDecoder.finish flushBytes
    split
    · exact .inl rfl
    · right
      have : replacement ≠ byteOrderMark := by decide
      simp [serialize, this]
  rcases end_ with none | one
  · rw [none, append_nil]
    exact h
  · rw [one]
    exact nextEvent_snoc h (by decide)

theorem extractSseData_blank (blank : text.all Cron.isSpace = true) :
    extractSseData text = none := by
  have none : (text.splitOn '\n').filterMap dataOfLine = [] := by
    rw [filterMap_eq_nil_iff]
    intro line mem
    rw [dataOfLine_eq_none]
    rintro ⟨rest, rfl⟩
    have inText : 'd' ∈ text := by
      have joined : ['\n'].intercalate (text.splitOn '\n') = text := intercalate_splitOn '\n'
      exact joined ▸ mem_intercalate mem (by simp)
    have space := all_eq_true.mp blank 'd' inText
    exact absurd space (by decide)
  rw [extractSseData, none]
  rfl

/-- What the decoder makes of the chunks to come. -/
def decodeRest (decoder : TextDecoder) : List (List UInt8) → List Char
  | [] => decoder.finish
  | value :: rest => (decoder.decode value).2 ++ decodeRest (decoder.decode value).1 rest

theorem decodeRest_eq (chunks : List (List UInt8)) : ∀ decoder : TextDecoder,
    decodeRest decoder chunks =
      (decoder.decode chunks.flatten).2 ++ (decoder.decode chunks.flatten).1.finish := by
  induction chunks with
  | nil => intro decoder; rfl
  | cons value rest ih =>
    intro decoder
    rw [decodeRest, ih, flatten_cons, TextDecoder.decode_append, append_assoc]

theorem iterateReads_eq (chunks : List (List UInt8)) : ∀ state : SseState,
    nextEvent state.buffer = none →
      iterateReads state chunks =
        ssePayloads (state.buffer ++ decodeRest state.decoder chunks) := by
  induction chunks with
  | nil =>
    intro state h
    rw [iterateReads, decodeRest, SseState.done, ssePayloads_of_none (nextEvent_finish h _)]
    split
    · next blank =>
      rw [extractSseData_blank blank]
      rfl
    · rfl
  | cons value rest ih =>
    intro state h
    rw [iterateReads, ih]
    · rw [decodeRest, ← append_assoc]
      exact (takeEvents_payloads _ _ _).symm
    · exact takeEvents_rest _ _ (Nat.le_refl _)

theorem iterateSseData_eq (upstream : List (List UInt8)) :
    iterateSseData upstream = ssePayloads (textOfBytes upstream.flatten) := by
  rw [iterateSseData, iterateReads_eq upstream {} rfl, decodeRest_eq, textOfBytes_eq]
  rfl

abbrev ByteLine := { line : List UInt8 // 0x0A ∉ line ∧ 0x0D ∉ line }

def streamOf (lineEnd : List UInt8) (lines : List ByteLine) : List UInt8 :=
  lineEnd.intercalate (lines.map Subtype.val)

/-- The text of the lines; the first may begin with a byte order mark. -/
def decodedLines : List ByteLine → List (List Char)
  | [] => []
  | first :: rest => textOfBytes first :: rest.map fun line => decodeAll line.val

/-- The payloads of a stream are the same whether its lines end in `LF` or `CRLF`. -/
def LineEndsAgree (lines : List ByteLine) : Prop :=
  ∀ lf crlf : List (List UInt8), lf.flatten = streamOf [0x0A] lines →
    crlf.flatten = streamOf [0x0D, 0x0A] lines → iterateSseData crlf = iterateSseData lf

/-- The lines that a reader of `LF` finds in a stream with `CRLF`. -/
def withReturns : List (List Char) → List (List Char)
  | [] => []
  | [line] => [line]
  | line :: next :: rest => (line ++ ['\r']) :: withReturns (next :: rest)

theorem decodeAll_lf (lines : List (List UInt8)) :
    decodeAll ([0x0A].intercalate lines) = ['\n'].intercalate (lines.map decodeAll) := by
  induction lines with
  | nil => rfl
  | cons line lines ih =>
    cases lines with
    | nil => simp
    | cons next lines =>
      rw [intercalate_cons_cons, append_assoc, singleton_append,
        decodeAll_ascii (by decide), ih, map_cons, map_cons, map_cons,
        intercalate_cons_cons, append_assoc]
      rfl

theorem withReturns_ne_nil (line : List Char) (rest : List (List Char)) :
    withReturns (line :: rest) ≠ [] := by
  cases rest <;> simp [withReturns]

theorem decodeAll_crlf (lines : List (List UInt8)) :
    decodeAll ([0x0D, 0x0A].intercalate lines) =
      ['\n'].intercalate (withReturns (lines.map decodeAll)) := by
  induction lines with
  | nil => rfl
  | cons line lines ih =>
    cases lines with
    | nil => simp [withReturns]
    | cons next lines =>
      have lf : decodeAll (0x0A :: [0x0D, 0x0A].intercalate (next :: lines)) =
          '\n' :: decodeAll ([0x0D, 0x0A].intercalate (next :: lines)) :=
        decodeAll_ascii (by decide) [] _
      obtain ⟨first, others, rest⟩ := exists_cons_of_ne_nil
        (withReturns_ne_nil (decodeAll next) (lines.map decodeAll))
      rw [map_cons, rest] at ih
      rw [intercalate_cons_cons, append_assoc, cons_append, singleton_append,
        decodeAll_ascii (by decide), lf, ih, map_cons, map_cons]
      simp [withReturns, rest]

theorem serialize_intercalate (first : List Char) (rest : List (List Char)) :
    (serialize false (['\n'].intercalate (first :: rest))).2 =
      ['\n'].intercalate ((serialize false first).2 :: rest) := by
  cases rest with
  | nil => simp
  | cons next rest =>
    rw [intercalate_cons_cons, intercalate_cons_cons, append_assoc, append_assoc]
    exact serialize_other (by decide) first _

/-- The text of a stream with `LF`. -/
theorem textOfBytes_lf (lines : List ByteLine) :
    textOfBytes (streamOf [0x0A] lines) = ['\n'].intercalate (decodedLines lines) := by
  rw [textOfBytes, streamOf, decodeAll_lf, map_map]
  cases lines with
  | nil => rfl
  | cons first rest => exact serialize_intercalate _ _

/-- The text of a stream with `CRLF`. -/
theorem textOfBytes_crlf (lines : List ByteLine) :
    textOfBytes (streamOf [0x0D, 0x0A] lines) =
      ['\n'].intercalate (withReturns (decodedLines lines)) := by
  rw [textOfBytes, streamOf, decodeAll_crlf, map_map]
  cases lines with
  | nil => rfl
  | cons first rest =>
    cases rest with
    | nil => exact serialize_intercalate _ _
    | cons next rest =>
      have mark : (serialize false (decodeAll first.val ++ ['\r'])).2 =
          textOfBytes first.val ++ ['\r'] := serialize_other (by decide) _ []
      rw [decodedLines, map_cons, map_cons, withReturns, map_cons, withReturns, ← mark]
      exact serialize_intercalate _ _

theorem no_break {lines : List ByteLine} (mem : line ∈ decodedLines lines) :
    '\n' ∉ line ∧ '\r' ∉ line := by
  have ofBytes (bytes : ByteLine) : ('\n' ∉ decodeAll bytes.val ∧ '\r' ∉ decodeAll bytes.val) ∧
      '\n' ∉ textOfBytes bytes.val ∧ '\r' ∉ textOfBytes bytes.val := by
    refine ⟨⟨?_, ?_⟩, ?_, ?_⟩
    · exact fun h => bytes.property.1 (mem_decodeAll (by decide) h)
    · exact fun h => bytes.property.2 (mem_decodeAll (by decide) h)
    · exact fun h => bytes.property.1 (mem_textOfBytes (by decide) h)
    · exact fun h => bytes.property.2 (mem_textOfBytes (by decide) h)
  cases lines with
  | nil => cases mem
  | cons first rest =>
    rcases mem_cons.mp mem with rfl | later
    · exact (ofBytes first).2
    · obtain ⟨bytes, _, rfl⟩ := mem_map.mp later
      exact (ofBytes bytes).1

theorem ssePayloads_intercalate (free : ∀ line ∈ lines, '\n' ∉ line) :
    ssePayloads (['\n'].intercalate lines) = dispatch [] lines := by
  cases lines with
  | nil => exact dispatch_blank []
  | cons first rest => rw [ssePayloads, splitOn_intercalate '\n' free (cons_ne_nil _ _)]

theorem mem_withReturns
    (h : line ∈ withReturns lines) : ∃ l ∈ lines, line = l ∨ line = l ++ ['\r'] := by
  induction lines with
  | nil => cases h
  | cons first rest ih =>
    cases rest with
    | nil => exact ⟨line, h, .inl rfl⟩
    | cons next rest =>
      rcases mem_cons.mp h with here | later
      · exact ⟨first, mem_cons_self, .inr here⟩
      · obtain ⟨l, mem, eq⟩ := ih later
        exact ⟨l, mem_cons_of_mem _ mem, eq⟩

/-- With `CRLF` no line before the last is blank. -/
theorem withReturns_filled (lines : List (List Char)) :
    ∀ line ∈ (withReturns lines).dropLast, line ≠ [] := by
  induction lines with
  | nil => simp [withReturns]
  | cons first rest ih =>
    cases rest with
    | nil => simp [withReturns]
    | cons next rest =>
      rw [withReturns, dropLast_cons_of_ne_nil (withReturns_ne_nil next rest)]
      intro line mem
      rcases mem_cons.mp mem with rfl | later
      · simp
      · exact ih line later

theorem dataOfLine_data (value : List Char) :
    dataOfLine ("data:".toList ++ value) =
      some (if value.head? = some ' ' then value.tail else value) := by
  rw [dataOfLine, if_pos ( isPrefixOf_iff_prefix.mpr (prefix_append _ _))]
  cases value <;> rfl

/-- The `CR` at the end of a data line stays in its value. -/
theorem dataOfLine_return (line : List Char) :
    dataOfLine (line ++ ['\r']) = (dataOfLine line).map (· ++ ['\r']) := by
  by_cases starts : "data:".toList <+: line
  · obtain ⟨value, rfl⟩ := starts
    rw [append_assoc, dataOfLine_data, dataOfLine_data]
    cases value with
    | nil => decide
    | cons c value =>
      by_cases space : c = ' '
      · subst space
        rfl
      · simp [space]
  · have longer : ¬ "data:".toList <+: line ++ ['\r'] := by
      intro h
      rcases prefix_concat_iff.mp h with whole | front
      · exact absurd (congrArg List.getLast? whole) (by simp)
      · exact starts front
    rw [dataOfLine_eq_none.mpr longer, dataOfLine_eq_none.mpr starts]
    rfl

/-- Without a data line before the last there is nothing that a `CR` is added to. -/
theorem filterMap_withReturns (bare : ∀ line ∈ lines.dropLast, dataOfLine line = none) :
    (withReturns lines).filterMap dataOfLine = lines.filterMap dataOfLine := by
  induction lines with
  | nil => rfl
  | cons first rest ih =>
    cases rest with
    | nil => rfl
    | cons next rest =>
      have none : dataOfLine first = none := bare first (by simp)
      have later := ih fun l h => bare l (by simp [h])
      rw [withReturns, filterMap_cons, filterMap_cons, dataOfLine_return, none, later]
      rfl

theorem dispatch_bare (bare : ∀ line ∈ lines.dropLast, dataOfLine line = none) :
    dispatch [] lines = (joinData (lines.filterMap dataOfLine)).toList := by
  induction lines with
  | nil => rfl
  | cons first rest ih =>
    cases rest with
    | nil => exact dispatch_one (by simp) []
    | cons next rest =>
      have none : dataOfLine first = none := bare first (by simp)
      have later := ih fun l h => bare l (by simp [h])
      rw [filterMap_cons, none, ← later]
      by_cases blank : first = []
      · rw [blank, dispatch_blank]
      · rw [dispatch, if_neg blank, none]
        rfl

variable {value : List Char}

theorem mem_of_dataOfLine (h : dataOfLine line = some value) (mem : c ∈ value) : c ∈ line := by
  unfold dataOfLine at h
  split at h
  · cases h
    split at mem
    · exact mem_of_mem_drop mem
    · exact mem_of_mem_drop mem
  · cases h

variable {payload : List Char}

theorem mem_of_joinData {dataLines : List (List Char)}
    (h : payload ∈ (joinData dataLines).toList) (mem : c ∈ payload) (other : c ≠ '\n') :
    ∃ value ∈ dataLines, c ∈ value := by
  unfold joinData at h
  split at h
  · cases h
  · cases mem_singleton.mp h
    rcases mem_of_mem_intercalate mem with between | inside
    · exact absurd (mem_singleton.mp between) other
    · exact inside

theorem mem_of_dispatch (mem : c ∈ payload) (other : c ≠ '\n')
    (lines : List (List Char)) : ∀ dataLines, payload ∈ dispatch dataLines lines →
      (∃ value ∈ dataLines, c ∈ value) ∨ ∃ line ∈ lines, c ∈ line := by
  induction lines with
  | nil =>
    intro dataLines h
    exact .inl (mem_of_joinData h mem other)
  | cons line rest ih =>
    intro dataLines h
    rw [dispatch] at h
    split at h
    · rcases mem_append.mp h with here | later
      · exact .inl (mem_of_joinData here mem other)
      · rcases ih [] later with ⟨_, none, _⟩ | ⟨l, later, inside⟩
        · cases none
        · exact .inr ⟨l, mem_cons_of_mem _ later, inside⟩
    · rcases ih _ h with ⟨value, among, inside⟩ | ⟨l, later, inside⟩
      · rcases mem_append.mp among with before | here
        · exact .inl ⟨value, before, inside⟩
        · exact .inr ⟨line, mem_cons_self, mem_of_dataOfLine (by simpa using here) inside⟩
      · exact .inr ⟨l, mem_cons_of_mem _ later, inside⟩

/-- A data line before the last one leaves a `CR` among the values. -/
theorem return_of_data (mem : line ∈ lines.dropLast) (data : dataOfLine line = some value) :
    value ++ ['\r'] ∈ (withReturns lines).filterMap dataOfLine := by
  induction lines with
  | nil => cases mem
  | cons first rest ih =>
    cases rest with
    | nil => cases mem
    | cons next rest =>
      rw [withReturns, filterMap_cons, dataOfLine_return]
      rw [dropLast_cons_cons] at mem
      rcases mem_cons.mp mem with rfl | later
      · rw [data]
        exact mem_cons_self
      · cases dataOfLine first with
        | none => exact ih later
        | some other => exact mem_cons_of_mem _ (ih later)

/-- With and without `CR` the payloads are the same if and only if no line before the last is a
data line. -/
theorem dispatch_withReturns_iff (free : ∀ line ∈ lines, '\r' ∉ line) :
    dispatch [] (withReturns lines) = dispatch [] lines ↔
      ∀ line ∈ lines.dropLast, dataOfLine line = none := by
  rw [dispatch_one (withReturns_filled lines), nil_append]
  constructor
  · intro same line mem
    by_contra some
    obtain ⟨value, data⟩ := Option.ne_none_iff_exists'.mp some
    have among := return_of_data mem data
    have long : ((withReturns lines).filterMap dataOfLine).length ≠ 0 := by
      rw [ne_eq, length_eq_zero_iff]
      exact ne_nil_of_mem among
    rw [joinData, if_neg long] at same
    have payload : ['\n'].intercalate ((withReturns lines).filterMap dataOfLine) ∈
        dispatch [] lines := same ▸ mem_singleton_self _
    have inside : '\r' ∈ ['\n'].intercalate ((withReturns lines).filterMap dataOfLine) :=
      mem_intercalate among (by simp)
    rcases mem_of_dispatch inside (by decide) lines [] payload with ⟨_, none, _⟩ | ⟨l, mem, h⟩
    · cases none
    · exact free l mem h
  · intro bare
    rw [filterMap_withReturns bare, dispatch_bare bare]

/-- The payloads are those of the events for every way to cut the bytes. They do not depend on the
line ends if and only if no line is a data line but one at the end of the stream. -/
theorem iterateSseData_law (upstream : List (List UInt8)) (lines : List ByteLine) :
    iterateSseData upstream = ssePayloads (textOfBytes upstream.flatten) ∧
      (LineEndsAgree lines ↔
        ∀ line ∈ (decodedLines lines).dropLast, ¬ "data:".toList <+: line) := by
  refine ⟨iterateSseData_eq upstream, ?_⟩
  have lf : ssePayloads (textOfBytes (streamOf [0x0A] lines)) =
      dispatch [] (decodedLines lines) := by
    rw [textOfBytes_lf]
    exact ssePayloads_intercalate fun line mem => (no_break mem).1
  have crlf : ssePayloads (textOfBytes (streamOf [0x0D, 0x0A] lines)) =
      dispatch [] (withReturns (decodedLines lines)) := by
    rw [textOfBytes_crlf]
    apply ssePayloads_intercalate
    intro line mem
    obtain ⟨l, among, rfl | rfl⟩ := mem_withReturns mem
    · exact (no_break among).1
    · simpa using (no_break among).1
  have agree : LineEndsAgree lines ↔
      dispatch [] (withReturns (decodedLines lines)) = dispatch [] (decodedLines lines) := by
    constructor
    · intro h
      rw [← lf, ← crlf]
      have one := h [streamOf [0x0A] lines] [streamOf [0x0D, 0x0A] lines] (by simp) (by simp)
      rw [iterateSseData_eq, iterateSseData_eq] at one
      simpa using one
    · intro same lfChunks crlfChunks lfBytes crlfBytes
      rw [iterateSseData_eq, iterateSseData_eq, lfBytes, crlfBytes, lf, crlf, same]
  simp only [agree, dispatch_withReturns_iff fun line mem => (no_break mem).2,
    dataOfLine_eq_none]

/-- `data: x` and a blank line: with `CRLF` the payload has a `CR` at its end. -/
theorem crlf_payload : ¬ LineEndsAgree
    [⟨[0x64, 0x61, 0x74, 0x61, 0x3A, 0x20, 0x78], by decide⟩, ⟨[], by decide⟩,
      ⟨[], by decide⟩] := by
  intro h
  have same := h [[0x64, 0x61, 0x74, 0x61, 0x3A, 0x20, 0x78, 0x0A, 0x0A]]
    [[0x64, 0x61, 0x74, 0x61, 0x3A, 0x20, 0x78, 0x0D, 0x0A, 0x0D, 0x0A]] rfl rfl
  exact absurd same (by decide)

end CrabbyKit.Bundle
