import CrabbyKit.Bundle.Reassembly

/-!
# The two stream formats

A chunk of a chat completion or an event of the Anthropic stream brings a text and fragments of
calls. Over a whole stream the iterator yields the texts and completes the calls.
-/

namespace CrabbyKit.Bundle

open List Option

/-- An element of `tool_calls` that reads as a fragment. -/
structure IsToolCallDelta (tc : Json) (f : Fragment) : Prop where
  index : tc.field "index" = some (.num f.index)
  id : (tc.field "id").bind Json.asString = f.id
  name : ((tc.field "function").bind (Json.field "name")).bind Json.asString = f.name
  arguments : ((tc.field "function").bind (Json.field "arguments")).bind Json.asString =
    f.arguments

/-- The elements of `tool_calls` in a choice. -/
def toolCallsOf (choice : Json) : List Json :=
  (((choice.field "delta").bind (Json.field "tool_calls")).bind Json.asArray).getD []

/-- A chat-completion chunk, which brings the text of its first choice and some fragments. -/
structure IsOpenAIChunk (payload : Json) (text : String) (fragments : List Fragment) : Prop where
  choices : ∃ choices, payload.field "choices" = some (.arr choices) ∧
    ((((choices.head?).bind (Json.field "delta")).bind (Json.field "content")).bind
      Json.asString).getD "" = text ∧
    List.Forall₂ IsToolCallDelta (choices.flatMap toolCallsOf) fragments
  noEvent : payload.field "type" = none

/-- What an Anthropic event brings: a block of a call, a piece of its arguments, a piece of text,
or nothing for the text and the calls. -/
inductive AnthropicEvent
  | toolUse (index : Int) (id name : String)
  | inputJson (index : Int) (partialJson : String)
  | textDelta (delta : String)
  | other
  deriving DecidableEq, Repr

def IsAnthropicEvent (payload : Json) : AnthropicEvent → Prop
  | .toolUse index id name => payload.field "type" = some (.str "content_block_start") ∧
    payload.field "index" = some (.num index) ∧ ∃ block,
      payload.field "content_block" = some block ∧ block.field "type" = some (.str "tool_use") ∧
        block.field "id" = some (.str id) ∧ block.field "name" = some (.str name)
  | .inputJson index partialJson => payload.field "type" = some (.str "content_block_delta") ∧
    payload.field "index" = some (.num index) ∧ ∃ delta, payload.field "delta" = some delta ∧
      delta.field "type" = some (.str "input_json_delta") ∧
        delta.field "partial_json" = some (.str partialJson)
  | .textDelta text => payload.field "type" = some (.str "content_block_delta") ∧
    ∃ delta, payload.field "delta" = some delta ∧
      delta.field "type" = some (.str "text_delta") ∧ delta.field "text" = some (.str text)
  | .other => ∃ type, payload.field "type" = some (.str type) ∧
    (type = "content_block_start" → ∃ block kind, payload.field "content_block" = some block ∧
      block.field "type" = some (.str kind) ∧ kind ≠ "tool_use") ∧
    (type = "content_block_delta" → ∃ delta kind, payload.field "delta" = some delta ∧
      delta.field "type" = some (.str kind) ∧ kind ≠ "input_json_delta" ∧ kind ≠ "text_delta")

def AnthropicEvent.fragments : AnthropicEvent → List Fragment
  | .toolUse index id name => [⟨index, some id, some name, none⟩]
  | .inputJson index partialJson => [⟨index, none, none, some partialJson⟩]
  | _ => []

def AnthropicEvent.text : AnthropicEvent → String
  | .textDelta delta => delta
  | _ => ""

/-- The block of a call starts once, before the pieces of its arguments. -/
def BlocksStartFirst (fragments : List Fragment) : Prop :=
  ∀ before f after, fragments = before ++ f :: after →
    (f.id.isSome ↔ ∀ g ∈ before, g.index ≠ f.index)

/-- A stream in the OpenAI delta format. -/
def OpenAIStreamed (payloads : List Json) (texts : List String) (calls : List StreamedCall) :
    Prop :=
  ∃ chunks : List (String × List Fragment),
    List.Forall₂ (fun payload chunk => IsOpenAIChunk payload chunk.1 chunk.2) payloads chunks ∧
      texts = chunks.map Prod.fst ∧ Assembles calls (chunks.flatMap Prod.snd)

def AnthropicStreamed (payloads : List Json) (texts : List String) (calls : List StreamedCall) :
    Prop :=
  ∃ events : List AnthropicEvent,
    List.Forall₂ (fun payload event => payload.field "choices" = none ∧
      IsAnthropicEvent payload event) payloads events ∧
      texts = events.map AnthropicEvent.text ∧
      Assembles calls (events.flatMap AnthropicEvent.fragments) ∧
      BlocksStartFirst (events.flatMap AnthropicEvent.fragments)

structure Brings (done : List Fragment) (payload : Json) (text : String)
    (fragments : List Fragment) : Prop where
  text : textOf payload = text
  absorbed : ∀ state, Holds done state → ∃ state',
    absorbOpenAIToolCallDeltas payload state = some state' ∧
      Holds (done ++ fragments) (absorbAnthropicToolCallEvent payload state')

theorem absorbToolCall_eq {tc : Json} {f : Fragment} (h : IsToolCallDelta tc f)
    (state : Accumulated) :
    absorbToolCall state tc = some (absorbDelta state (some f.index) f.id f.name f.arguments) := by
  have hindex : (tc.field "index").bind Json.asNumber = some f.index := by
    rw [h.index]
    rfl
  cases tc with
  | obj members => simp only [absorbToolCall, hindex, h.id, h.name, h.arguments]
  | _ => cases h.index

variable {done : List Fragment} {state : Accumulated}

variable {fragments : List Fragment}

/-- The elements of `tool_calls` add their fragments one after the other. -/
theorem holds_absorbToolCalls {tcs : List Json} (htcs : Forall₂ IsToolCallDelta tcs fragments)
    (h : Holds done state) (hconsistent : Consistent (done ++ fragments)) :
    ∃ state', tcs.foldlM absorbToolCall state = some state' ∧ Holds (done ++ fragments) state' := by
  induction htcs generalizing done state with
  | nil => exact ⟨state, rfl, (append_nil done).symm ▸ h⟩
  | @cons tc f tcs fragments htc _ ih =>
    have hsplit : done ++ f :: fragments = done ++ [f] ++ fragments := by
      rw [append_assoc, singleton_append]
    rw [hsplit] at hconsistent ⊢
    have hone : Consistent (done ++ [f]) := fun g hg k hk =>
      hconsistent g (mem_append_left _ hg) k (mem_append_left _ hk)
    obtain ⟨state', hfold, hholds⟩ := ih (holds_absorbDelta h hone) hconsistent
    refine ⟨state', ?_, hholds⟩
    rw [foldlM_cons, absorbToolCall_eq htc]
    exact hfold

variable {payload : Json}

theorem IsOpenAIChunk.brings {text : String}
    (h : IsOpenAIChunk payload text fragments) (hconsistent : Consistent (done ++ fragments)) :
    Brings done payload text fragments := by
  obtain ⟨choices, hchoices, htext, htcs⟩ := h.choices
  have hopenai : extractOpenAITextDelta payload = text := by
    rw [extractOpenAITextDelta, hchoices]
    exact htext
  have hanthropic : extractAnthropicTextDelta payload = "" := by
    rw [extractAnthropicTextDelta, h.noEvent]
    rfl
  constructor
  · rw [textOf, hopenai, hanthropic]
    by_cases hempty : text = ""
    · rw [if_neg (not_not_intro hempty), hempty]
    · rw [if_pos hempty]
  · intro state hholds
    obtain ⟨state', hfold, hholds'⟩ := holds_absorbToolCalls htcs hholds hconsistent
    have hnoEvent : absorbAnthropicToolCallEvent payload state' = state' := by
      simp only [absorbAnthropicToolCallEvent, h.noEvent]
      rfl
    refine ⟨state', ?_, hnoEvent.symm ▸ hholds'⟩
    rw [absorbOpenAIToolCallDeltas, hchoices]
    exact hfold

theorem holds_toolUse {index : Int} {id name : String}
    (hevent : IsAnthropicEvent payload (.toolUse index id name))
    (hnew : ∀ g ∈ done, g.index ≠ index) (h : Holds done state) :
    Holds (done ++ [⟨index, some id, some name, none⟩])
      (absorbAnthropicToolCallEvent payload state) := by
  obtain ⟨htype, hindex, block, hblock, hkind, hid, hname⟩ := hevent
  have hunseen : index ∉ state.byIndex.map Prod.fst := fun hmem =>
    ((h.seen index).mp hmem).elim fun g hg => hnew g hg.1 hg.2
  have hstate : absorbAnthropicToolCallEvent payload state =
      ⟨state.heap ++ [gathered [⟨index, some id, some name, none⟩]], state.byId,
        state.byIndex ++ [(index, state.heap.length)]⟩ := by
    simp only [absorbAnthropicToolCallEvent, hasText, htype, hindex, hblock, hkind, hid, hname,
      bind_some, Json.asString, Json.asNumber, Accumulated.alloc, gathered_singleton,
      mapSet_new hunseen, getD_some, getD_none, decide_true, if_true]
  rw [hstate]
  exact h.first hunseen fun entry hentry => Or.inl hentry

theorem holds_inputJson {index : Int} {partialJson : String}
    (hevent : IsAnthropicEvent payload (.inputJson index partialJson))
    (hstarted : ∃ g ∈ done, g.index = index) (h : Holds done state) :
    Holds (done ++ [⟨index, none, none, some partialJson⟩])
      (absorbAnthropicToolCallEvent payload state) := by
  obtain ⟨htype, hindex, delta, hdelta, hkind, hpiece⟩ := hevent
  obtain ⟨entry, hentry, hkey⟩ := List.mem_map.mp ((h.seen index).mpr hstarted)
  have hplace : (index, entry.2) ∈ state.byIndex := hkey ▸ hentry
  have hget : mapGet state.byIndex index = some entry.2 := (mapGet_eq_some h.nodup).mpr hplace
  have hstate : absorbAnthropicToolCallEvent payload state =
      state.write entry.2 fun a => { a with rawArgs := a.rawArgs ++ partialJson } := by
    have hother : ("content_block_delta" = "content_block_start") = False := by decide
    simp only [absorbAnthropicToolCallEvent, hasText, htype, hindex, hdelta, hkind, hpiece, hget,
      bind_some, Json.asString, Json.asNumber, Option.some.injEq, hother, decide_true,
      decide_false, if_true]
    rfl
  have hwritten := rewritten_write (h.gathered _ hplace) fun a =>
    { a with rawArgs := a.rawArgs ++ partialJson }
  have hself := hwritten.self
  have hgathered : gathered (ownFragments done index ++ [⟨index, none, none, some partialJson⟩]) =
      { gathered (ownFragments done index) with
        rawArgs := (gathered (ownFragments done index)).rawArgs ++ partialJson } := by
    rw [gathered_concat]
    simp
  rw [hstate]
  refine h.further hplace (fun e he => Or.inl he) hwritten.length ?_ hwritten.other
  rw [hgathered]
  exact hself

theorem hasText_str (value text : String) :
    hasText (some (.str value)) text = decide (value = text) := by
  rw [hasText, bind_some, Json.asString]
  exact decide_eq_decide.mpr some_inj

variable {event : AnthropicEvent}

theorem IsAnthropicEvent.text
    (h : IsAnthropicEvent payload event) : extractAnthropicTextDelta payload = event.text := by
  cases event with
  | toolUse index id name =>
    rw [extractAnthropicTextDelta, h.1, hasText_str]
    rfl
  | inputJson index partialJson =>
    obtain ⟨htype, _, delta, hdelta, hkind, _⟩ := h
    simp only [extractAnthropicTextDelta, htype, hdelta, hasText_str, bind_some, hkind]
    rfl
  | textDelta delta =>
    obtain ⟨htype, block, hdelta, hkind, htext⟩ := h
    simp only [extractAnthropicTextDelta, htype, hdelta, hasText_str, bind_some, hkind, htext]
    rfl
  | other =>
    obtain ⟨type, htype, _, hdelta⟩ := h
    rw [extractAnthropicTextDelta, htype, hasText_str]
    split
    next heq =>
      obtain ⟨delta, kind, hfield, hkind, _, hnotext⟩ := hdelta (of_decide_eq_true heq)
      simp only [hfield, bind_some, hkind, hasText_str, decide_eq_false hnotext]
      rfl
    next => rfl

theorem IsAnthropicEvent.absorb_eq
    (h : IsAnthropicEvent payload event) (hnone : event.fragments = []) (state : Accumulated) :
    absorbAnthropicToolCallEvent payload state = state := by
  cases event with
  | toolUse index id name => cases hnone
  | inputJson index partialJson => cases hnone
  | textDelta delta =>
    obtain ⟨htype, block, hdelta, hkind, _⟩ := h
    have hstart : ("content_block_delta" = "content_block_start") = False := by decide
    have hjson : ("text_delta" = "input_json_delta") = False := by decide
    simp only [absorbAnthropicToolCallEvent, htype, hdelta, hasText_str, bind_some, hkind,
      hstart, hjson, decide_false, Bool.false_eq_true, if_false]
    split
    next => split <;> rfl
    next => rfl
  | other =>
    obtain ⟨type, htype, hstart, hdelta⟩ := h
    simp only [absorbAnthropicToolCallEvent, htype, hasText_str]
    split
    next heq =>
      obtain ⟨block, kind, hfield, hkind, hne⟩ := hstart (of_decide_eq_true heq)
      simp only [hfield, bind_some, hkind, hasText_str, decide_eq_false hne,
        Bool.false_eq_true, if_false]
    next =>
      split
      next heq =>
        obtain ⟨delta, kind, hfield, hkind, hnojson, _⟩ := hdelta (of_decide_eq_true heq)
        simp only [hfield, bind_some, hkind, hasText_str, decide_eq_false hnojson,
          Bool.false_eq_true, if_false]
        split <;> rfl
      next => rfl

theorem IsAnthropicEvent.brings
    (hchoices : payload.field "choices" = none) (h : IsAnthropicEvent payload event)
    (hfirst : ∀ f ∈ event.fragments, f.id.isSome ↔ ∀ g ∈ done, g.index ≠ f.index) :
    Brings done payload event.text event.fragments := by
  have hopenai : extractOpenAITextDelta payload = "" := by
    rw [extractOpenAITextDelta, hchoices]
    rfl
  have hnoDeltas : ∀ state, absorbOpenAIToolCallDeltas payload state = some state := by
    intro state
    rw [absorbOpenAIToolCallDeltas, hchoices]
    rfl
  constructor
  · rw [textOf, hopenai, if_neg (not_not_intro rfl), h.text]
  · intro state hholds
    refine ⟨state, hnoDeltas state, ?_⟩
    cases event with
    | toolUse index id name =>
      exact holds_toolUse h ((hfirst _ mem_cons_self).mp rfl) hholds
    | inputJson index partialJson =>
      refine holds_inputJson h ?_ hholds
      by_contra hnone
      have hsome := (hfirst _ mem_cons_self).mpr fun g hg heq => hnone ⟨g, hg, heq⟩
      cases hsome
    | textDelta delta =>
      rw [h.absorb_eq rfl]
      exact (append_nil done).symm ▸ hholds
    | other =>
      rw [h.absorb_eq rfl]
      exact (append_nil done).symm ▸ hholds

/-- The payloads bring, one after the other, the texts and fragments. -/
inductive BringsAll : List Fragment → List Json → List (String × List Fragment) → Prop
  | nil (done : List Fragment) : BringsAll done [] []
  | cons {done : List Fragment} {payload : Json} {payloads : List Json} {text : String}
      {fragments : List Fragment} {chunks : List (String × List Fragment)}
      (payload_brings : Brings done payload text fragments)
      (rest : BringsAll (done ++ fragments) payloads chunks) :
      BringsAll done (payload :: payloads) ((text, fragments) :: chunks)

/-- The texts that are yielded: those that are not empty. -/
def textChunks (texts : List String) : List StreamChunk :=
  (texts.filter fun text => text ≠ "").map StreamChunk.text

variable {payloads : List Json} {chunks : List (String × List Fragment)}

theorem BringsAll.iteratePayloads (h : BringsAll done payloads chunks)
    (hholds : Holds done state) (stopReason : StopReason) :
    ∃ state' stopReason', iteratePayloads payloads state stopReason =
        (textChunks (chunks.map Prod.fst), some (state', stopReason')) ∧
      Holds (done ++ chunks.flatMap Prod.snd) state' := by
  induction h generalizing state stopReason with
  | nil done => exact ⟨state, stopReason, rfl, (append_nil done).symm ▸ hholds⟩
  | @cons done payload payloads text fragments chunks hbrings _ ih =>
    obtain ⟨state', habsorb, hholds'⟩ := hbrings.absorbed state hholds
    obtain ⟨last, reason, hrest, hlast⟩ := ih hholds' (nextStopReason stopReason payload)
    refine ⟨last, reason, ?_, ?_⟩
    · rw [Bundle.iteratePayloads, habsorb, hbrings.text, map_cons]
      dsimp only
      rw [hrest]
      by_cases hempty : text = ""
      · simp [textChunks, hempty]
      · simp [textChunks, hempty]
    · rw [flatMap_cons, ← append_assoc]
      exact hlast

theorem bringsAll_openAI
    (h : Forall₂ (fun payload chunk => IsOpenAIChunk payload chunk.1 chunk.2) payloads chunks)
    (hconsistent : Consistent (done ++ chunks.flatMap Prod.snd)) :
    BringsAll done payloads chunks := by
  induction h generalizing done with
  | nil => exact BringsAll.nil done
  | @cons payload chunk payloads chunks hchunk _ ih =>
    rw [flatMap_cons, ← append_assoc] at hconsistent
    have hone : Consistent (done ++ chunk.2) := fun g hg k hk =>
      hconsistent g (mem_append_left _ hg) k (mem_append_left _ hk)
    exact BringsAll.cons (hchunk.brings hone) (ih hconsistent)

theorem bringsAll_anthropic {events : List AnthropicEvent}
    (h : Forall₂ (fun payload event => payload.field "choices" = none ∧
      IsAnthropicEvent payload event) payloads events)
    (hstart : BlocksStartFirst (done ++ events.flatMap AnthropicEvent.fragments)) :
    BringsAll done payloads (events.map fun event => (event.text, event.fragments)) := by
  induction h generalizing done with
  | nil => exact BringsAll.nil done
  | @cons payload event payloads events hevent _ ih =>
    rw [flatMap_cons, ← append_assoc] at hstart
    refine BringsAll.cons (hevent.2.brings hevent.1 fun f hf => ?_) (ih hstart)
    -- An event has at most one fragment, which comes right behind those of the events before it.
    have hone : event.fragments = [f] := by
      cases event with
      | toolUse index id name => rw [mem_singleton.mp hf]; rfl
      | inputJson index partialJson => rw [mem_singleton.mp hf]; rfl
      | textDelta delta => cases hf
      | other => cases hf
    refine hstart done f (events.flatMap AnthropicEvent.fragments) ?_
    rw [hone, append_assoc, singleton_append]

/-- What the stream of either format says, the iterator yields: the texts in their order, then
the calls with their whole arguments. -/
theorem iterateProviderStream_yields (jsonParse : String → Option Json)
    {dataPayloads : List String} {texts : List String} {calls : List StreamedCall}
    (h : OpenAIStreamed (dataPayloads.filterMap (parsePayload jsonParse)) texts calls ∨
      AnthropicStreamed (dataPayloads.filterMap (parsePayload jsonParse)) texts calls) :
    ∃ toolCalls stopReason, iterateProviderStream jsonParse dataPayloads =
        textChunks texts ++ [.completed toolCalls stopReason] ∧
      toolCalls.Perm (calls.map (StreamedCall.parsed jsonParse)) := by
  have hbrings : ∃ chunks : List (String × List Fragment),
      BringsAll [] (dataPayloads.filterMap (parsePayload jsonParse)) chunks ∧
        texts = chunks.map Prod.fst ∧ Assembles calls (chunks.flatMap Prod.snd) := by
    rcases h with ⟨chunks, hchunks, htexts, hassembles⟩ |
      ⟨events, hevents, htexts, hassembles, hstart⟩
    · exact ⟨chunks, bringsAll_openAI hchunks hassembles.consistent, htexts, hassembles⟩
    · refine ⟨_, bringsAll_anthropic hevents hstart, ?_, ?_⟩
      · rw [htexts, List.map_map]
        rfl
      · rw [flatMap_map]
        exact hassembles
  obtain ⟨chunks, hall, rfl, hassembles⟩ := hbrings
  obtain ⟨state, stopReason, hloop, hholds⟩ := hall.iteratePayloads Holds.initial .stop
  have hcalls := finalizeToolCalls_perm hholds hassembles jsonParse
  rw [iterateProviderStream, hloop]
  exact ⟨_, _, rfl, hcalls⟩

def deltaChunk (members : List (String × Json)) : Json :=
  .obj [("choices", .arr [.obj [("delta", .obj members)]])]

/-- An element of `tool_calls`. -/
def callDelta (index : Int) (members function : List (String × Json)) : Json :=
  .obj (("index", .num index) :: members ++ [("function", .obj function)])

/-- Three chunks: a text, the first piece of a call without its id, and a second call before the
rest of the first one. -/
def sampleChunks : List (String × Json) :=
  [("\x7b\"choices\":[\x7b\"delta\":\x7b\"content\":\"Hi\"\x7d\x7d]\x7d",
      deltaChunk [("content", .str "Hi")]),
    ("\x7b\"choices\":[\x7b\"delta\":\x7b\"tool_calls\":[\x7b\"index\":0," ++
        "\"function\":\x7b\"name\":\"ls\",\"arguments\":\"[\"\x7d\x7d]\x7d\x7d]\x7d",
      deltaChunk [("tool_calls", .arr
        [callDelta 0 [] [("name", .str "ls"), ("arguments", .str "[")]])]),
    ("\x7b\"choices\":[\x7b\"delta\":\x7b\"tool_calls\":[\x7b\"index\":1,\"id\":\"b\"," ++
        "\"function\":\x7b\"name\":\"cat\"\x7d\x7d,\x7b\"index\":0,\"id\":\"a\"," ++
        "\"function\":\x7b\"arguments\":\"]\"\x7d\x7d]\x7d\x7d]\x7d",
      deltaChunk [("tool_calls", .arr
        [callDelta 1 [("id", .str "b")] [("name", .str "cat")],
          callDelta 0 [("id", .str "a")] [("arguments", .str "]")]])])]

/-- `JSON.parse` on the three chunks and on the arguments that they bring. -/
def sampleParse (text : String) : Option Json :=
  if text = "[]" then some (.arr [])
  else (sampleChunks.find? fun chunk => chunk.1 = text).map Prod.snd

/-- The two calls are put together from their interleaved pieces. -/
theorem iterateProviderStream_yields_interleaved :
    ∃ toolCalls stopReason, iterateProviderStream sampleParse
        (sampleChunks.map Prod.fst ++ ["[DONE]"]) =
        [.text "Hi", .completed toolCalls stopReason] ∧
      toolCalls.Perm [⟨"a", "ls", .obj [], "[]"⟩, ⟨"b", "cat", .obj [], ""⟩] := by
  have hparsed : (sampleChunks.map Prod.fst ++ ["[DONE]"]).filterMap (parsePayload sampleParse) =
      sampleChunks.map Prod.snd := by
    rfl
  have hstreamed : OpenAIStreamed (sampleChunks.map Prod.snd) ["Hi", "", ""]
      [⟨0, "a", "ls", "[]"⟩, ⟨1, "b", "cat", ""⟩] := by
    refine ⟨[("Hi", []), ("", [⟨0, none, some "ls", some "["⟩]),
      ("", [⟨1, some "b", some "cat", none⟩, ⟨0, some "a", none, some "]"⟩])], ?_, rfl, ?_⟩
    · refine .cons ⟨⟨_, rfl, rfl, .nil⟩, rfl⟩ (.cons ⟨⟨_, rfl, rfl, ?_⟩, rfl⟩
        (.cons ⟨⟨_, rfl, rfl, ?_⟩, rfl⟩ .nil))
      · exact .cons ⟨rfl, rfl, rfl, rfl⟩ .nil
      · exact .cons ⟨rfl, rfl, rfl, rfl⟩ (.cons ⟨rfl, rfl, rfl, rfl⟩ .nil)
    · constructor <;> decide
  exact iterateProviderStream_yields sampleParse (Or.inl (hparsed ▸ hstreamed))

end CrabbyKit.Bundle
