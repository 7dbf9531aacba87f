import CrabbyKit.Providers.ConvertMessages

/-!
# Reading the converted messages back

A text is read as its characters; half of a surrogate pair is none. The conversion never throws
and everything can be read back from it, but where a reply has both thinking and text: with
`requiresThinkingAsText` the code calls `unshift` on the text, a string, and else a signature may
name the property that holds the text or the role.
-/

namespace CrabbyKit.Providers

open List

/-- The characters of a text as their code units. -/
def characters : JsString → List JsString
  | [] => []
  | [u] => if isHighSurrogate u || isLowSurrogate u then [] else [[u]]
  | u :: v :: rest =>
    if isHighSurrogate u && isLowSurrogate v then [u, v] :: characters rest
    else if isHighSurrogate u || isLowSurrogate u then characters (v :: rest)
    else [u] :: characters (v :: rest)

variable {u : UInt16}

theorem not_low_of_high (h : isHighSurrogate u = true) : isLowSurrogate u = false := by
  simp only [isHighSurrogate, isLowSurrogate, Bool.and_eq_true, decide_eq_true_eq,
    Bool.and_eq_false_iff, decide_eq_false_iff_not, UInt16.le_iff_toNat_le] at *
  simp only [UInt16.reduceToNat] at *
  omega

theorem characters_cons (high : isHighSurrogate u = false)
    (low : isLowSurrogate u = false) (rest : JsString) :
    characters (u :: rest) = [u] :: characters rest := by
  cases rest with
  | nil => simp [characters, high, low]
  | cons v rest => simp [characters, high, low]

theorem characters_pair {v : UInt16} (high : isHighSurrogate u = true)
    (low : isLowSurrogate v = true) (rest : JsString) :
    characters (u :: v :: rest) = [u, v] :: characters rest := by
  simp [characters, high, low]

theorem characters_flatten_append (s rest : JsString) :
    characters ((characters s).flatten ++ rest) = characters s ++ characters rest := by
  induction s using characters.induct with
  | case1 => rfl
  | case2 u half => simp [characters, half]
  | case3 u whole =>
    simp only [Bool.or_eq_true, not_or, Bool.not_eq_true] at whole
    simp [characters_cons whole.1 whole.2, show characters [] = [] from rfl]
  | case4 u v s pair ih =>
    rw [Bool.and_eq_true] at pair
    simp [characters_pair pair.1 pair.2, ih]
  | case5 u v s pair half ih => simp [characters, pair, half, ih]
  | case6 u v s pair whole ih =>
    simp only [Bool.or_eq_true, not_or, Bool.not_eq_true] at whole
    simp [characters_cons whole.1 whole.2, ih]

/-- No pair is torn between a code unit and the text after it. -/
def Untorn (previous : Option UInt16) (s : JsString) : Prop :=
  previous.any isHighSurrogate = true → s.head?.any isLowSurrogate = false

/-- What is left after `sanitizeSurrogates` are the characters. -/
theorem sanitizeAfter_eq (s : JsString) :
    ∀ previous, Untorn previous s → sanitizeAfter previous s = (characters s).flatten := by
  induction s using characters.induct with
  | case1 => intro _ _; rfl
  | case2 u half =>
    intro previous untorn
    have dropped : isHighSurrogate u = true ∨
        isLowSurrogate u = true ∧ previous.any isHighSurrogate = false := by
      cases high : isHighSurrogate u with
      | true => exact .inl rfl
      | false =>
        have low : isLowSurrogate u = true := by simpa [high] using half
        refine .inr ⟨low, ?_⟩
        by_contra before
        have := untorn (by simpa using before)
        simp [low] at this
    rcases dropped with high | ⟨low, before⟩
    · simp [sanitizeAfter, characters, high]
    · simp [sanitizeAfter, characters, low, before]
  | case3 u whole =>
    intro previous _
    simp only [Bool.or_eq_true, not_or, Bool.not_eq_true] at whole
    simp [sanitizeAfter, characters, whole.1, whole.2]
  | case4 u v s pair ih =>
    intro previous _
    rw [Bool.and_eq_true] at pair
    have later : Untorn (some v) s := by
      intro high
      have := not_low_of_high (u := v) (by simpa using high)
      simp [pair.2] at this
    have notHigh : isHighSurrogate v = false := by
      by_contra high
      have := not_low_of_high (u := v) (by simpa using high)
      simp [pair.2] at this
    simp [sanitizeAfter, characters_pair pair.1 pair.2, pair.1, pair.2, not_low_of_high pair.1,
      notHigh, ih _ later]
  | case5 u v s pair half ih =>
    intro previous untorn
    have later : Untorn (some u) (v :: s) := by
      intro high
      simpa [show isHighSurrogate u = true by simpa using high] using pair
    have dropped : sanitizeAfter previous (u :: v :: s) = sanitizeAfter (some u) (v :: s) := by
      cases high : isHighSurrogate u with
      | true =>
        have notLow : isLowSurrogate v = false := by simpa [high] using pair
        rw [sanitizeAfter]
        simp [high, notLow]
      | false =>
        have low : isLowSurrogate u = true := by simpa [high] using half
        have before : previous.any isHighSurrogate = false := by
          by_contra before
          have := untorn (by simpa using before)
          simp [low] at this
        rw [sanitizeAfter]
        simp [high, low, before]
    rw [dropped, ih _ later]
    simp [characters, pair, half]
  | case6 u v s pair whole ih =>
    intro previous _
    simp only [Bool.or_eq_true, not_or, Bool.not_eq_true] at whole
    have later : Untorn (some u) (v :: s) := by
      intro high
      simp [whole.1] at high
    rw [sanitizeAfter]
    simp [whole.1, whole.2, characters_cons whole.1 whole.2, ih _ later]

theorem sanitizeSurrogates_eq (text : JsString) :
    sanitizeSurrogates text = (characters text).flatten :=
  sanitizeAfter_eq text none (by intro high; simp at high)

theorem characters_sanitizeSurrogates (text : JsString) :
    characters (sanitizeSurrogates text) = characters text := by
  rw [sanitizeSurrogates_eq, ← append_nil (characters text).flatten, characters_flatten_append]
  exact append_nil _

/-- A text as its characters, or an image. -/
inductive Shown
  | text (characters : List JsString)
  | image (url : JsString)

def ContentPart.shown : ContentPart → Shown
  | .text t => .text (characters t)
  | .imageUrl url => .image url

def ParamContent.shown : ParamContent → List Shown
  | .null => []
  | .plain t => [.text (characters t)]
  | .parts ps => ps.map ContentPart.shown

def ToolCallsField.read : ToolCallsField → List (JsString × JsString)
  | .calls cs => cs.map fun call => (call.id, call.arguments)
  | .absent => []
  | .written _ => []

def UserBlock.shown? (model : CompletionsModel) : UserBlock → Option Shown
  | .text t => some (.text (characters t))
  | .image data mimeType =>
    if model.acceptsImages then some (.image (dataUrl data mimeType)) else none

/-- What is to be read of a block of a tool result besides its text. -/
def UserBlock.image? (model : CompletionsModel) : UserBlock → Option Shown
  | .text _ => none
  | .image data mimeType =>
    if model.acceptsImages then some (.image (dataUrl data mimeType)) else none

def UserContent.expected (model : CompletionsModel) : UserContent → List Shown
  | .plain t => [.text (characters t)]
  | .blocks bs => bs.filterMap (UserBlock.shown? model)

/-- The characters of the non-blank text of a reply. -/
def AssistantMessage.said (m : AssistantMessage) : List JsString :=
  m.nonEmptyTexts.flatMap characters

def AssistantMessage.thought (m : AssistantMessage) (separator : JsString) : JsString :=
  joinWith separator (m.nonEmptyThinking.map Prod.fst)

/-- What is to be read of a reply. -/
def AssistantMessage.expected (compat : Compat) (m : AssistantMessage) : List Shown :=
  (if compat.requiresThinkingAsText ∧ m.nonEmptyThinking ≠ [] then
    [.text (characters (m.thought (js "\n\n")))] else []) ++
  (if m.said ≠ [] then [.text m.said] else [])

/-- The ids and arguments that are to be read of a reply. -/
def AssistantMessage.expectedCalls (m : AssistantMessage) : List (JsString × JsString) :=
  m.toolCalls.map fun call => (call.id, call.arguments)

/-- A tool message carries a result: its id, and its text if it has one. -/
def ConveysResult (m : ToolResultMessage) (param : Param) : Prop :=
  param.role = js "tool" ∧ param.toolCallId = some m.toolCallId ∧
    (m.textResult ≠ [] → param.content.shown = [.text (characters m.textResult)])

/-- What is pushed in a turn of the loop carries the messages of the turn: whatever is to be read
of them stands there, in the order it has in the message. -/
def Conveys (model : CompletionsModel) (compat : Compat) : Turn → List Param → Prop
  | .user content, pushed =>
    content.expected model = [] ∨
      ∃ param ∈ pushed, param.role = js "user" ∧ param.content.shown = content.expected model
  | .assistant m, pushed =>
    (m.expected compat = [] ∧ m.expectedCalls = []) ∨
      ∃ param ∈ pushed, param.role = js "assistant" ∧
        (m.expected compat).Sublist param.content.shown ∧
        param.toolCalls.read = m.expectedCalls
  | .results first rest, pushed =>
    ∃ tools later, pushed = tools ++ later ∧ List.Forall₂ ConveysResult (first :: rest) tools ∧
      ((first :: rest).flatMap fun m => m.content.filterMap (UserBlock.image? model)).Sublist
        (later.flatMap fun param => param.content.shown)

/-- Where the thinking of a reply does no harm. As text, it must be alone: the text that is there
is a string. Else the property that the first signature names must not be the content, or the
role, of a reply that has something in it. -/
def Harmless (compat : Compat) (m : AssistantMessage) : Prop :=
  if compat.requiresThinkingAsText then m.nonEmptyThinking = [] ∨ m.said = []
  else
    ∀ first ∈ m.nonEmptyThinking.head?,
      (first.2 = some (js "content") →
        m.said = [] ∨ characters (m.thought (js "\n")) = m.said) ∧
      (first.2 = some (js "role") →
        (m.said = [] ∧ m.expectedCalls = []) ∨ m.thought (js "\n") = js "assistant")

theorem shown_filteredContent (model : CompletionsModel) (bs : List UserBlock) :
    (filteredContent model bs).map ContentPart.shown = bs.filterMap (UserBlock.shown? model) := by
  unfold filteredContent
  induction bs with
  | nil => simp
  | cons b bs ih =>
    cases accepts : model.acceptsImages <;> cases b <;>
      simp_all [UserBlock.part, UserBlock.shown?, ContentPart.isImage, ContentPart.shown,
        characters_sanitizeSurrogates]

theorem convertUser_conveys (model : CompletionsModel) (content : UserContent) :
    content.expected model = [] ∨
      ∃ param, convertUser model content = some param ∧ param.role = js "user" ∧
        param.content.shown = content.expected model := by
  cases content with
  | plain t =>
    refine .inr ⟨_, rfl, rfl, ?_⟩
    simp [ParamContent.shown, UserContent.expected, characters_sanitizeSurrogates]
  | blocks bs =>
    have shown := shown_filteredContent model bs
    by_cases skipped : filteredContent model bs = []
    · left
      rw [UserContent.expected, ← shown, skipped]
      rfl
    · right
      refine ⟨{ role := js "user", content := .parts (filteredContent model bs) }, ?_, rfl, shown⟩
      simp [convertUser, skipped]

theorem convertToolResult_conveys (compat : Compat) (m : ToolResultMessage) :
    ConveysResult m (convertToolResult compat m) := by
  refine ⟨rfl, rfl, ?_⟩
  intro hasText
  have positive : m.textResult.length > 0 := length_pos_of_ne_nil hasText
  simp only [convertToolResult, if_pos positive, ParamContent.shown, characters_sanitizeSurrogates]

variable {jsonParse : JsString → Option Json}

/-- The images of tool results are those of `imageBlocks`. -/
theorem images_eq (model : CompletionsModel) (results : List ToolResultMessage) :
    (results.flatMap fun m => m.content.filterMap (UserBlock.image? model)) =
      (imageBlocks model results).map Shown.image := by
  have block (bs : List UserBlock) : bs.filterMap (UserBlock.image? model) =
      (if model.acceptsImages then bs.filterMap UserBlock.url? else []).map Shown.image := by
    induction bs with
    | nil => simp
    | cons b bs ih =>
      cases accepts : model.acceptsImages <;> cases b <;>
        simp_all [UserBlock.image?, UserBlock.url?, filterMap_cons]
  simp only [block, imageBlocks]
  split
  · exact (map_flatMap ..).symm
  · simp

theorem results_conveyed (model : CompletionsModel) (compat : Compat)
    (lastRole : Option LastRole) (first : ToolResultMessage) (rest : List ToolResultMessage) :
    ∃ pushed next,
      convertTurn jsonParse model compat lastRole (.results first rest) = .ok (pushed, next) ∧
        Conveys model compat (.results first rest) pushed := by
  have tools : Forall₂ ConveysResult (first :: rest)
      ((first :: rest).map (convertToolResult compat)) := by
    rw [forall₂_map_right_iff, forall₂_same]
    exact fun m _ => convertToolResult_conveys compat m
  by_cases images : (imageBlocks model (first :: rest)).length > 0
  · refine ⟨_, _, if_pos images, _, _, rfl, tools, ?_⟩
    rw [images_eq, flatMap_append, flatMap_singleton]
    apply Sublist.trans _ (sublist_append_right _ _)
    simp only [imageMessage, ParamContent.shown, map_cons, map_map]
    exact sublist_cons_self _ _
  · refine ⟨_, _, if_neg images, _, [], (append_nil _).symm, tools, ?_⟩
    have none : imageBlocks model (first :: rest) = [] :=
      length_eq_zero_iff.mp (Nat.eq_zero_of_not_pos images)
    rw [images_eq, none]
    exact Sublist.refl _

theorem characters_append_sanitized (s rest : JsString) :
    characters (sanitizeSurrogates s ++ rest) = characters s ++ characters rest := by
  rw [sanitizeSurrogates_eq, characters_flatten_append]

theorem characters_texts (texts : List JsString) :
    characters (texts.map sanitizeSurrogates).flatten = texts.flatMap characters := by
  induction texts with
  | nil => rfl
  | cons t texts ih =>
    rw [map_cons, flatten_cons, characters_append_sanitized, ih, flatMap_cons]

theorem flatten_eq_characters (texts : List JsString) :
    (texts.map sanitizeSurrogates).flatten = (texts.flatMap characters).flatten := by
  induction texts with
  | nil => rfl
  | cons t texts ih =>
    rw [map_cons, flatten_cons, ih, flatMap_cons, flatten_append, sanitizeSurrogates_eq]

variable {m : AssistantMessage}

theorem textContent_silent (silent : m.said = []) (compat : Compat) :
    textContent compat m = .null ∨ textContent compat m = .plain [] := by
  unfold textContent
  split
  · right
    rw [flatten_eq_characters]
    exact congrArg (fun said => ParamContent.plain said.flatten) silent
  · split
    · exact .inr rfl
    · exact .inl rfl

theorem textContent_said (said : m.said ≠ []) (compat : Compat) :
    ∃ u us, textContent compat m = .plain (u :: us) ∧ characters (u :: us) = m.said := by
  have texts : m.nonEmptyTexts.length > 0 := by
    apply length_pos_of_ne_nil
    intro none
    exact said (by rw [AssistantMessage.said, none]; rfl)
  rw [textContent, if_pos texts]
  have chars : characters (m.nonEmptyTexts.map sanitizeSurrogates).flatten = m.said :=
    characters_texts m.nonEmptyTexts
  cases text : (m.nonEmptyTexts.map sanitizeSurrogates).flatten with
  | nil =>
    rw [text] at chars
    exact absurd chars.symm said
  | cons u us => exact ⟨u, us, rfl, text ▸ chars⟩

@[simp] theorem addToolCalls_role (calls : List ToolCall) (param : Param) :
    (addToolCalls jsonParse calls param).role = param.role := by
  unfold addToolCalls
  split
  · dsimp only
    split <;> rfl
  · rfl

@[simp] theorem addToolCalls_content (calls : List ToolCall) (param : Param) :
    (addToolCalls jsonParse calls param).content = param.content := by
  unfold addToolCalls
  split
  · dsimp only
    split <;> rfl
  · rfl

variable {param : Param}

theorem addToolCalls_read (before : param.toolCalls.read = []) (calls : List ToolCall) :
    (addToolCalls jsonParse calls param).toolCalls.read =
      calls.map fun call => (call.id, call.arguments) := by
  unfold addToolCalls
  split
  · dsimp only
    split <;> simp [ToolCallsField.read]
  · next none =>
    rw [before, length_eq_zero_iff.mp (Nat.eq_zero_of_not_pos none), map_nil]

/-- What the text of a reply is to be read as. -/
def AssistantMessage.spoken (m : AssistantMessage) : List Shown :=
  if m.said ≠ [] then [.text m.said] else []

theorem spoken_nil_of_empty {content : ParamContent}
    (empty : content.hasContent = false) (shown : m.spoken.Sublist content.shown) :
    m.spoken = [] := by
  by_contra some
  have said : m.said ≠ [] := by
    intro none
    simp [AssistantMessage.spoken, none] at some
  rw [AssistantMessage.spoken, if_pos said, singleton_sublist] at shown
  cases content with
  | null => simp [ParamContent.shown] at shown
  | plain t =>
    have nil : t = [] := by simpa [ParamContent.hasContent] using empty
    simp [ParamContent.shown, nil, characters, said] at shown
  | parts ps =>
    have nil : ps = [] := by simpa [ParamContent.hasContent] using empty
    simp [ParamContent.shown, nil] at shown

/-- A turn with a reply carries it: what the model is given, and what can be read of it. -/
def ReplyConveyed (jsonParse : JsString → Option Json) (model : CompletionsModel)
    (compat : Compat) (lastRole : Option LastRole) (m : AssistantMessage) : Prop :=
  ∃ pushed next, convertTurn jsonParse model compat lastRole (.assistant m) = .ok (pushed, next) ∧
    Conveys model compat (.assistant m) pushed

variable {compat : Compat}

theorem replyConveyed_iff
    (added : addThinking compat m.nonEmptyThinking
      { role := js "assistant", content := textContent compat m } = .ok param)
    (noCalls : param.toolCalls.read = [])
    (empty : param.content.hasContent = false →
      (m.expected compat).Sublist param.content.shown → m.expected compat = [])
    (model : CompletionsModel) (lastRole : Option LastRole) :
    ReplyConveyed jsonParse model compat lastRole m ↔
      (m.expected compat = [] ∧ m.expectedCalls = []) ∨
        param.role = js "assistant" ∧ (m.expected compat).Sublist param.content.shown := by
  have read : (addToolCalls jsonParse m.toolCalls param).toolCalls.read = m.expectedCalls :=
    addToolCalls_read noCalls m.toolCalls
  by_cases skipped : !param.content.hasContent &&
      (addToolCalls jsonParse m.toolCalls param).toolCalls = .absent
  · have turn : convertTurn jsonParse model compat lastRole (.assistant m) =
        .ok ([], lastRole) := by
      simp [convertTurn, convertAssistant, added, skipped]
    simp only [Bool.and_eq_true, Bool.not_eq_true', decide_eq_true_eq] at skipped
    constructor
    · rintro ⟨pushed, next, ran, carried⟩
      rw [turn] at ran
      injection ran with ran
      injection ran with nothing _
      subst nothing
      rcases carried with nothing | ⟨p, mem, _⟩
      · exact .inl nothing
      · exact absurd mem not_mem_nil
    · rintro (nothing | ⟨_, shown⟩)
      · exact ⟨_, _, turn, .inl nothing⟩
      · refine ⟨_, _, turn, .inl ⟨empty skipped.1 shown, ?_⟩⟩
        rw [← read, skipped.2]
        rfl
  · have turn : convertTurn jsonParse model compat lastRole (.assistant m) =
        .ok ([addToolCalls jsonParse m.toolCalls param], some .assistant) := by
      simp [convertTurn, convertAssistant, added, skipped]
    constructor
    · rintro ⟨pushed, next, ran, carried⟩
      rw [turn] at ran
      injection ran with ran
      injection ran with pushes _
      subst pushes
      rcases carried with nothing | ⟨p, mem, role, shown, _⟩
      · exact .inl nothing
      · rw [mem_singleton] at mem
        subst mem
        rw [addToolCalls_role] at role
        rw [addToolCalls_content] at shown
        exact .inr ⟨role, shown⟩
    · rintro (nothing | ⟨role, shown⟩)
      · exact ⟨_, _, turn, .inl nothing⟩
      · exact ⟨_, _, turn, .inr ⟨_, mem_singleton_self _, by simpa using role,
          by simpa using shown, read⟩⟩

theorem write_role (param : Param) (key value : JsString) :
    (param.write key value).role = if key = js "role" then value else param.role := by
  unfold Param.write
  split
  · rfl
  · split_ifs <;> rfl

theorem write_content (param : Param) (key value : JsString) :
    (param.write key value).content =
      if key = js "content" then .plain value else param.content := by
  unfold Param.write
  by_cases role : key = js "role"
  · have other : js "role" ≠ js "content" := by decide
    rw [if_pos role, role, if_neg other]
  · rw [if_neg role]
    split_ifs <;> rfl

theorem write_read (noCalls : param.toolCalls.read = []) (key value : JsString) :
    (param.write key value).toolCalls.read = [] := by
  unfold Param.write
  split_ifs
  all_goals first | exact noCalls | rfl

theorem spoken_textContent (m : AssistantMessage) (compat : Compat) :
    m.spoken.Sublist (textContent compat m).shown := by
  by_cases said : m.said = []
  · simp [AssistantMessage.spoken, said]
  · obtain ⟨u, us, content, chars⟩ := textContent_said said compat
    simp [AssistantMessage.spoken, said, content, ParamContent.shown, chars]

theorem expected_eq_spoken (h : compat.requiresThinkingAsText = false ∨ m.nonEmptyThinking = []) :
    m.expected compat = m.spoken := by
  rw [AssistantMessage.expected, if_neg, nil_append, AssistantMessage.spoken]
  rintro ⟨asText, thinking⟩
  rcases h with plain | none
  · simp [plain] at asText
  · exact thinking none

theorem replyConveyed_of_unchanged
    (plain : compat.requiresThinkingAsText = false ∨ m.nonEmptyThinking = [])
    (added : addThinking compat m.nonEmptyThinking
      { role := js "assistant", content := textContent compat m } =
        .ok { role := js "assistant", content := textContent compat m })
    (model : CompletionsModel) (lastRole : Option LastRole) :
    ReplyConveyed jsonParse model compat lastRole m := by
  rw [replyConveyed_iff added rfl]
  · rw [expected_eq_spoken plain]
    exact .inr ⟨rfl, spoken_textContent m compat⟩
  · rw [expected_eq_spoken plain]
    exact spoken_nil_of_empty

theorem replyConveyed_asText
    (asText : compat.requiresThinkingAsText = true) (thinking : m.nonEmptyThinking ≠ [])
    (model : CompletionsModel) (lastRole : Option LastRole) :
    ReplyConveyed jsonParse model compat lastRole m ↔ m.said = [] := by
  obtain ⟨⟨first, signature⟩, rest, cons⟩ := exists_cons_of_ne_nil thinking
  have thought : m.thought (js "\n\n") = joinWith (js "\n\n") (first :: rest.map Prod.fst) := by
    rw [AssistantMessage.thought, cons, map_cons]
  by_cases said : m.said = []
  · have added : addThinking compat m.nonEmptyThinking
        { role := js "assistant", content := textContent compat m } =
          .ok { role := js "assistant"
                content := .parts [.text (m.thought (js "\n\n"))] } := by
      rw [cons, thought]
      rcases textContent_silent said compat with start | start <;>
        simp [addThinking, asText, start]
    have expected : m.expected compat = [.text (characters (m.thought (js "\n\n")))] := by
      simp [AssistantMessage.expected, asText, thinking, said]
    rw [replyConveyed_iff added rfl]
    · rw [expected]
      exact iff_of_true (.inr ⟨rfl, Sublist.refl _⟩) said
    · intro empty
      exact absurd empty (by simp [ParamContent.hasContent])
  · apply iff_of_false _ said
    rintro ⟨pushed, next, ran, _⟩
    obtain ⟨u, us, content, _⟩ := textContent_said said compat
    rw [convertTurn, convertAssistant] at ran
    simp [addThinking, cons, asText, content] at ran

theorem replyConveyed_written
    {first signature : JsString} {rest : List (JsString × Option JsString)}
    (plain : compat.requiresThinkingAsText = false)
    (cons : m.nonEmptyThinking = (first, some signature) :: rest) (some : signature ≠ [])
    (model : CompletionsModel) (lastRole : Option LastRole) :
    ReplyConveyed jsonParse model compat lastRole m ↔
      (signature = js "content" →
        m.said = [] ∨ characters (m.thought (js "\n")) = m.said) ∧
      (signature = js "role" →
        (m.said = [] ∧ m.expectedCalls = []) ∨ m.thought (js "\n") = js "assistant") := by
  have thought : m.thought (js "\n") = joinWith (js "\n") (first :: rest.map Prod.fst) := by
    rw [AssistantMessage.thought, cons, map_cons]
  have added : addThinking compat m.nonEmptyThinking
      { role := js "assistant", content := textContent compat m } =
        .ok (({ role := js "assistant", content := textContent compat m } : Param).write signature
          (m.thought (js "\n"))) := by
    obtain ⟨u, us, name⟩ := exists_cons_of_ne_nil some
    simp [addThinking, cons, thought, plain, name]
  have nothing : m.spoken = [] ↔ m.said = [] := by
    by_cases said : m.said = [] <;> simp [AssistantMessage.spoken, said]
  rw [replyConveyed_iff added (write_read rfl _ _)]
  · rw [expected_eq_spoken (.inl plain), write_role, write_content, nothing]
    have other : js "role" ≠ js "content" := by decide
    by_cases role : signature = js "role"
    · simp [role, other, spoken_textContent m compat]
    · by_cases content : signature = js "content"
      · have heard : m.spoken.Sublist [.text (characters (m.thought (js "\n")))] ↔
            m.said = [] ∨ characters (m.thought (js "\n")) = m.said := by
          by_cases said : m.said = []
          · simp [AssistantMessage.spoken, said]
          · simp [AssistantMessage.spoken, said, eq_comm (a := m.said)]
        simp only [content, other.symm, if_true, if_false, ParamContent.shown, heard,
          true_imp_iff, false_imp_iff, and_true, true_and]
        exact ⟨fun h => h.elim (fun nothing => .inl nothing.1) id, .inr⟩
      · simp [role, content, spoken_textContent m compat]
  · rw [expected_eq_spoken (.inl plain)]
    exact spoken_nil_of_empty

theorem replyConveyed_iff_harmless (model : CompletionsModel) (compat : Compat)
    (lastRole : Option LastRole) (m : AssistantMessage) :
    ReplyConveyed jsonParse model compat lastRole m ↔ Harmless compat m := by
  unfold Harmless
  cases thinking : m.nonEmptyThinking with
  | nil =>
    apply iff_of_true
    · apply replyConveyed_of_unchanged (.inr thinking)
      rw [thinking]
      rfl
    · simp
  | cons first rest =>
    obtain ⟨first, signature⟩ := first
    cases asText : compat.requiresThinkingAsText with
    | true =>
      rw [replyConveyed_asText asText (by simp [thinking])]
      simp
    | false =>
      by_cases signed : signature = none ∨ signature = some []
      · have added : addThinking compat m.nonEmptyThinking
            { role := js "assistant", content := textContent compat m } =
              .ok { role := js "assistant", content := textContent compat m } := by
          rcases signed with none | empty
          · simp [addThinking, thinking, asText, none]
          · simp [addThinking, thinking, asText, empty]
        have noKey : ∀ key, key ≠ [] → signature ≠ some key := by
          rintro key some rfl
          rcases signed with none | empty
          · exact absurd none (by simp)
          · exact some (Option.some.inj empty)
        apply iff_of_true (replyConveyed_of_unchanged (.inl asText) added model lastRole)
        simp [noKey (js "content") (by decide), noKey (js "role") (by decide)]
      · rw [not_or] at signed
        obtain ⟨key, rfl⟩ := Option.ne_none_iff_exists'.mp signed.1
        have named : key ≠ [] := fun empty => signed.2 (congrArg some empty)
        rw [replyConveyed_written asText thinking named]
        simp

theorem turn_conveyed_iff (model : CompletionsModel) (compat : Compat)
    (lastRole : Option LastRole) (turn : Turn) :
    (∃ pushed next, convertTurn jsonParse model compat lastRole turn = .ok (pushed, next) ∧
      Conveys model compat turn pushed) ↔ ∀ m, turn = .assistant m → Harmless compat m := by
  cases turn with
  | user content =>
    apply iff_of_true
    · rw [convertTurn]
      cases converted : convertUser model content with
      | none =>
        refine ⟨_, _, rfl, .inl ?_⟩
        rcases convertUser_conveys model content with nothing | ⟨param, some, _⟩
        · exact nothing
        · rw [converted] at some
          cases some
      | some param =>
        refine ⟨_, _, rfl, ?_⟩
        rcases convertUser_conveys model content with nothing | ⟨param', some, role, shown⟩
        · exact .inl nothing
        · rw [converted] at some
          cases some
          exact .inr ⟨param, by simp, role, shown⟩
    · simp
  | assistant m =>
    have reply : ReplyConveyed jsonParse model compat lastRole m ↔ Harmless compat m :=
      replyConveyed_iff_harmless model compat lastRole m
    constructor
    · rintro carried _ ⟨⟩
      exact reply.mp carried
    · intro harmless
      exact reply.mpr (harmless m rfl)
  | results first rest =>
    apply iff_of_true
    · exact results_conveyed model compat lastRole first rest
    · simp

theorem convertTurns_cons {model : CompletionsModel}
    {lastRole : Option LastRole} {turn : Turn} {ts : List Turn} {pushed : List (List Param)} :
    convertTurns jsonParse model compat lastRole (turn :: ts) = .ok pushed ↔
      ∃ head next tail, convertTurn jsonParse model compat lastRole turn = .ok (head, next) ∧
        convertTurns jsonParse model compat next ts = .ok tail ∧ pushed = head :: tail := by
  rw [convertTurns]
  cases one : convertTurn jsonParse model compat lastRole turn with
  | error e => simp
  | ok result =>
    obtain ⟨head, next⟩ := result
    cases later : convertTurns jsonParse model compat next ts with
    | error e =>
      constructor
      · intro ran
        simp [later, Except.map] at ran
      · rintro ⟨_, _, _, ⟨⟩, ran, _⟩
        rw [later] at ran
        cases ran
    | ok tail =>
      simp only [later, Except.map, Except.ok.injEq]
      constructor
      · intro pushes
        exact ⟨head, next, tail, rfl, later, pushes.symm⟩
      · rintro ⟨_, _, _, ⟨⟩, ran, pushes⟩
        rw [later] at ran
        cases ran
        exact pushes.symm

theorem turns_conveyed_iff (model : CompletionsModel) (compat : Compat) (ts : List Turn) :
    ∀ lastRole, (∃ pushed, convertTurns jsonParse model compat lastRole ts = .ok pushed ∧
      Forall₂ (Conveys model compat) ts pushed) ↔ ∀ m, .assistant m ∈ ts → Harmless compat m := by
  induction ts with
  | nil =>
    intro lastRole
    exact iff_of_true ⟨[], rfl, .nil⟩ (by simp)
  | cons turn ts ih =>
    intro lastRole
    constructor
    · rintro ⟨pushed, ran, carried⟩ m mem
      obtain ⟨head, next, tail, one, later, rfl⟩ := convertTurns_cons.mp ran
      rw [forall₂_cons] at carried
      rcases mem_cons.mp mem with here | there
      · exact (turn_conveyed_iff model compat lastRole turn).mp
          ⟨head, next, one, carried.1⟩ m here.symm
      · exact (ih next).mp ⟨tail, later, carried.2⟩ m there
    · intro harmless
      obtain ⟨head, next, one, first⟩ := (turn_conveyed_iff model compat lastRole turn).mpr
        fun m here => harmless m (here ▸ mem_cons_self)
      obtain ⟨tail, later, others⟩ :=
        (ih next).mpr fun m there => harmless m (mem_cons_of_mem _ there)
      exact ⟨head :: tail, convertTurns_cons.mpr ⟨head, next, tail, one, later, rfl⟩,
        .cons first others⟩

theorem mem_turns {messages : List ReadyMessage} :
    .assistant m ∈ turns messages ↔ .assistant m ∈ messages := by
  induction messages with
  | nil => simp [turns]
  | cons message rest ih =>
    cases message with
    | user content => simp [turns, ih]
    | assistant other => simp [turns, ih]
    | toolResult result =>
      rw [turns]
      split
      · next next more later grouped => simpa [grouped] using ih
      · simpa using ih

/-- The conversion returns, and what its turns push carries the messages of the history. -/
def CarriesAll (jsonParse : JsString → Option Json) (model : CompletionsModel) (compat : Compat)
    (systemPrompt : Option JsString) (transformedMessages : List ReadyMessage) : Prop :=
  ∃ pushed, convertTurns jsonParse model compat none (turns transformedMessages) = .ok pushed ∧
    convertMessages jsonParse model compat systemPrompt transformedMessages =
      .ok (systemParams model compat systemPrompt ++ pushed.flatten) ∧
    List.Forall₂ (Conveys model compat) (turns transformedMessages) pushed

/-- The conversion loses nothing if and only if no reply has thinking that does harm. -/
theorem carriesAll_iff (model : CompletionsModel) (compat : Compat)
    (systemPrompt : Option JsString) (transformedMessages : List ReadyMessage) :
    CarriesAll jsonParse model compat systemPrompt transformedMessages ↔
      ∀ m, .assistant m ∈ transformedMessages → Harmless compat m := by
  simp only [← mem_turns, ← @turns_conveyed_iff jsonParse model compat _ none]
  constructor
  · rintro ⟨pushed, ran, _, carried⟩
    exact ⟨pushed, ran, carried⟩
  · rintro ⟨pushed, ran, carried⟩
    refine ⟨pushed, ran, ?_, carried⟩
    rw [convertMessages, ran]
    rfl

/-- A reply with thinking and text, from the model that is called. -/
def thoughtful : AssistantMessage where
  content := [.thinking (js "hmm") none false, .text (js "hi") none]
  api := js "openai-completions"
  provider := js "mistral"
  model := js "small"
  stopReason := .stop
  timestamp := 0

/-- `requiresThinkingAsText` with text beside the thinking: the conversion throws. -/
theorem convertMessages_throws :
    ¬ CarriesAll (fun _ => none) ⟨true, true⟩
        { supportsDeveloperRole := true
          requiresToolResultName := false
          requiresAssistantAfterToolResult := false
          requiresThinkingAsText := true } none
        ((transformMessages 0 [.assistant thoughtful]
          ⟨js "small", js "openai-completions", js "mistral"⟩ none).map Message.ready) ∧
      convertMessages (fun _ => none) ⟨true, true⟩
        { supportsDeveloperRole := true
          requiresToolResultName := false
          requiresAssistantAfterToolResult := false
          requiresThinkingAsText := true } none
        ((transformMessages 0 [.assistant thoughtful]
          ⟨js "small", js "openai-completions", js "mistral"⟩ none).map Message.ready) =
        .error (.typeError "textContent.unshift is not a function") := by
  have throws : convertMessages (fun _ => none) ⟨true, true⟩
        { supportsDeveloperRole := true
          requiresToolResultName := false
          requiresAssistantAfterToolResult := false
          requiresThinkingAsText := true } none
        ((transformMessages 0 [.assistant thoughtful]
          ⟨js "small", js "openai-completions", js "mistral"⟩ none).map Message.ready) =
        .error (.typeError "textContent.unshift is not a function") := rfl
  refine ⟨?_, throws⟩
  rintro ⟨pushed, _, ran, _⟩
  rw [throws] at ran
  cases ran

end CrabbyKit.Providers
