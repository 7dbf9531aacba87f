import CrabbyKit.Compaction.Truncate
import Mathlib.Data.List.Infix

/-!
# Truncating tool output

The `beforeInference` hook of `tool-output-truncation/src/capability.ts`. A text is its UTF-16 code
units; the products with 3.5 and 0.4 are exact, as they are in doubles for texts that fit a memory.
-/

namespace CrabbyKit.ToolOutput

open List

open Compaction (codeUnits sliceIndex)

/-- `ToolOutputTruncationConfig`, as its schema admits it. -/
structure ToolOutputTruncationConfig where
  maxTokens : Nat
  minimum : 1000 ≤ maxTokens

/-- `Math.ceil(text.length / CHARS_PER_TOKEN)`. -/
def estimateTextTokens (text : List UInt16) : Nat := (2 * text.length + 6) / 7

def truncationMarker : List UInt16 := codeUnits "[... truncated"

/-- What stands between the two parts that are kept. -/
def notice (removed maxTokens estimatedTokens : Nat) : List UInt16 :=
  codeUnits "\n\n" ++ truncationMarker ++ codeUnits (" " ++ toString removed ++ " tokens, " ++
    toString maxTokens ++ " of " ++ toString estimatedTokens ++ " kept ...]\n\n")

def truncateText (text : List UInt16) (maxTokens : Nat) : List UInt16 :=
  let estimatedTokens := estimateTextTokens text
  if estimatedTokens ≤ maxTokens then text
  else if truncationMarker <:+: text then text
  else
    let maxChars := maxTokens * 7 / 2
    let headChars := maxChars * 2 / 5
    let tailChars := maxChars * 2 / 5
    text.take headChars ++ notice (estimatedTokens - maxTokens) maxTokens estimatedTokens ++
      text.drop (sliceIndex text.length (-(tailChars : Int)))

/-- A block of a content list: one whose `text` is a string, with its other fields, or any other. -/
inductive Block (β : Type*)
  | text (text : List UInt16) (rest : β)
  | other (block : β)

/-- The `content` of a message. -/
inductive Content (β : Type*)
  | plain (text : List UInt16)
  | blocks (blocks : List (Block β))
  | other (content : β)

/-- A message, as far as the hook reads it, with the fields that it copies. -/
structure Message (β μ : Type*) where
  role : String
  content : Content β
  /-- `details?.skipTruncation === true`. -/
  skipTruncation : Bool
  rest : μ

variable {β μ : Type*}

def isToolResult (message : Message β μ) : Bool :=
  message.role = "tool" || message.role = "toolResult"

def truncateBlock (maxTokens : Nat) : Block β → Block β
  | .text text rest => .text (truncateText text maxTokens) rest
  | .other block => .other block

/-- Whether a block sets `changed`. -/
def Block.changes (maxTokens : Nat) : Block β → Bool
  | .text content _ => truncateText content maxTokens ≠ content
  | .other _ => false

def truncateMessageContent (message : Message β μ) (maxTokens : Nat) : Message β μ :=
  match message.content with
  | .plain text =>
    let truncated := truncateText text maxTokens
    if truncated = text then message else { message with content := .plain truncated }
  | .blocks blocks =>
    if blocks.any (Block.changes maxTokens) then
      { message with content := .blocks (blocks.map (truncateBlock maxTokens)) }
    else message
  | .other _ => message

/-- The hook. -/
def beforeInference (config : ToolOutputTruncationConfig) (messages : List (Message β μ)) :
    List (Message β μ) :=
  messages.map fun message =>
    if !isToolResult message then message
    else if message.skipTruncation then message
    else truncateMessageContent message config.maxTokens

def Block.texts : Block β → List (List UInt16)
  | .text content _ => [content]
  | .other _ => []

def Message.texts (message : Message β μ) : List (List UInt16) :=
  match message.content with
  | .plain text => [text]
  | .blocks blocks => blocks.flatMap Block.texts
  | .other _ => []

def Block.mapText (f : List UInt16 → List UInt16) : Block β → Block β
  | .text content rest => .text (f content) rest
  | .other block => .other block

def Message.mapTexts (f : List UInt16 → List UInt16) (message : Message β μ) : Message β μ :=
  { message with content := match message.content with
    | .plain text => .plain (f text)
    | .blocks blocks => .blocks (blocks.map (Block.mapText f))
    | .other content => .other content }

/-- A tool result without `skipTruncation`. -/
def Message.Truncatable (message : Message β μ) : Prop :=
  isToolResult message = true ∧ message.skipTruncation = false

instance (message : Message β μ) : Decidable message.Truncatable :=
  inferInstanceAs (Decidable (_ ∧ _))

/-- What becomes of a text under a limit. -/
structure Truncated (maxTokens : Nat) (text result : List UInt16) : Prop where
  bounded : estimateTextTokens result ≤ maxTokens
  fits : estimateTextTokens text ≤ maxTokens → result = text
  cut : result ≠ text → ∃ front middle back, text = front ++ middle ++ back ∧
    result = front ++ notice (estimateTextTokens text - maxTokens) maxTokens
      (estimateTextTokens text) ++ back

structure TruncationLaw (config : ToolOutputTruncationConfig) (messages : List (Message β μ)) :
    Prop where
  /-- The texts of truncatable messages change, and nothing else does. -/
  hooked : ∃ f : List UInt16 → List UInt16,
    beforeInference config messages = messages.map (fun message =>
      if message.Truncatable then message.mapTexts f else message) ∧
    ∀ message ∈ messages, message.Truncatable → ∀ text ∈ message.texts,
      Truncated config.maxTokens text (f text)
  again : beforeInference config (beforeInference config messages) =
    beforeInference config messages

section Text

variable {text : List UInt16} {maxTokens : Nat}

theorem estimateTextTokens_le_iff : estimateTextTokens text ≤ maxTokens ↔
    2 * text.length ≤ 7 * maxTokens := by
  unfold estimateTextTokens
  omega

theorem length_codeUnits_le (text : String) : (codeUnits text).length ≤ 2 * text.length := by
  unfold codeUnits
  rw [← String.length_toList]
  induction text.toList with
  | nil => rfl
  | cons c rest ih =>
    have hunits : (Compaction.unitsOf c).length ≤ 2 := by
      unfold Compaction.unitsOf
      split <;> simp
    rw [flatMap_cons, length_append, length_cons]
    omega

theorem length_toString_le {n : Nat} (h : n < 2 ^ 53) : (toString n).length ≤ 16 := by
  rw [Nat.toString_eq_ofList_toDigits, String.length_ofList,
    Nat.length_toDigits_le_iff (by decide) (by decide)]
  omega

theorem length_notice_le {removed estimated : Nat} (hremoved : removed < 2 ^ 53)
    (hmax : maxTokens < 2 ^ 53) (hestimated : estimated < 2 ^ 53) :
    (notice removed maxTokens estimated).length ≤ 200 := by
  have hfront : (codeUnits "\n\n" ++ truncationMarker).length = 16 := by decide
  have hback := length_codeUnits_le (" " ++ toString removed ++ " tokens, " ++
    toString maxTokens ++ " of " ++ toString estimated ++ " kept ...]\n\n")
  have hdigits := length_toString_le hremoved
  have hdigits' := length_toString_le hmax
  have hdigits'' := length_toString_le hestimated
  rw [notice, length_append, hfront]
  simp only [String.length_append] at hback
  have hspace : " ".length = 1 := rfl
  have htokens : " tokens, ".length = 9 := rfl
  have hof : " of ".length = 4 := rfl
  have hkept : " kept ...]\n\n".length = 12 := rfl
  omega

theorem truncationMarker_infix_notice (removed estimated : Nat) :
    truncationMarker <:+: notice removed maxTokens estimated := ⟨_, _, rfl⟩

theorem truncateText_of_fits (h : estimateTextTokens text ≤ maxTokens) :
    truncateText text maxTokens = text := if_pos h

theorem truncateText_of_marked (h : truncationMarker <:+: text) :
    truncateText text maxTokens = text := by
  simp only [truncateText, if_pos h, ite_self]

theorem truncateText_cut (hlimit : 1000 ≤ maxTokens) (hlong : maxTokens < estimateTextTokens text)
    (hplain : ¬ truncationMarker <:+: text) :
    ∃ front middle back, text = front ++ middle ++ back ∧
      truncateText text maxTokens = front ++ notice (estimateTextTokens text - maxTokens) maxTokens
        (estimateTextTokens text) ++ back ∧ front.length + back.length ≤ 14 * maxTokens / 5 := by
  have hlength : 7 * maxTokens < 2 * text.length := by
    rw [← not_le, ← estimateTextTokens_le_iff]
    exact not_le_of_gt hlong
  generalize hkept : maxTokens * 7 / 2 * 2 / 5 = kept
  have hindex : sliceIndex text.length (-(kept : Int)) = text.length - kept := by
    simp only [sliceIndex]
    split_ifs <;> omega
  refine ⟨text.take kept, (text.drop kept).take (text.length - kept - kept),
    text.drop (text.length - kept), ?_, ?_, ?_⟩
  · have hlater : text.drop (text.length - kept) =
        (text.drop kept).drop (text.length - kept - kept) := by
      rw [drop_drop]
      congr 1
      omega
    rw [hlater, append_assoc, take_append_drop, take_append_drop]
  · simp only [truncateText, if_neg (not_le_of_gt hlong), if_neg hplain, hkept, hindex]
  · rw [length_take, length_drop]
    omega

theorem truncated_truncateText_iff (hlimit : 1000 ≤ maxTokens) (hsize : text.length < 2 ^ 53) :
    Truncated maxTokens text (truncateText text maxTokens) ↔
      (truncationMarker <:+: text → estimateTextTokens text ≤ maxTokens) := by
  constructor
  · intro h hmarked
    have hbounded := h.bounded
    rwa [truncateText_of_marked hmarked] at hbounded
  · intro h
    by_cases hfits : estimateTextTokens text ≤ maxTokens
    · have hsame := truncateText_of_fits hfits
      exact ⟨by rwa [hsame], fun _ => hsame, fun hne => absurd hsame hne⟩
    · obtain ⟨front, middle, back, htext, hresult, hlength⟩ :=
        truncateText_cut hlimit (lt_of_not_ge hfits) fun hmarked => hfits (h hmarked)
      refine ⟨?_, fun hle => absurd hle hfits, fun _ => ⟨front, middle, back, htext, hresult⟩⟩
      have hestimated : estimateTextTokens text < 2 ^ 53 := by
        unfold estimateTextTokens
        omega
      have hnotice : (notice (estimateTextTokens text - maxTokens) maxTokens
          (estimateTextTokens text)).length ≤ 200 :=
        length_notice_le (by omega) (by omega) hestimated
      rw [hresult, estimateTextTokens_le_iff, length_append, length_append]
      omega

theorem truncateText_again (hlimit : 1000 ≤ maxTokens) :
    truncateText (truncateText text maxTokens) maxTokens = truncateText text maxTokens := by
  by_cases hfits : estimateTextTokens text ≤ maxTokens
  · rw [truncateText_of_fits hfits, truncateText_of_fits hfits]
  · by_cases hmarked : truncationMarker <:+: text
    · rw [truncateText_of_marked hmarked, truncateText_of_marked hmarked]
    · obtain ⟨front, middle, back, -, hresult, -⟩ :=
        truncateText_cut hlimit (lt_of_not_ge hfits) hmarked
      apply truncateText_of_marked
      rw [hresult]
      exact (truncationMarker_infix_notice _ _).trans ⟨front, back, rfl⟩

end Text

variable {f : List UInt16 → List UInt16}

theorem mapText_eq_self {block : Block β}
    (h : ∀ text ∈ block.texts, f text = text) : block.mapText f = block := by
  cases block with
  | text text rest => exact congrArg (Block.text · rest) (h text (mem_singleton_self _))
  | other block => rfl

variable {message : Message β μ}

theorem mapTexts_eq_self
    (h : ∀ text ∈ message.texts, f text = text) : message.mapTexts f = message := by
  obtain ⟨role, content, skipTruncation, rest⟩ := message
  cases content with
  | plain text =>
    have hsame : f text = text := h text (mem_singleton_self _)
    simp only [Message.mapTexts, hsame]
  | blocks blocks =>
    have hsame : blocks.map (Block.mapText f) = blocks :=
      (map_congr_left fun block hblock => mapText_eq_self fun text htext =>
        h text (mem_flatMap.mpr ⟨block, hblock, htext⟩)).trans (map_id blocks)
    simp only [Message.mapTexts, hsame]
  | other content => rfl

theorem truncateMessageContent_eq (message : Message β μ) (maxTokens : Nat) :
    truncateMessageContent message maxTokens = message.mapTexts (truncateText · maxTokens) := by
  obtain ⟨role, content, skipTruncation, rest⟩ := message
  cases content with
  | plain text =>
    simp only [truncateMessageContent, Message.mapTexts]
    split_ifs with hsame
    · rw [hsame]
    · rfl
  | blocks blocks =>
    have hblock : (truncateBlock maxTokens : Block β → Block β) =
        Block.mapText (truncateText · maxTokens) := by
      funext block
      cases block <;> rfl
    simp only [truncateMessageContent, hblock]
    split_ifs with hchanged
    · rfl
    · refine (mapTexts_eq_self fun text htext => ?_).symm
      obtain ⟨block, hblock, htext⟩ := mem_flatMap.mp htext
      cases block with
      | text content rest =>
        obtain rfl := mem_singleton.mp htext
        by_contra hne
        exact hchanged (any_eq_true.mpr ⟨_, hblock, decide_eq_true hne⟩)
      | other block => cases htext
  | other content => rfl

theorem beforeInference_eq (config : ToolOutputTruncationConfig) (messages : List (Message β μ)) :
    beforeInference config messages = messages.map fun message =>
      if message.Truncatable then message.mapTexts (truncateText · config.maxTokens)
      else message := by
  refine map_congr_left fun message _ => ?_
  rw [truncateMessageContent_eq]
  by_cases htruncatable : message.Truncatable
  · rw [if_pos htruncatable, htruncatable.1, htruncatable.2]
    rfl
  · rw [if_neg htruncatable]
    cases htool : isToolResult message with
    | false => rfl
    | true =>
      cases hskip : message.skipTruncation with
      | true => rfl
      | false => exact absurd ⟨htool, hskip⟩ htruncatable

theorem texts_mapTexts (f : List UInt16 → List UInt16) (message : Message β μ) :
    (message.mapTexts f).texts = message.texts.map f := by
  obtain ⟨role, content, skipTruncation, rest⟩ := message
  cases content with
  | plain text => rfl
  | blocks blocks =>
    simp only [Message.mapTexts, Message.texts, flatMap_map, map_flatMap]
    congr 1
    funext block
    cases block <;> rfl
  | other content => rfl

theorem mapTexts_mapTexts (hf : ∀ text, f (f text) = f text)
    (message : Message β μ) : (message.mapTexts f).mapTexts f = message.mapTexts f := by
  apply mapTexts_eq_self
  intro text htext
  rw [texts_mapTexts] at htext
  obtain ⟨before, -, rfl⟩ := mem_map.mp htext
  exact hf before

theorem beforeInference_again (config : ToolOutputTruncationConfig)
    (messages : List (Message β μ)) :
    beforeInference config (beforeInference config messages) =
      beforeInference config messages := by
  rw [beforeInference_eq, beforeInference_eq, map_map]
  refine map_congr_left fun message _ => ?_
  simp only [Function.comp_apply]
  by_cases htruncatable : message.Truncatable
  · have hstays : (message.mapTexts (truncateText · config.maxTokens)).Truncatable := htruncatable
    rw [if_pos htruncatable, if_pos hstays]
    exact mapTexts_mapTexts (fun _ => truncateText_again config.minimum) message
  · rw [if_neg htruncatable, if_neg htruncatable]

/-- No string is longer than the language allows. -/
def WellSized (messages : List (Message β μ)) : Prop :=
  ∀ message ∈ messages, ∀ text ∈ message.texts, text.length < 2 ^ 53

theorem TruncationLaw.le_of_marked {config : ToolOutputTruncationConfig}
    {messages : List (Message β μ)} (h : TruncationLaw config messages)
    (hmessage : message ∈ messages) (htruncatable : message.Truncatable) {text : List UInt16}
    (htext : text ∈ message.texts) (hmarked : truncationMarker <:+: text) :
    estimateTextTokens text ≤ config.maxTokens := by
  obtain ⟨f, hf, hlaw⟩ := h.hooked
  rw [beforeInference_eq] at hf
  have hsame := map_inj_left.mp hf message hmessage
  rw [if_pos htruncatable, if_pos htruncatable] at hsame
  have htexts := congrArg Message.texts hsame
  rw [texts_mapTexts, texts_mapTexts] at htexts
  have hbounded := (hlaw message hmessage htruncatable text htext).bounded
  rwa [← map_inj_left.mp htexts text htext, truncateText_of_marked hmarked] at hbounded

/-- The hook bounds every text exactly when no text of a truncatable message is both over the limit
and marked already. -/
theorem truncationLaw_iff (config : ToolOutputTruncationConfig) {messages : List (Message β μ)}
    (hsized : WellSized messages) :
    TruncationLaw config messages ↔
      ∀ message ∈ messages, message.Truncatable → ∀ text ∈ message.texts,
        truncationMarker <:+: text → estimateTextTokens text ≤ config.maxTokens := by
  constructor
  · intro h message hmessage htruncatable text htext hmarked
    exact h.le_of_marked hmessage htruncatable htext hmarked
  · intro h
    refine ⟨⟨_, beforeInference_eq config messages, ?_⟩, beforeInference_again config messages⟩
    intro message hmessage htruncatable text htext
    exact (truncated_truncateText_iff config.minimum (hsized message hmessage text htext)).mpr
      (h message hmessage htruncatable text htext)

/-- A tool result of four thousand characters. -/
def longResult (front : List UInt16) : Message Unit Unit where
  role := "toolResult"
  content := .blocks [.text (front ++ List.replicate 4000 97) ()]
  skipTruncation := false
  rest := ()

/-- A text without the marker is cut. -/
theorem truncationLaw_longResult : TruncationLaw ⟨1000, le_rfl⟩ [longResult []] := by
  have hsized : WellSized [longResult []] := by
    intro message hmessage text htext
    obtain rfl := mem_singleton.mp hmessage
    obtain rfl := mem_singleton.mp htext
    rw [nil_append, length_replicate]
    decide
  refine (truncationLaw_iff ⟨1000, le_rfl⟩ hsized).mpr ?_
  intro message hmessage _ text htext hmarked
  obtain rfl := mem_singleton.mp hmessage
  obtain rfl := mem_singleton.mp htext
  have hopen : (91 : UInt16) ∈ List.replicate 4000 97 := hmarked.subset (by decide)
  cases eq_of_mem_replicate hopen

/-- A text that quotes the marker is not. -/
theorem marked_not_truncationLaw :
    ¬ TruncationLaw ⟨1000, le_rfl⟩ [longResult truncationMarker] := by
  intro h
  have hbounded := h.le_of_marked (mem_singleton_self _) (by decide)
    (mem_singleton_self _) (prefix_append _ _).isInfix
  rw [estimateTextTokens_le_iff, length_append, length_replicate] at hbounded
  change 2 * (truncationMarker.length + 4000) ≤ 7 * 1000 at hbounded
  omega

end CrabbyKit.ToolOutput
