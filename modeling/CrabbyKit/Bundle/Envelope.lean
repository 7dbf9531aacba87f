import CrabbyKit.Core.JsonValue
import CrabbyKit.Core.Utf8
import CrabbyKit.Schedule.Cron

/-!
# The envelope of a bundle

`encodeEnvelope` of `bundle-builder.ts` and `decodeBundlePayload` of `dispatcher.ts`: a bundle is
stored as the JSON of its modules, or as the bare source of one module, and the reader tells the two
apart by their text.
-/

namespace CrabbyKit.BundleEnvelope

open Cron (isSpace)

def bundleEnvelopeVersion : Decimal := ⟨1, 0, .inl (by decide)⟩

/-- `{ v, mainModule, modules }` -/
def envelopeValue (mainModule : String) (modules : List (String × JsonValue)) : JsonValue :=
  .obj [("v", .num bundleEnvelopeVersion), ("mainModule", .str mainModule),
    ("modules", .obj modules)]

def envelopeText (mainModule : String) (modules : List (String × JsonValue)) : String :=
  JsonValue.stringify (envelopeValue mainModule modules)

def encodeEnvelope (mainModule : String) (modules : List (String × JsonValue)) : List UInt8 :=
  encodeText (envelopeText mainModule modules)

structure BundlePayload where
  mainModule : String
  modules : JsonValue

/-- `value !== null && typeof value === "object"` -/
def isObject : JsonValue → Bool
  | .obj _ => true
  | .arr _ => true
  | _ => false

/-- `value === 1`: the number nearest to a decimal is 1 from halfway below to halfway above. -/
def isOne : JsonValue → Bool
  | .num value =>
    let scale := 10 ^ (-value.exponent).toNat
    let scaled := value.mantissa * 10 ^ value.exponent.toNat
    (2 ^ 54 - 1) * scale ≤ 2 ^ 54 * scaled && 2 ^ 53 * scaled ≤ (2 ^ 53 + 1) * scale
  | _ => false

/-- `isBundleEnvelopeV1`, with the members that are read. -/
def bundleEnvelopeV1 (value : JsonValue) : Option BundlePayload :=
  if (value.field "v").any isOne then
    match value.field "mainModule", value.field "modules" with
    | some (.str mainModule), some modules =>
      if isObject modules then some ⟨mainModule, modules⟩ else none
    | _, _ => none
  else none

def legacyPayload (source : String) : BundlePayload :=
  ⟨"bundle.js", .obj [("bundle.js", .str source)]⟩

def decodeBundlePayload (source : String) : BundlePayload :=
  let trimmed := source.toList.dropWhile isSpace
  if trimmed.head? = some '{' then
    ((JsonValue.parse source).bind bundleEnvelopeV1).getD (legacyPayload source)
  else legacyPayload source

/-- What `composeWorkerLoaderConfig` loads from the bytes of a version. -/
def loadedPayload (bytes : List UInt8) : BundlePayload := decodeBundlePayload (decodeText bytes)

theorem head_of_readValue {fuel : Nat} {cs rest : List Char} {members : List (String × JsonValue)}
    (h : JsonValue.readValue fuel cs = some (.obj members, rest)) :
    (Json.skipSpace cs).head? = some '{' := by
  cases fuel with
  | zero => cases h
  | succ fuel =>
    rw [JsonValue.readValue] at h
    cases text : Json.skipSpace cs with
    | nil =>
      rw [text] at h
      cases h
    | cons c after =>
      rw [text] at h
      simp only at h
      have word (word : List Char) {value : JsonValue} (other : value ≠ .obj members)
          (cs : List Char) : JsonValue.readWord word value cs ≠ some (.obj members, rest) := by
        rw [JsonValue.readWord]
        split
        · intro same
          exact other (congrArg Prod.fst (Option.some.inj same))
        · exact Option.some_ne_none _ |>.symm
      split_ifs at h with n t f q a empty o
      · exact absurd h (word _ (by simp) _)
      · exact absurd h (word _ (by simp) _)
      · exact absurd h (word _ (by simp) _)
      · simp at h
      · simp at h
      · simp at h
      · rw [o]
        rfl
      · rw [o]
        rfl
      · simp at h

theorem dropWhile_of_imp {p q : Char → Bool} {cs : List Char} {c : Char}
    (stop : q c = false) (imp : ∀ d, p d = true → q d = true)
    (h : (cs.dropWhile p).head? = some c) : (cs.dropWhile q).head? = some c := by
  induction cs with
  | nil => cases h
  | cons d ds ih =>
    rw [List.dropWhile_cons] at h ⊢
    split at h
    · rename_i passed
      rw [if_pos (imp d passed)]
      exact ih h
    · cases h
      rw [if_neg (by simp [stop])]
      rfl

theorem isSpace_of_space (c : Char) (h : Json.space c = true) : isSpace c = true := by
  simp only [Json.space, Bool.or_eq_true, decide_eq_true_eq] at h
  rcases h with ((rfl | rfl) | rfl) | rfl <;> decide

theorem sniff_of_parse {source : String} {members : List (String × JsonValue)}
    (h : JsonValue.parse source = some (.obj members)) :
    (source.toList.dropWhile isSpace).head? = some '{' := by
  rw [JsonValue.parse] at h
  cases read : JsonValue.readValue (2 * source.toList.length + 1) source.toList with
  | none =>
    rw [read] at h
    cases h
  | some found =>
    obtain ⟨value, rest⟩ := found
    rw [read] at h
    simp only at h
    split at h
    · cases h
      exact dropWhile_of_imp (by decide) isSpace_of_space (head_of_readValue read)
    · cases h

/-- A text is the JSON of an object of version 1, with a main module and an object of modules. -/
def Envelope (source : String) (payload : BundlePayload) : Prop :=
  ∃ value, JsonValue.parse source = some value ∧ (value.field "v").any isOne = true ∧
    value.field "mainModule" = some (.str payload.mainModule) ∧
    value.field "modules" = some payload.modules ∧ isObject payload.modules = true

theorem bundleEnvelopeV1_eq_some {value : JsonValue} {payload : BundlePayload} :
    bundleEnvelopeV1 value = some payload ↔ (value.field "v").any isOne = true ∧
      value.field "mainModule" = some (.str payload.mainModule) ∧
      value.field "modules" = some payload.modules ∧ isObject payload.modules = true := by
  unfold bundleEnvelopeV1
  constructor
  · intro h
    split at h
    · split at h
      · split at h
        · cases h
          exact ⟨‹_›, ‹_›, ‹_›, ‹_›⟩
        · cases h
      · cases h
    · cases h
  · rintro ⟨version, mainModule, modules, object⟩
    rw [if_pos version, mainModule, modules]
    exact if_pos object

theorem envelope_iff {source : String} {payload : BundlePayload} :
    Envelope source payload ↔ (JsonValue.parse source).bind bundleEnvelopeV1 = some payload := by
  rw [Envelope, Option.bind_eq_some_iff]
  simp only [bundleEnvelopeV1_eq_some]

theorem Envelope.sniffed {source : String} {payload : BundlePayload} (h : Envelope source payload) :
    (source.toList.dropWhile isSpace).head? = some '{' := by
  obtain ⟨value, parsed, version, -⟩ := h
  cases value with
  | obj members => exact sniff_of_parse parsed
  | null => cases version
  | bool _ => cases version
  | num _ => cases version
  | str _ => cases version
  | arr _ => cases version

theorem decodeBundlePayload_of_envelope {source : String} {payload : BundlePayload}
    (h : Envelope source payload) : decodeBundlePayload source = payload := by
  rw [decodeBundlePayload]
  simp only [h.sniffed, if_true]
  rw [envelope_iff.mp h, Option.getD_some]

theorem decodeBundlePayload_of_other {source : String} (h : ∀ payload, ¬ Envelope source payload) :
    decodeBundlePayload source = legacyPayload source := by
  have none : (JsonValue.parse source).bind bundleEnvelopeV1 = none :=
    Option.eq_none_iff_forall_ne_some.mpr fun payload same => h payload (envelope_iff.mpr same)
  rw [decodeBundlePayload, none, Option.getD_none, ite_self]

variable (mainModule : String)

theorem envelope_envelopeText (modules : List (String × JsonValue)) :
    Envelope (envelopeText mainModule modules) ⟨mainModule, .obj modules⟩ :=
  ⟨envelopeValue mainModule modules, JsonValue.parse_stringify _, rfl, rfl, rfl, rfl⟩

theorem getLast?_envelopeText (modules : List (String × JsonValue)) :
    (envelopeText mainModule modules).toList.getLast? = some '}' := by
  rw [envelopeText, JsonValue.stringify, String.toList_ofList, envelopeValue, JsonValue.write,
    List.getLast?_concat]

/-- Envelopes are read back, whatever their modules; every text that is no envelope is the source of
one module. -/
theorem decodeBundlePayload_laws :
    (∀ mainModule modules,
      loadedPayload (encodeEnvelope mainModule modules) = ⟨mainModule, .obj modules⟩) ∧
    (∀ source payload, Envelope source payload → decodeBundlePayload source = payload) ∧
    ∀ source, (∀ payload, ¬ Envelope source payload) →
      decodeBundlePayload source = legacyPayload source := by
  refine ⟨fun mainModule modules => ?_, fun _ _ => decodeBundlePayload_of_envelope,
    fun _ => decodeBundlePayload_of_other⟩
  have head : ∃ cs, (envelopeText mainModule modules).toList = '{' :: cs := by
    rw [envelopeText, JsonValue.stringify, String.toList_ofList, envelopeValue, JsonValue.write]
    exact ⟨_, rfl⟩
  obtain ⟨cs, text⟩ := head
  rw [loadedPayload, encodeEnvelope, decodeText_encodeText (by simp [text])]
  exact decodeBundlePayload_of_envelope (envelope_envelopeText mainModule modules)

theorem envelope_blank (modules : List (String × JsonValue)) :
    Envelope (envelopeText mainModule modules ++ " ") ⟨mainModule, .obj modules⟩ := by
  have text (value : JsonValue) :
      value.stringify ++ " " = String.ofList (value.write ++ [' ']) := by
    rw [String.ofList_append]
    rfl
  have ends : Json.Ends [' '] := by
    rintro c ⟨⟩
    decide
  refine ⟨envelopeValue mainModule modules, ?_, rfl, rfl, rfl, rfl⟩
  rw [envelopeText, text]
  exact JsonValue.parse_write_append _ ends rfl

/-- An envelope with a blank behind it, which no encoder writes, is taken for an envelope. -/
theorem envelope_with_blank_decoded : ¬ ∀ source,
    (∀ mainModule modules, source ≠ envelopeText mainModule modules) →
      decodeBundlePayload source = legacyPayload source := by
  intro others
  have decoded := others (envelopeText "main.js" [] ++ " ") ?_
  · rw [decodeBundlePayload_of_envelope (envelope_blank "main.js" [])] at decoded
    exact absurd (congrArg BundlePayload.mainModule decoded) (by decide)
  · intro mainModule modules same
    have last := getLast?_envelopeText mainModule modules
    rw [← same, String.toList_append, List.getLast?_append] at last
    exact absurd last (by decide)

end CrabbyKit.BundleEnvelope
