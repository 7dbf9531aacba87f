import CrabbyKit.Core.JsonString
import CrabbyKit.Core.Utf8

/-!
# Components of a URI

`encodeURIComponent` and `decodeURIComponent` of JavaScript. The decoder throws where a percent sign
is not followed by two hexadecimal digits and where the escaped bytes are no UTF-8.
-/

namespace CrabbyKit

open List

/-- The characters that are not escaped. -/
def unescaped (c : Char) : Bool := c.isAlphanum || c ∈ "-_.!~*'()".toList

def upperHexDigit (n : Nat) : Char := if n < 10 then Char.ofNat (48 + n) else Char.ofNat (55 + n)

/-- `%XX` -/
def percentByte (byte : UInt8) : List Char :=
  ['%', upperHexDigit (byte.toNat / 16), upperHexDigit (byte.toNat % 16)]

/-- A character as a component spells it. -/
def encodeUriChar (c : Char) : List Char :=
  if unescaped c then [c] else (String.utf8EncodeChar c).flatMap percentByte

def encodeURIComponent (text : List Char) : List Char := text.flatMap encodeUriChar

/-- The byte of an escape, and the text after it. -/
def readPercentByte : List Char → Option (UInt8 × List Char)
  | '%' :: high :: low :: rest => do
    let h ← hexValue high
    let l ← hexValue low
    some (UInt8.ofNat (h * 16 + l), rest)
  | _ => none

/-- The bytes of so many escapes, and the text after them. -/
def readPercentBytes : Nat → List Char → Option (List UInt8 × List Char)
  | 0, text => some ([], text)
  | count + 1, text => do
    let (byte, rest) ← readPercentByte text
    let (bytes, rest) ← readPercentBytes count rest
    some (byte :: bytes, rest)

/-- The character whose first byte is escaped here, and the text after its escapes. -/
def readEscapedChar (text : List Char) : Option (Char × List Char) := do
  let (lead, rest) ← readPercentByte text
  if lead < 0x80 then some (Char.ofNat lead.toNat, rest)
  else if bytesNeeded lead = 0 then none
  else do
    let (later, rest) ← readPercentBytes (bytesNeeded lead) rest
    let c ← firstChar? (lead :: later)
    some (c, rest)

/-- The characters of a text, with fuel for each of them. -/
def decodeUriChars : Nat → List Char → Option (List Char)
  | 0, text => if text = [] then some [] else none
  | _ + 1, [] => some []
  | fuel + 1, c :: rest =>
    if c = '%' then do
      let (decoded, rest) ← readEscapedChar (c :: rest)
      let more ← decodeUriChars fuel rest
      some (decoded :: more)
    else (decodeUriChars fuel rest).map (c :: ·)

/-- `decodeURIComponent`, absent where it throws a `URIError`. -/
def decodeURIComponent (text : List Char) : Option (List Char) := decodeUriChars text.length text

theorem hexValue_upperHexDigit : ∀ n < 16, hexValue (upperHexDigit n) = some n := by decide

theorem readPercentByte_percentByte (byte : UInt8) (rest : List Char) :
    readPercentByte (percentByte byte ++ rest) = some (byte, rest) := by
  have small : byte.toNat < 256 := byte.toNat_lt
  have high := hexValue_upperHexDigit (byte.toNat / 16) (by omega)
  have low := hexValue_upperHexDigit (byte.toNat % 16) (by omega)
  have whole : byte.toNat / 16 * 16 + byte.toNat % 16 = byte.toNat := by omega
  change (do
    let h ← hexValue (upperHexDigit (byte.toNat / 16))
    let l ← hexValue (upperHexDigit (byte.toNat % 16))
    some (UInt8.ofNat (h * 16 + l), rest)) = _
  rw [high, low]
  change some (UInt8.ofNat (byte.toNat / 16 * 16 + byte.toNat % 16), rest) = _
  rw [whole, UInt8.ofNat_toNat]

theorem readPercentBytes_flatMap (bytes : List UInt8) (rest : List Char) :
    readPercentBytes bytes.length (bytes.flatMap percentByte ++ rest) = some (bytes, rest) := by
  induction bytes with
  | nil => rfl
  | cons byte bytes ih =>
    rw [flatMap_cons, append_assoc, length_cons, readPercentBytes, readPercentByte_percentByte]
    change (do
      let (bytes, rest) ← readPercentBytes bytes.length (bytes.flatMap percentByte ++ rest)
      some (byte :: bytes, rest)) = _
    rw [ih]
    rfl

theorem readEscapedChar_encode (c : Char) (rest : List Char) :
    readEscapedChar ((String.utf8EncodeChar c).flatMap percentByte ++ rest) = some (c, rest) := by
  have first : firstChar? (String.utf8EncodeChar c) = some c := by
    simpa using firstChar?_encode c []
  by_cases ascii : c.toNat < 128
  · obtain ⟨bytes, value, small⟩ := utf8EncodeChar_ascii ascii
    rw [bytes, flatMap_singleton, readEscapedChar, readPercentByte_percentByte]
    change (if c.val.toUInt8 < 0x80 then some (Char.ofNat c.val.toUInt8.toNat, rest) else _) = _
    rw [if_pos small, value, Char.ofNat_toNat]
  · obtain ⟨lead, second, later, bytes, needed, -, -⟩ :=
      utf8EncodeChar_multibyte (Nat.le_of_not_lt ascii)
    have large : ¬ lead < 0x80 := not_ascii_of_bytesNeeded (by omega)
    have read := readPercentBytes_flatMap (second :: later) rest
    rw [length_cons, ← needed] at read
    rw [bytes] at first
    rw [bytes, flatMap_cons, append_assoc, readEscapedChar, readPercentByte_percentByte]
    change (if lead < 0x80 then _ else if bytesNeeded lead = 0 then none else do
      let (later, rest) ← readPercentBytes (bytesNeeded lead)
        ((second :: later).flatMap percentByte ++ rest)
      let c ← firstChar? (lead :: later)
      some (c, rest)) = _
    rw [if_neg large, if_neg (by omega), read]
    change (do
      let c ← firstChar? (lead :: second :: later)
      some (c, rest)) = _
    rw [first]
    rfl

theorem decodeUriChars_encode (c : Char) (rest : List Char) (fuel : Nat) :
    decodeUriChars (fuel + 1) (encodeUriChar c ++ rest) =
      (decodeUriChars fuel rest).map (c :: ·) := by
  unfold encodeUriChar
  split
  · next plain =>
    have other : c ≠ '%' := by
      rintro rfl
      exact absurd plain (by decide)
    rw [singleton_append, decodeUriChars, if_neg other]
  · have read := readEscapedChar_encode c rest
    obtain ⟨escapes, start⟩ : ∃ escapes,
        (String.utf8EncodeChar c).flatMap percentByte = '%' :: escapes := by
      cases bytes : String.utf8EncodeChar c with
      | nil => exact absurd bytes String.utf8EncodeChar_ne_nil
      | cons lead later => exact ⟨_, rfl⟩
    rw [start] at read ⊢
    rw [cons_append] at read ⊢
    rw [decodeUriChars, if_pos rfl, read]
    change (do
      let more ← decodeUriChars fuel rest
      some (c :: more)) = _
    cases decodeUriChars fuel rest <;> rfl

variable (text : List Char)

theorem decodeUriChars_flatMap : ∀ fuel, text.length ≤ fuel →
    decodeUriChars fuel (encodeURIComponent text) = some text := by
  unfold encodeURIComponent
  induction text with
  | nil =>
    intro fuel _
    cases fuel <;> rfl
  | cons c text ih =>
    intro fuel enough
    obtain ⟨fuel, rfl⟩ := Nat.exists_eq_add_one_of_ne_zero (Nat.ne_zero_of_lt enough)
    rw [flatMap_cons, decodeUriChars_encode, ih fuel (by simpa using enough)]
    rfl

theorem encodeUriChar_ne_nil (c : Char) : encodeUriChar c ≠ [] := by
  unfold encodeUriChar
  split
  · exact cons_ne_nil _ _
  · cases bytes : String.utf8EncodeChar c with
    | nil => exact absurd bytes String.utf8EncodeChar_ne_nil
    | cons lead later => exact cons_ne_nil _ _

theorem length_le_encodeURIComponent : text.length ≤ (encodeURIComponent text).length := by
  unfold encodeURIComponent
  induction text with
  | nil => exact Nat.le_refl 0
  | cons c text ih =>
    have one : 0 < (encodeUriChar c).length := length_pos_of_ne_nil (encodeUriChar_ne_nil c)
    rw [flatMap_cons, length_append, length_cons]
    omega

theorem decodeURIComponent_encodeURIComponent :
    decodeURIComponent (encodeURIComponent text) = some text :=
  decodeUriChars_flatMap text _ (length_le_encodeURIComponent text)

theorem slash_notMem_encodeURIComponent : '/' ∉ encodeURIComponent text := by
  intro mem
  obtain ⟨c, -, here⟩ := mem_flatMap.mp mem
  unfold encodeUriChar at here
  split at here
  · next plain =>
    rw [← mem_singleton.mp here] at plain
    exact absurd plain (by decide)
  · obtain ⟨byte, -, digit⟩ := mem_flatMap.mp here
    have small : byte.toNat < 256 := byte.toNat_lt
    have other : ∀ n < 16, upperHexDigit n ≠ '/' := by decide
    simp only [percentByte, mem_cons, not_mem_nil, or_false] at digit
    rcases digit with percent | high | low
    · exact absurd percent (by decide)
    · exact other _ (by omega) high.symm
    · exact other _ (by omega) low.symm

theorem encodeURIComponent_eq_nil {text : List Char} :
    encodeURIComponent text = [] ↔ text = [] := by
  constructor
  · intro h
    have short := length_le_encodeURIComponent text
    rw [h] at short
    exact eq_nil_of_length_eq_zero (Nat.le_zero.mp short)
  · rintro rfl
    rfl

theorem decodeURIComponent_nil {text : List Char} (h : decodeURIComponent text = some []) :
    text = [] := by
  cases text with
  | nil => rfl
  | cons c rest =>
    rw [decodeURIComponent, length_cons, decodeUriChars] at h
    split at h
    · obtain ⟨⟨decoded, after⟩, -, more⟩ := Option.bind_eq_some_iff.mp h
      obtain ⟨later, -, ends⟩ := Option.bind_eq_some_iff.mp more
      cases ends
    · obtain ⟨later, -, ends⟩ := Option.map_eq_some_iff.mp h
      cases ends

end CrabbyKit
