import Mathlib.Tactic.SplitIfs

/-!
# UTF-8 text

`TextEncoder.encode` and `TextDecoder.decode`. The decoder accepts every byte string: it drops a
byte order mark and puts a replacement character for each ill formed piece.
-/

namespace CrabbyKit

open List

/-- `new TextEncoder().encode(text)`. -/
def encodeText (text : String) : List UInt8 :=
  text.toList.flatMap String.utf8EncodeChar

/-- The character that the bytes begin with, if they begin with a well formed one. -/
def firstChar? (bytes : List UInt8) : Option Char :=
  ByteArray.utf8DecodeChar? ⟨bytes.toArray⟩ 0

def bytesNeeded (lead : UInt8) : Nat :=
  if 0xC2 ≤ lead ∧ lead ≤ 0xDF then 1
  else if 0xE0 ≤ lead ∧ lead ≤ 0xEF then 2
  else if 0xF0 ≤ lead ∧ lead ≤ 0xF4 then 3
  else 0

def secondByte (lead byte : UInt8) : Bool :=
  (if lead = 0xE0 then 0xA0 else if lead = 0xF0 then 0x90 else 0x80) ≤ byte &&
    byte ≤ (if lead = 0xED then 0x9F else if lead = 0xF4 then 0x8F else 0xBF)

/-- How many bytes of an ill formed beginning one replacement character stands for. -/
def illFormedLength : List UInt8 → Nat
  | lead :: second :: rest =>
    if 2 ≤ bytesNeeded lead ∧ secondByte lead second then
      match rest with
      | third :: _ => if bytesNeeded lead = 3 ∧ 0x80 ≤ third ∧ third ≤ 0xBF then 3 else 2
      | [] => 2
    else 1
  | _ => 1

/-- The characters of the bytes, with one unit of fuel for each. -/
def decodeChars : Nat → List UInt8 → List Char
  | 0, _ => []
  | _ + 1, [] => []
  | fuel + 1, byte :: rest =>
    match firstChar? (byte :: rest) with
    | some c => c :: decodeChars fuel ((byte :: rest).drop c.utf8Size)
    | none =>
      Char.ofNat 0xFFFD :: decodeChars fuel ((byte :: rest).drop (illFormedLength (byte :: rest)))

def dropByteOrderMark : List UInt8 → List UInt8
  | 0xEF :: 0xBB :: 0xBF :: rest => rest
  | bytes => bytes

/-- `new TextDecoder().decode(bytes)`. -/
def decodeText (bytes : List UInt8) : String :=
  let rest := dropByteOrderMark bytes
  String.ofList (decodeChars rest.length rest)

theorem firstChar?_encode (c : Char) (rest : List UInt8) :
    firstChar? (String.utf8EncodeChar c ++ rest) = some c := by
  have hcore := utf8DecodeChar?_utf8Encode_singleton_append (b := ⟨rest.toArray⟩) (c := c)
  have hbytes : [c].utf8Encode ++ ByteArray.mk rest.toArray =
      ⟨(String.utf8EncodeChar c ++ rest).toArray⟩ := by
    rw [utf8Encode_singleton]
    apply ByteArray.ext
    simp
  rw [hbytes] at hcore
  exact hcore

theorem decodeChars_encode (cs : List Char) (fuel : Nat) (h : cs.length ≤ fuel) :
    decodeChars fuel (cs.flatMap String.utf8EncodeChar) = cs := by
  induction cs generalizing fuel with
  | nil => cases fuel <;> rfl
  | cons c cs ih =>
    obtain ⟨fuel, rfl⟩ := Nat.exists_eq_add_one_of_ne_zero (Nat.ne_zero_of_lt h)
    have hlen : (String.utf8EncodeChar c).length = c.utf8Size := String.length_utf8EncodeChar c
    have hpos := c.utf8Size_pos
    have hfirst := firstChar?_encode c (cs.flatMap String.utf8EncodeChar)
    rw [flatMap_cons]
    cases henc : String.utf8EncodeChar c with
    | nil => rw [henc] at hlen; simp at hlen; omega
    | cons byte rest =>
      rw [henc] at hfirst hlen
      rw [cons_append] at hfirst ⊢
      rw [decodeChars, hfirst]
      simp only [List.cons.injEq, true_and]
      rw [← hlen, ← cons_append, drop_left]
      exact ih fuel (by simpa using h)

theorem length_le_encode (cs : List Char) :
    cs.length ≤ (cs.flatMap String.utf8EncodeChar).length := by
  induction cs with
  | nil => simp
  | cons c cs ih =>
    have hlen : (String.utf8EncodeChar c).length = c.utf8Size := String.length_utf8EncodeChar c
    have hpos := c.utf8Size_pos
    simp only [flatMap_cons, length_cons, length_append]
    omega

theorem encodeText_injective {s t : String} (h : encodeText s = encodeText t) : s = t := by
  have hs := decodeChars_encode s.toList _ (length_le_encode s.toList)
  have ht := decodeChars_encode t.toList _ (length_le_encode t.toList)
  simp only [encodeText] at h
  rw [h] at hs
  exact String.toList_inj.mp (hs.symm.trans ht)

theorem decodeText_encodeText {text : String} (h : text.toList.head? ≠ some '\uFEFF') :
    decodeText (encodeText text) = text := by
  have hmark : dropByteOrderMark (encodeText text) = encodeText text := by
    rw [dropByteOrderMark.eq_def]
    split
    · rename_i rest hbytes
      cases htext : text.toList with
      | nil =>
        rw [encodeText, htext] at hbytes
        cases hbytes
      | cons c cs =>
        have hc : firstChar? (encodeText text) = some c := by
          rw [encodeText, htext, flatMap_cons]
          exact firstChar?_encode c _
        have hmark : firstChar? (encodeText text) = some '\uFEFF' := by
          rw [hbytes]
          exact firstChar?_encode '\uFEFF' rest
        rw [htext, head?_cons, ← hc, hmark] at h
        exact absurd rfl h
    · rfl
  rw [decodeText, hmark]
  have hchars := decodeChars_encode text.toList _ (length_le_encode text.toList)
  simp only [encodeText, hchars, String.ofList_toList]

theorem toNat_ofNat_byte {n : Nat} (h : n < 256) : (UInt8.ofNat n).toNat = n :=
  UInt8.toNat_ofNat_of_lt' h

theorem bytesNeeded_ofNat {n : Nat} (h : n < 256) : bytesNeeded (UInt8.ofNat n) =
    if 0xC2 ≤ n ∧ n ≤ 0xDF then 1 else if 0xE0 ≤ n ∧ n ≤ 0xEF then 2
    else if 0xF0 ≤ n ∧ n ≤ 0xF4 then 3 else 0 := by
  simp only [bytesNeeded, UInt8.le_iff_toNat_le, toNat_ofNat_byte h, UInt8.reduceToNat]

theorem not_ascii_of_bytesNeeded {lead : UInt8} (h : bytesNeeded lead ≠ 0) : ¬ lead < 0x80 := by
  intro small
  apply h
  rw [UInt8.lt_iff_toNat_lt] at small
  simp only [bytesNeeded, UInt8.le_iff_toNat_le, UInt8.reduceToNat] at small ⊢
  rw [if_neg (by omega), if_neg (by omega), if_neg (by omega)]

theorem utf8EncodeChar_ascii {c : Char} (ascii : c.toNat < 128) :
    String.utf8EncodeChar c = [c.val.toUInt8] ∧ c.val.toUInt8.toNat = c.toNat ∧
      c.val.toUInt8 < 0x80 := by
  have size : c.utf8Size = 1 := by
    rw [Char.utf8Size_eq_one_iff, UInt32.le_iff_toNat_le]
    exact Nat.le_of_lt_succ ascii
  have small : c.val.toNat < 128 := ascii
  have value : c.val.toUInt8.toNat = c.toNat := by
    rw [UInt32.toNat_toUInt8]
    exact Nat.mod_eq_of_lt (by omega)
  refine ⟨String.utf8EncodeChar_eq_singleton size, value, ?_⟩
  rw [UInt8.lt_iff_toNat_lt, value]
  exact ascii

theorem secondByte_ofNat {n m : Nat} (hn : n < 256) (hm : m < 256) :
    secondByte (UInt8.ofNat n) (UInt8.ofNat m) = true ↔
      (if n = 0xE0 then 0xA0 else if n = 0xF0 then 0x90 else 0x80) ≤ m ∧
        m ≤ if n = 0xED then 0x9F else if n = 0xF4 then 0x8F else 0xBF := by
  simp only [secondByte, Bool.and_eq_true, decide_eq_true_eq, UInt8.le_iff_toNat_le,
    ← UInt8.toNat_inj, apply_ite UInt8.toNat, toNat_ofNat_byte hn, toNat_ofNat_byte hm,
    UInt8.reduceToNat]

theorem utf8EncodeChar_multibyte {c : Char} (h : 128 ≤ c.toNat) :
    ∃ lead second later, String.utf8EncodeChar c = lead :: second :: later ∧
      bytesNeeded lead = later.length + 1 ∧ secondByte lead second = true ∧
      ∀ byte ∈ later, 0x80 ≤ byte ∧ byte ≤ 0xBF := by
  have valid : c.val.toNat < 0xD800 ∨ 0xDFFF < c.val.toNat ∧ c.val.toNat < 0x110000 := c.valid
  have wide : 128 ≤ c.val.toNat := h
  unfold String.utf8EncodeChar
  simp only
  generalize c.val.toNat = v at valid wide
  have tail (n : Nat) : 0x80 ≤ UInt8.ofNat (n % 0x40 + 0x80) ∧
      UInt8.ofNat (n % 0x40 + 0x80) ≤ 0xBF := by
    simp only [UInt8.le_iff_toNat_le, toNat_ofNat_byte (n := n % 0x40 + 0x80) (by omega),
      UInt8.reduceToNat]
    omega
  rw [if_neg (by omega)]
  split_ifs with two three
  · refine ⟨_, _, _, rfl, ?_, ?_, forall_mem_nil _⟩
    · rw [bytesNeeded_ofNat (by omega), if_pos (by omega)]
      rfl
    · rw [secondByte_ofNat (by omega) (by omega)]
      grind
  · refine ⟨_, _, _, rfl, ?_, ?_, forall_mem_singleton.mpr (tail v)⟩
    · rw [bytesNeeded_ofNat (by omega), if_neg (by omega), if_pos (by omega)]
      rfl
    · rw [secondByte_ofNat (by omega) (by omega)]
      grind
  · refine ⟨_, _, _, rfl, ?_, ?_, forall_mem_cons.mpr ⟨tail (v / 64), ?_⟩⟩
    · rw [bytesNeeded_ofNat (by omega), if_neg (by omega), if_neg (by omega), if_pos (by omega)]
      rfl
    · rw [secondByte_ofNat (by omega) (by omega)]
      grind
    · exact forall_mem_singleton.mpr (tail v)

end CrabbyKit
