import CrabbyKit.Core.Utf8

/-!
# UTF-8 text in chunks

A `TextDecoder` that is fed with `stream: true`. It keeps the bytes of a character that is not
complete, takes one byte at a time, and lets one replacement character stand for what is ill
formed. How the bytes are cut into chunks makes no difference.
-/

namespace CrabbyKit

open List

def replacement : Char := Char.ofNat 0xFFFD

def byteOrderMark : Char := Char.ofNat 0xFEFF

/-- A byte at the start of a character: the bytes that are pending after it, and the output. -/
def startByte (byte : UInt8) : List UInt8 × List Char :=
  if byte < 0x80 then ([], [Char.ofNat byte.toNat])
  else if bytesNeeded byte = 0 then ([], [replacement])
  else ([byte], [])

/-- Whether a byte goes on with a character. -/
def continues (lead : UInt8) (later : List UInt8) (byte : UInt8) : Bool :=
  if later = [] then secondByte lead byte else 0x80 ≤ byte && byte ≤ 0xBF

def decodeByte (pending : List UInt8) (byte : UInt8) : List UInt8 × List Char :=
  match pending with
  | [] => startByte byte
  | lead :: later =>
    if continues lead later byte then
      let bytes := lead :: later ++ [byte]
      if bytes.length = bytesNeeded lead + 1 then ([], [(firstChar? bytes).getD replacement])
      else (bytes, [])
    else ((startByte byte).1, replacement :: (startByte byte).2)

/-- The bytes of a chunk in order. -/
def decodeBytes (pending : List UInt8) : List UInt8 → List UInt8 × List Char
  | [] => (pending, [])
  | byte :: rest =>
    let decoded := decodeByte pending byte
    let later := decodeBytes decoded.1 rest
    (later.1, decoded.2 ++ later.2)

/-- The end of the input: what is pending is ill formed. -/
def flushBytes (pending : List UInt8) : List Char := if pending = [] then [] else [replacement]

def decodeAll (bytes : List UInt8) : List Char :=
  (decodeBytes [] bytes).2 ++ flushBytes (decodeBytes [] bytes).1

structure TextDecoder where
  pending : List UInt8 := []
  bomSeen : Bool := false
  deriving DecidableEq, Repr

/-- The output without a byte order mark at its beginning. -/
def serialize (bomSeen : Bool) : List Char → Bool × List Char
  | [] => (bomSeen, [])
  | c :: cs => (true, if !bomSeen && c = byteOrderMark then cs else c :: cs)

/-- `decoder.decode(value, { stream: true })`. -/
def TextDecoder.decode (decoder : TextDecoder) (value : List UInt8) : TextDecoder × List Char :=
  let decoded := decodeBytes decoder.pending value
  let output := serialize decoder.bomSeen decoded.2
  ({ pending := decoded.1, bomSeen := output.1 }, output.2)

/-- `decoder.decode()` at the end. -/
def TextDecoder.finish (decoder : TextDecoder) : List Char :=
  (serialize decoder.bomSeen (flushBytes decoder.pending)).2

def textOfBytes (bytes : List UInt8) : List Char := (serialize false (decodeAll bytes)).2

theorem decodeBytes_append (pending xs ys : List UInt8) :
    decodeBytes pending (xs ++ ys) =
      ((decodeBytes (decodeBytes pending xs).1 ys).1,
        (decodeBytes pending xs).2 ++ (decodeBytes (decodeBytes pending xs).1 ys).2) := by
  induction xs generalizing pending with
  | nil => rfl
  | cons byte xs ih => simp only [cons_append, decodeBytes, ih, append_assoc]

theorem serialize_append (bomSeen : Bool) (xs ys : List Char) :
    serialize bomSeen (xs ++ ys) =
      ((serialize (serialize bomSeen xs).1 ys).1,
        (serialize bomSeen xs).2 ++ (serialize (serialize bomSeen xs).1 ys).2) := by
  cases xs with
  | nil => rfl
  | cons c xs =>
    cases ys with
    | nil => simp [serialize]
    | cons d ys =>
      simp only [cons_append, serialize, Bool.not_true, Bool.false_and, Bool.false_eq_true,
        if_false]
      split <;> rfl

theorem TextDecoder.decode_append (decoder : TextDecoder) (xs ys : List UInt8) :
    decoder.decode (xs ++ ys) =
      (((decoder.decode xs).1.decode ys).1,
        (decoder.decode xs).2 ++ ((decoder.decode xs).1.decode ys).2) := by
  simp only [decode, decodeBytes_append, serialize_append]

theorem textOfBytes_eq (bytes : List UInt8) :
    textOfBytes bytes =
      (TextDecoder.decode {} bytes).2 ++ (TextDecoder.decode {} bytes).1.finish := by
  rw [textOfBytes, decodeAll, serialize_append]
  rfl

/-! ## Line breaks

A byte below `0x80` is a character of its own, whatever is pending. -/

variable {byte : UInt8}

theorem le_of_continues {lead : UInt8} {later : List UInt8}
    (h : continues lead later byte = true) : 128 ≤ byte.toNat := by
  unfold continues at h
  split at h
  · simp only [secondByte, Bool.and_eq_true, decide_eq_true_eq, UInt8.le_iff_toNat_le] at h
    have low := h.1
    split at low
    · exact Nat.le_trans (by decide) low
    · split at low
      · exact Nat.le_trans (by decide) low
      · exact low
  · simp only [Bool.and_eq_true, decide_eq_true_eq, UInt8.le_iff_toNat_le] at h
    exact h.1

theorem decodeByte_ascii (ascii : byte < 0x80) (pending : List UInt8) :
    decodeByte pending byte = ([], flushBytes pending ++ [Char.ofNat byte.toNat]) := by
  have start : startByte byte = ([], [Char.ofNat byte.toNat]) := if_pos ascii
  have small : byte.toNat < 128 := UInt8.lt_iff_toNat_lt.mp ascii
  cases pending with
  | nil =>
    rw [decodeByte, start]
    rfl
  | cons lead later =>
    have stops : ¬ continues lead later byte = true := by
      intro h
      have := le_of_continues h
      omega
    rw [decodeByte, if_neg stops, start]
    rfl

theorem decodeAll_ascii (ascii : byte < 0x80) (xs ys : List UInt8) :
    decodeAll (xs ++ byte :: ys) = decodeAll xs ++ Char.ofNat byte.toNat :: decodeAll ys := by
  unfold decodeAll
  rw [decodeBytes_append, decodeBytes, decodeByte_ascii ascii]
  simp

variable {c : Char}

variable {bytes : List UInt8}

theorem mem_of_firstChar? (ascii : c.toNat < 128)
    (h : firstChar? bytes = some c) : c.toUInt8 ∈ bytes := by
  have encoded := String.toByteArray_utf8EncodeChar_of_utf8DecodeChar?_eq_some h
  have size : c.utf8Size = 1 := by
    rw [Char.utf8Size_eq_one_iff, UInt32.le_iff_toNat_le]
    exact Nat.le_of_lt_succ ascii
  rw [String.utf8EncodeChar_eq_singleton size, size] at encoded
  have front : [c.toUInt8] = bytes.take 1 := by
    simpa using congrArg (fun b => b.data.toList) encoded
  exact mem_of_mem_take (i := 1) (front ▸ mem_singleton_self _)

theorem ascii_ne_replacement (ascii : c.toNat < 128) : c ≠ replacement := by
  rintro rfl
  exact absurd ascii (by decide)

theorem toNat_ofNat_ascii (small : byte.toNat < 128) :
    (Char.ofNat byte.toNat).toNat = byte.toNat := by
  have valid : byte.toNat.isValidChar := .inl (by omega)
  rw [Char.ofNat, dif_pos valid]
  rfl

theorem mem_startByte (ascii : c.toNat < 128) (h : c ∈ (startByte byte).2) : c.toUInt8 = byte := by
  unfold startByte at h
  split at h
  · next small =>
    rw [mem_singleton] at h
    subst h
    have small : byte.toNat < 128 := UInt8.lt_iff_toNat_lt.mp small
    have value : (Char.ofNat byte.toNat).val.toNat = byte.toNat := toNat_ofNat_ascii small
    apply UInt8.toNat_inj.mp
    show ((Char.ofNat byte.toNat).val.toUInt8).toNat = byte.toNat
    rw [UInt32.toNat_toUInt8, value]
    omega
  · split at h
    · exact absurd (mem_singleton.mp h) (ascii_ne_replacement ascii)
    · exact absurd h not_mem_nil

theorem startByte_pending (byte : UInt8) : (startByte byte).1 ⊆ [byte] := by
  unfold startByte
  split
  · exact nil_subset _
  · split
    · exact nil_subset _
    · exact Subset.refl _

theorem decodeByte_pending (pending : List UInt8) (byte : UInt8) :
    (decodeByte pending byte).1 ⊆ pending ++ [byte] := by
  cases pending with
  | nil => exact startByte_pending byte
  | cons lead later =>
    rw [decodeByte]
    split
    · simp only
      split
      · exact nil_subset _
      · exact Subset.refl _
    · exact Subset.trans (startByte_pending byte) (subset_append_right _ _)

theorem mem_decodeByte {pending : List UInt8} (ascii : c.toNat < 128)
    (h : c ∈ (decodeByte pending byte).2) : c.toUInt8 ∈ pending ++ [byte] := by
  cases pending with
  | nil => exact mem_singleton.mpr (mem_startByte ascii h)
  | cons lead later =>
    rw [decodeByte] at h
    split at h
    · simp only at h
      split at h
      · rw [mem_singleton] at h
        cases first : firstChar? (lead :: later ++ [byte]) with
        | none =>
          rw [first] at h
          exact absurd h (ascii_ne_replacement ascii)
        | some d =>
          rw [first] at h
          exact mem_of_firstChar? ascii (first.trans (congrArg some h.symm))
      · exact absurd h not_mem_nil
    · rcases mem_cons.mp h with here | there
      · exact absurd here (ascii_ne_replacement ascii)
      · exact mem_append_right _ (mem_singleton.mpr (mem_startByte ascii there))

theorem mem_decodeBytes (ascii : c.toNat < 128) (bytes : List UInt8) :
    ∀ pending, c ∈ (decodeBytes pending bytes).2 → c.toUInt8 ∈ pending ++ bytes := by
  induction bytes with
  | nil =>
    intro pending h
    exact absurd h not_mem_nil
  | cons byte bytes ih =>
    intro pending h
    rw [← singleton_append, ← append_assoc]
    rcases mem_append.mp h with here | there
    · exact mem_append_left _ (mem_decodeByte ascii here)
    · rcases mem_append.mp (ih _ there) with kept | later
      · exact mem_append_left _ (decodeByte_pending pending byte kept)
      · exact mem_append_right _ later

theorem mem_decodeAll (ascii : c.toNat < 128) (h : c ∈ decodeAll bytes) : c.toUInt8 ∈ bytes := by
  rcases mem_append.mp h with decoded | flushed
  · exact mem_decodeBytes ascii bytes [] decoded
  · unfold flushBytes at flushed
    split at flushed
    · exact absurd flushed not_mem_nil
    · exact absurd (mem_singleton.mp flushed) (ascii_ne_replacement ascii)

theorem serialize_other (other : c ≠ byteOrderMark) (xs ys : List Char) :
    (serialize false (xs ++ c :: ys)).2 = (serialize false xs).2 ++ c :: ys := by
  cases xs with
  | nil => simp [serialize, other]
  | cons d xs =>
    simp only [cons_append, serialize]
    split <;> rfl

theorem mem_textOfBytes (ascii : c.toNat < 128)
    (h : c ∈ textOfBytes bytes) : c.toUInt8 ∈ bytes := by
  apply mem_decodeAll ascii
  rw [textOfBytes] at h
  cases all : decodeAll bytes with
  | nil =>
    rw [all] at h
    exact h
  | cons d cs =>
    rw [all, serialize] at h
    simp only at h
    split at h
    · exact mem_cons_of_mem _ h
    · exact h

theorem decodeBytes_later {lead : UInt8} (later rest : List UInt8) : ∀ done : List UInt8,
    later ≠ [] → bytesNeeded lead = (done ++ later).length →
    (∀ before byte after, later = before ++ byte :: after →
      continues lead (done ++ before) byte = true) →
    decodeBytes (lead :: done) (later ++ rest) =
      ((decodeBytes [] rest).1,
        (firstChar? (lead :: (done ++ later))).getD replacement :: (decodeBytes [] rest).2) := by
  induction later with
  | nil => exact fun _ h => absurd rfl h
  | cons byte later ih =>
    intro done _ needed goes
    have here : continues lead done byte = true := by
      simpa using goes [] byte later rfl
    rw [cons_append, decodeBytes, decodeByte, if_pos here]
    cases later with
    | nil =>
      rw [if_pos (by simp [needed])]
      rfl
    | cons next later =>
      have more : (lead :: done ++ [byte]).length ≠ bytesNeeded lead + 1 := by
        simp [needed]
      rw [if_neg more]
      have tail := ih (done ++ [byte]) (cons_ne_nil _ _) (by simpa using needed) (by
        intro before other after split
        simpa using goes (byte :: before) other after (by rw [split, cons_append]))
      rw [append_assoc, singleton_append] at tail
      rw [cons_append, tail]
      rfl

theorem decodeBytes_encodeChar (c : Char) (rest : List UInt8) :
    decodeBytes [] (String.utf8EncodeChar c ++ rest) =
      ((decodeBytes [] rest).1, c :: (decodeBytes [] rest).2) := by
  have first : firstChar? (String.utf8EncodeChar c) = some c := by
    simpa using firstChar?_encode c []
  by_cases ascii : c.toNat < 128
  · obtain ⟨bytes, value, small⟩ := utf8EncodeChar_ascii ascii
    rw [bytes, singleton_append, decodeBytes, decodeByte_ascii small, value, Char.ofNat_toNat]
    rfl
  · obtain ⟨lead, second, later, bytes, needed, follows, others⟩ :=
      utf8EncodeChar_multibyte (Nat.le_of_not_lt ascii)
    rw [bytes] at first ⊢
    have large : ¬ lead < 0x80 := not_ascii_of_bytesNeeded (by omega)
    have start : decodeByte [] lead = ([lead], []) := by
      rw [decodeByte, startByte, if_neg large, if_neg (by omega)]
    have goes : ∀ before byte after, second :: later = before ++ byte :: after →
        continues lead before byte = true := by
      intro before byte after split
      cases before with
      | nil =>
        obtain ⟨rfl, -⟩ := List.cons.inj split
        rw [continues, if_pos rfl]
        exact follows
      | cons other before =>
        have mem : byte ∈ later := by
          rw [(List.cons.inj split).2]
          exact mem_append_right _ mem_cons_self
        rw [continues, if_neg (cons_ne_nil _ _)]
        simpa using others byte mem
    rw [cons_append, decodeBytes, start]
    have tail := decodeBytes_later (second :: later) rest [] (cons_ne_nil _ _)
      (by simpa using needed) goes
    rw [nil_append, first] at tail
    simp only [tail]
    rfl

theorem decodeBytes_encodeText (text : String) :
    decodeBytes [] (encodeText text) = ([], text.toList) := by
  unfold encodeText
  induction text.toList with
  | nil => rfl
  | cons c cs ih => rw [flatMap_cons, decodeBytes_encodeChar, ih]

end CrabbyKit
