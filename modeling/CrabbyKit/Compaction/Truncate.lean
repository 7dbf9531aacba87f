import CrabbyKit.Core.JsonString
import Mathlib.Data.Rat.Floor

/-!
# Truncating tool results

`truncateToolResult` of `compaction/compaction.ts`. A text is its UTF-16 code units here:
they are what `length` counts and where `slice` cuts. The limit is any number, as an exact
rational.
-/

namespace CrabbyKit.Compaction

open List

def unitsOf (c : Char) : List UInt16 :=
  if c.toNat < 65536 then [c.toNat.toUInt16]
  else [(55296 + (c.toNat - 65536) / 1024).toUInt16, (56320 + (c.toNat - 65536) % 1024).toUInt16]

def codeUnits (text : String) : List UInt16 := text.toList.flatMap unitsOf

/-- An index as `slice` reads it: without its fraction. -/
def toInteger (index : ℚ) : Int := if index < 0 then ⌈index⌉ else ⌊index⌋

/-- The position an index of `slice` means: a negative one counts from the end. -/
def sliceIndex (length : Nat) (index : Int) : Nat :=
  if index < 0 then (length + index).toNat else min index.toNat length

/-- `text.slice(0, stop)`. -/
def sliceTo (text : List UInt16) (stop : ℚ) : List UInt16 :=
  text.take (sliceIndex text.length (toInteger stop))

/-- `text.slice(start)`. -/
def sliceFrom (text : List UInt16) (start : ℚ) : List UInt16 :=
  text.drop (sliceIndex text.length (toInteger start))

section

variable (toLocaleString : ℚ → String)

/-- The marker that stands for what is left out. -/
def truncationMarker (length : Nat) (maxChars : ℚ) : List UInt16 :=
  codeUnits ("\n\n⚠️ [Content truncated — original was " ++
    (toLocaleString length ++ " chars, limit is " ++ toLocaleString maxChars ++ "]\n\n"))

def truncateToolResult (content : List UInt16) (maxChars : ℚ) : List UInt16 :=
  if (content.length : ℚ) ≤ maxChars then content
  else
    let marker := truncationMarker toLocaleString content.length maxChars
    let available := maxChars - marker.length
    let prefixLen : Int := ⌊available / 2⌋
    let suffixLen := available - prefixLen
    sliceTo content prefixLen ++ marker ++ sliceFrom content (-suffixLen)

/-- The hard limit is kept: a text of at most `maxChars` characters, the content itself where it
fits, else a prefix and a suffix of it that do not overlap, with the marker between. -/
structure HardLimit (content : List UInt16) (maxChars : ℚ) : Prop where
  bounded : ((truncateToolResult toLocaleString content maxChars).length : ℚ) ≤ maxChars
  fits : (content.length : ℚ) ≤ maxChars →
    truncateToolResult toLocaleString content maxChars = content
  cut : maxChars < content.length → ∃ front middle back, content = front ++ middle ++ back ∧
    truncateToolResult toLocaleString content maxChars =
      front ++ truncationMarker toLocaleString content.length maxChars ++ back

theorem toInteger_intCast (n : Int) : toInteger n = n := by
  unfold toInteger
  split_ifs
  · exact Int.ceil_intCast n
  · exact Int.floor_intCast n

theorem toInteger_neg {q : ℚ} (hq : 0 < q) : toInteger (-q) = -⌊q⌋ := by
  rw [toInteger, if_pos (neg_neg_of_pos hq), Int.ceil_neg]

theorem toInteger_neg_fraction {q : ℚ} (hnonneg : 0 ≤ q) (hless : q < 1) : toInteger (-q) = 0 := by
  rcases hnonneg.lt_or_eq with hpos | hzero
  · rw [toInteger_neg hpos, Int.floor_eq_zero_iff.mpr ⟨hnonneg, hless⟩, neg_zero]
  · rw [← hzero, neg_zero]
    exact toInteger_intCast 0

theorem sliceTo_natCast {content : List UInt16} {p : Nat} (hp : p ≤ content.length) :
    sliceTo content ((p : Int) : ℚ) = content.take p := by
  have hindex : sliceIndex content.length (p : Int) = p := by
    simp only [sliceIndex]
    split_ifs <;> omega
  rw [sliceTo, toInteger_intCast, hindex]

theorem sliceFrom_neg {content : List UInt16} {s : ℚ} {q : Nat} (hs : 1 ≤ s) (hq : ⌊s⌋ = q) :
    sliceFrom content (-s) = content.drop (content.length - q) := by
  have hpos : (0 : Int) < ⌊s⌋ := Int.floor_pos.mpr hs
  have hindex : sliceIndex content.length (-(q : Int)) = content.length - q := by
    simp only [sliceIndex]
    split_ifs <;> omega
  rw [sliceFrom, toInteger_neg (zero_lt_one.trans_le hs), hq, hindex]

variable {toLocaleString} {content : List UInt16} {maxChars : ℚ}

theorem truncateToolResult_room (hlong : maxChars < content.length)
    (hroom : ((truncationMarker toLocaleString content.length maxChars).length : ℚ) + 1 ≤
      maxChars) :
    ∃ front middle back, content = front ++ middle ++ back ∧
      truncateToolResult toLocaleString content maxChars =
        front ++ truncationMarker toLocaleString content.length maxChars ++ back ∧
      ((truncateToolResult toLocaleString content maxChars).length : ℚ) ≤ maxChars := by
  rw [truncateToolResult, if_neg (not_le_of_gt hlong)]
  generalize truncationMarker toLocaleString content.length maxChars = marker at hroom ⊢
  dsimp only
  have hmarker : (0 : ℚ) ≤ marker.length := Nat.cast_nonneg _
  generalize hAvailable : maxChars - (marker.length : ℚ) = available
  have hone : 1 ≤ available := by linarith
  obtain ⟨p, hp⟩ : ∃ p : Nat, ⌊available / 2⌋ = p :=
    Int.eq_ofNat_of_zero_le (Int.floor_nonneg.mpr (by linarith))
  have hple : (p : ℚ) ≤ available / 2 := by
    have hfloor := Int.floor_le (available / 2)
    rwa [hp, Int.cast_natCast] at hfloor
  rw [hp, Int.cast_natCast]
  -- half of what is available or more is left for the suffix, and at least one character
  have hsuffix : 1 ≤ available - p := by
    rcases Nat.eq_zero_or_pos p with rfl | hpos
    · rw [Nat.cast_zero]
      linarith
    · have hp1 : (1 : ℚ) ≤ p := Nat.one_le_cast.mpr hpos
      linarith
  obtain ⟨q, hq⟩ : ∃ q : Nat, ⌊available - p⌋ = q :=
    Int.eq_ofNat_of_zero_le (Int.floor_nonneg.mpr (by linarith))
  have hqle : (q : ℚ) ≤ available - p := by
    have hfloor := Int.floor_le (available - p)
    rwa [hq, Int.cast_natCast] at hfloor
  have hsum : p + q < content.length := by
    have hcast : ((p + q : Nat) : ℚ) < content.length := by
      rw [Nat.cast_add]
      linarith
    exact_mod_cast hcast
  have hfront : sliceTo content (p : ℚ) = content.take p := by
    have hnat := sliceTo_natCast (Nat.le_of_lt (Nat.lt_of_le_of_lt (Nat.le_add_right p q) hsum))
    rwa [Int.cast_natCast] at hnat
  rw [hfront, sliceFrom_neg hsuffix hq]
  refine ⟨content.take p, (content.drop p).take (content.length - q - p),
    content.drop (content.length - q), ?_, rfl, ?_⟩
  · have hlater : content.drop (content.length - q) =
        (content.drop p).drop (content.length - q - p) := by
      rw [drop_drop]
      congr 1
      omega
    rw [hlater, append_assoc, take_append_drop, take_append_drop]
  · have hlength : (content.take p ++ marker ++ content.drop (content.length - q)).length =
        p + marker.length + q := by
      simp only [length_append, length_take, length_drop]
      omega
    rw [hlength]
    push_cast
    linarith

theorem lt_length_truncateToolResult (hlong : maxChars < content.length)
    (hroom : maxChars <
      ((truncationMarker toLocaleString content.length maxChars).length : ℚ) + 1) :
    maxChars < (truncateToolResult toLocaleString content maxChars).length := by
  rw [truncateToolResult, if_neg (not_le_of_gt hlong)]
  generalize truncationMarker toLocaleString content.length maxChars = marker at hroom ⊢
  simp only [length_append, Nat.cast_add]
  have hfront : (0 : ℚ) ≤ (sliceTo content
      ((⌊(maxChars - (marker.length : ℚ)) / 2⌋ : Int) : ℚ)).length := Nat.cast_nonneg _
  rcases lt_or_ge maxChars marker.length with hnone | hsome
  · have hback : (0 : ℚ) ≤ (sliceFrom content (-(maxChars - (marker.length : ℚ) -
        ((⌊(maxChars - (marker.length : ℚ)) / 2⌋ : Int) : ℚ)))).length := Nat.cast_nonneg _
    linarith
  · -- less than a character is available, and `slice(-0)` is the whole content
    have hzero : ⌊(maxChars - (marker.length : ℚ)) / 2⌋ = 0 :=
      Int.floor_eq_zero_iff.mpr ⟨by linarith, by linarith⟩
    have hwhole : sliceFrom content (-(maxChars - (marker.length : ℚ) - ((0 : Int) : ℚ))) =
        content := by
      rw [Int.cast_zero, sub_zero, sliceFrom, toInteger_neg_fraction (by linarith) (by linarith)]
      simp only [sliceIndex, lt_irrefl, if_false, Int.toNat_zero, Nat.zero_min, drop_zero]
    rw [hzero] at hfront ⊢
    rw [hwhole]
    have hmarker : (0 : ℚ) ≤ marker.length := Nat.cast_nonneg _
    linarith

/-- The hard limit is hard exactly for contents that fit and for limits that leave room for a
character beside the marker. -/
theorem hardLimit_iff (toLocaleString : ℚ → String) (content : List UInt16) (maxChars : ℚ) :
    HardLimit toLocaleString content maxChars ↔
      (content.length : ℚ) ≤ maxChars ∨
        ((truncationMarker toLocaleString content.length maxChars).length : ℚ) + 1 ≤ maxChars := by
  constructor
  · intro h
    by_contra hnot
    rw [not_or, not_le, not_le] at hnot
    exact absurd h.bounded (not_le_of_gt (lt_length_truncateToolResult hnot.1 hnot.2))
  · intro h
    by_cases hfits : (content.length : ℚ) ≤ maxChars
    · have hsame : truncateToolResult toLocaleString content maxChars = content := if_pos hfits
      exact ⟨by rwa [hsame], fun _ => hsame, fun hlong => absurd hfits (not_le_of_gt hlong)⟩
    · obtain ⟨front, middle, back, hcontent, hresult, hlength⟩ :=
        truncateToolResult_room (lt_of_not_ge hfits) (h.resolve_left hfits)
      exact ⟨hlength, fun hle => absurd hle hfits,
        fun _ => ⟨front, middle, back, hcontent, hresult⟩⟩

end

def plainDigits (number : ℚ) : String := toString number.num

/-- A hundred characters under a limit of fifty become two hundred and fifty. -/
theorem hundred_not_hardLimit :
    (truncateToolResult plainDigits (List.replicate 100 97) 50).length = 250 ∧
      ¬ HardLimit plainDigits (List.replicate 100 97) 50 := by
  have hlength : (truncateToolResult plainDigits (List.replicate 100 97) 50).length = 250 := by
    decide +kernel
  refine ⟨hlength, fun h => ?_⟩
  have hbounded := h.bounded
  rw [hlength] at hbounded
  norm_num at hbounded

end CrabbyKit.Compaction
