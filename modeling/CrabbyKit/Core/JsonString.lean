import Mathlib.Algebra.GroupWithZero.Nat
import Mathlib.Data.List.Basic

/-!
# Texts as UTF-16 code units

JavaScript counts and cuts strings in code units.
-/

namespace CrabbyKit

open List

/-- Code units of a character. -/
def charUnits (c : Char) : Nat := if c.toNat < 65536 then 1 else 2

/-- `text.length`. -/
def textLength (text : String) : Nat := (text.toList.map charUnits).sum

/-- The characters that fit into so many code units. -/
def takeUnits : Nat → List Char → List Char
  | _, [] => []
  | n, c :: rest => if charUnits c ≤ n then c :: takeUnits (n - charUnits c) rest else []

/-- `text.slice(0, n)`, without the half of a character it may end in. -/
def sliceText (n : Nat) (text : String) : String := String.ofList (takeUnits n text.toList)

theorem takeUnits_eq_self {n : Nat} {cs : List Char} (h : (cs.map charUnits).sum ≤ n) :
    takeUnits n cs = cs := by
  induction cs generalizing n with
  | nil => rfl
  | cons c cs ih =>
    rw [map_cons, sum_cons] at h
    rw [takeUnits, if_pos (by omega), ih (by omega)]

theorem sum_takeUnits_le (n : Nat) (cs : List Char) : ((takeUnits n cs).map charUnits).sum ≤ n := by
  induction cs generalizing n with
  | nil => simp [takeUnits]
  | cons c cs ih =>
    rw [takeUnits]
    split
    · rw [map_cons, sum_cons]
      have hrest := ih (n - charUnits c)
      omega
    · simp

theorem sliceText_eq_self_iff {n : Nat} {text : String} :
    sliceText n text = text ↔ textLength text ≤ n := by
  constructor
  · intro h
    have hslice := sum_takeUnits_le n text.toList
    have hlist : takeUnits n text.toList = text.toList := by
      have hchars := congrArg String.toList h
      rwa [sliceText, String.toList_ofList] at hchars
    rwa [hlist] at hslice
  · intro h
    rw [sliceText, takeUnits_eq_self h, String.ofList_toList]

/-!
# String literals of JSON

`JSON.stringify` and `JSON.parse` on strings. An escape names one UTF-16 code unit, so a literal
is read as code units first; a unit that is half of a pair without its other half becomes the
replacement character.
-/

/-- The code units of a character. -/
def unitsOf (c : Char) : List Nat :=
  if c.toNat < 0x10000 then [c.toNat]
  else [0xD800 + (c.toNat - 0x10000) / 0x400, 0xDC00 + (c.toNat - 0x10000) % 0x400]

/-- The first half of a pair. -/
def highHalf (u : Nat) : Bool := 0xD800 ≤ u && u < 0xDC00

/-- The second half of a pair. -/
def lowHalf (u : Nat) : Bool := 0xDC00 ≤ u && u < 0xE000

/-- The characters of code units that follow the first half of a pair, if one is open. -/
def charsAfter : Option Nat → List Nat → List Char
  | none, [] => []
  | some _, [] => [Char.ofNat 0xFFFD]
  | none, u :: rest =>
    if highHalf u then charsAfter (some u) rest
    else (if lowHalf u then Char.ofNat 0xFFFD else Char.ofNat u) :: charsAfter none rest
  | some high, u :: rest =>
    if lowHalf u then
      Char.ofNat (0x10000 + (high - 0xD800) * 0x400 + (u - 0xDC00)) :: charsAfter none rest
    else if highHalf u then Char.ofNat 0xFFFD :: charsAfter (some u) rest
    else Char.ofNat 0xFFFD :: Char.ofNat u :: charsAfter none rest

/-- The characters of code units. -/
def charsOfUnits (units : List Nat) : List Char := charsAfter none units

theorem charsOfUnits_unitsOf (c : Char) (units : List Nat) :
    charsOfUnits (unitsOf c ++ units) = c :: charsOfUnits units := by
  have hvalid : c.toNat < 0xD800 ∨ 0xDFFF < c.toNat ∧ c.toNat < 0x110000 := c.valid
  by_cases hc : c.toNat < 0x10000
  · have hhigh : highHalf c.toNat = false := by simp [highHalf]; omega
    have hlow : lowHalf c.toNat = false := by simp [lowHalf]; omega
    rw [unitsOf, if_pos hc, singleton_append, charsOfUnits, charsAfter, hhigh, hlow]
    simp [charsOfUnits]
  · have hhigh : highHalf (0xD800 + (c.toNat - 0x10000) / 0x400) = true := by
      simp [highHalf]; omega
    have hlow : lowHalf (0xDC00 + (c.toNat - 0x10000) % 0x400) = true := by
      simp [lowHalf]; omega
    have hval : 0x10000 + (0xD800 + (c.toNat - 0x10000) / 0x400 - 0xD800) * 0x400 +
        (0xDC00 + (c.toNat - 0x10000) % 0x400 - 0xDC00) = c.toNat := by omega
    rw [unitsOf, if_neg hc, cons_append, singleton_append, charsOfUnits, charsAfter,
      if_pos hhigh, charsAfter, if_pos hlow, hval, Char.ofNat_toNat, charsOfUnits]

theorem charsOfUnits_flatMap (cs : List Char) : charsOfUnits (cs.flatMap unitsOf) = cs := by
  induction cs with
  | nil => rfl
  | cons c cs ih => rw [flatMap_cons, charsOfUnits_unitsOf, ih]

/-- A hexadecimal digit, in lower case. -/
def hexDigit (n : Nat) : Char :=
  if n < 10 then Char.ofNat (48 + n) else Char.ofNat (87 + n)

/-- A character as a literal spells it. -/
def escapeChar (c : Char) : List Char :=
  if c = '"' then ['\\', '"']
  else if c = '\\' then ['\\', '\\']
  else if c.toNat = 8 then ['\\', 'b']
  else if c.toNat = 12 then ['\\', 'f']
  else if c.toNat = 10 then ['\\', 'n']
  else if c.toNat = 13 then ['\\', 'r']
  else if c.toNat = 9 then ['\\', 't']
  else if c.toNat < 32 then
    ['\\', 'u', '0', '0', hexDigit (c.toNat / 16), hexDigit (c.toNat % 16)]
  else [c]

/-- A string as a literal. -/
def quote (cs : List Char) : List Char := '"' :: cs.flatMap escapeChar ++ ['"']

/-- The value of a hexadecimal digit, in either case. -/
def hexValue (c : Char) : Option Nat :=
  if 48 ≤ c.toNat ∧ c.toNat ≤ 57 then some (c.toNat - 48)
  else if 97 ≤ c.toNat ∧ c.toNat ≤ 102 then some (c.toNat - 87)
  else if 65 ≤ c.toNat ∧ c.toNat ≤ 70 then some (c.toNat - 55)
  else none

/-- The code unit of four hexadecimal digits. -/
def hexUnit (a b c d : Char) : Option Nat := do
  let w ← hexValue a
  let x ← hexValue b
  let y ← hexValue c
  let z ← hexValue d
  some (((w * 16 + x) * 16 + y) * 16 + z)

def shortEscape (c : Char) : Option Nat :=
  if c = '"' ∨ c = '\\' ∨ c = '/' then some c.toNat
  else if c = 'b' then some 8
  else if c = 'f' then some 12
  else if c = 'n' then some 10
  else if c = 'r' then some 13
  else if c = 't' then some 9
  else none

/-- The code unit of an escape whose backslash was read, and the text after it. -/
def parseEscape : List Char → Option (List Nat × List Char)
  | [] => none
  | e :: rest =>
    if e = 'u' then
      match rest with
      | w :: x :: y :: z :: rest' => (hexUnit w x y z).map fun unit => ([unit], rest')
      | _ => none
    else (shortEscape e).map fun unit => ([unit], rest)

/-- The code units that a literal goes on with, and the text after them. -/
def parseElement : List Char → Option (List Nat × List Char)
  | [] => none
  | c :: rest =>
    if c = '\\' then parseEscape rest
    else if c.toNat < 32 then none
    else some (unitsOf c, rest)

/-- The code units up to the closing quote, and the text after it. -/
def parseUnits : Nat → List Char → Option (List Nat × List Char)
  | 0, _ => none
  | fuel + 1, cs =>
    if cs.head? = some '"' then some ([], cs.tail)
    else do
      let element ← parseElement cs
      let tail ← parseUnits fuel element.2
      some (element.1 ++ tail.1, tail.2)

/-- The string of a literal whose opening quote was read. -/
def parseString (cs : List Char) : Option (String × List Char) :=
  (parseUnits (cs.length + 1) cs).map fun p => (String.ofList (charsOfUnits p.1), p.2)

theorem control_spec : ∀ n < 32,
    hexUnit '0' '0' (hexDigit (n / 16)) (hexDigit (n % 16)) = some n := by
  decide

theorem unitsOf_of_lt {c : Char} (h : c.toNat < 0x10000) : unitsOf c = [c.toNat] := by
  rw [unitsOf, if_pos h]

theorem parseElement_escapeChar (c : Char) (rest : List Char) :
    parseElement (escapeChar c ++ rest) = some (unitsOf c, rest) := by
  have hval : ∀ n, c.toNat = n → n < 0x10000 → unitsOf c = [n] := by
    rintro n rfl hn
    exact unitsOf_of_lt hn
  unfold escapeChar
  split
  · rename_i hc
    rw [hval 34 (by rw [hc]; rfl) (by omega)]
    rfl
  split
  · rename_i hc
    rw [hval 92 (by rw [hc]; rfl) (by omega)]
    rfl
  split
  · rename_i hc
    rw [hval 8 hc (by omega)]
    rfl
  split
  · rename_i hc
    rw [hval 12 hc (by omega)]
    rfl
  split
  · rename_i hc
    rw [hval 10 hc (by omega)]
    rfl
  split
  · rename_i hc
    rw [hval 13 hc (by omega)]
    rfl
  split
  · rename_i hc
    rw [hval 9 hc (by omega)]
    rfl
  split
  · rename_i hlt
    have hunit := control_spec c.toNat hlt
    rw [unitsOf_of_lt (by omega)]
    simp [parseElement, parseEscape, hunit]
  · rename_i hslash _ _ _ _ _ hlt
    simp [parseElement, hslash, hlt]

theorem head_escapeChar (c : Char) (rest : List Char) :
    (escapeChar c ++ rest).head? ≠ some '"' := by
  unfold escapeChar
  split_ifs with hquote <;> simp [hquote]

theorem parseUnits_quote (cs rest : List Char) (fuel : Nat) (h : cs.length < fuel) :
    parseUnits fuel (cs.flatMap escapeChar ++ '"' :: rest) =
      some (cs.flatMap unitsOf, rest) := by
  induction cs generalizing fuel with
  | nil =>
    obtain ⟨fuel, rfl⟩ := Nat.exists_eq_add_one_of_ne_zero (Nat.ne_zero_of_lt h)
    rfl
  | cons c cs ih =>
    obtain ⟨fuel, rfl⟩ := Nat.exists_eq_add_one_of_ne_zero (Nat.ne_zero_of_lt h)
    rw [flatMap_cons, append_assoc, parseUnits, if_neg (head_escapeChar c _),
      parseElement_escapeChar]
    simp only [Option.bind_eq_bind, Option.bind_some]
    rw [ih fuel (by simpa using h)]
    rfl

theorem length_le_flatMap_escapeChar (cs : List Char) :
    cs.length ≤ (cs.flatMap escapeChar).length := by
  induction cs with
  | nil => simp
  | cons c cs ih =>
    have hpos : 0 < (escapeChar c).length := by
      unfold escapeChar
      split_ifs <;> simp
    simp only [flatMap_cons, length_cons, length_append]
    omega

theorem parseString_quote (text : String) (rest : List Char) :
    parseString (text.toList.flatMap escapeChar ++ '"' :: rest) = some (text, rest) := by
  have hlen := length_le_flatMap_escapeChar text.toList
  rw [parseString, parseUnits_quote _ _ _ (by rw [length_append]; omega)]
  simp [charsOfUnits_flatMap]

end CrabbyKit
