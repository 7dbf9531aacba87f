import CrabbyKit.Core.JsonText
import Mathlib.Tactic.Ring

/-!
# Numbers in decimal

A finite number is known by the shortest decimal that is read back as it:
`Number.prototype.toString` writes this decimal, and a literal of JSON is read as one. Rounding to
double precision is not modelled, so every decimal counts as a number.
-/

namespace CrabbyKit

open List Option

/-- `mantissa * 10 ^ exponent` in lowest terms. -/
@[ext] structure Decimal where
  mantissa : Int
  exponent : Int
  lowest : mantissa % 10 ≠ 0 ∨ mantissa = 0 ∧ exponent = 0
  deriving DecidableEq

namespace Decimal

def zero : Decimal := ⟨0, 0, .inr ⟨rfl, rfl⟩⟩

/-- Move the zeros at the end of a mantissa into the exponent. -/
def stripZeros : Nat → Nat → Int → Nat × Int
  | 0, m, e => (m, e)
  | fuel + 1, m, e => if m % 10 = 0 then stripZeros fuel (m / 10) (e + 1) else (m, e)

theorem stripZeros_lowest {fuel m : Nat} (positive : 0 < m) (enough : m ≤ fuel) (e : Int) :
    (stripZeros fuel m e).1 % 10 ≠ 0 := by
  induction fuel generalizing m e with
  | zero => omega
  | succ fuel ih =>
    rw [stripZeros]
    split
    · apply ih
      · omega
      · omega
    · assumption

theorem stripZeros_of_lowest {m : Nat} (lowest : m % 10 ≠ 0) (fuel : Nat) (e : Int) :
    stripZeros fuel m e = (m, e) := by
  cases fuel with
  | zero => rfl
  | succ fuel => rw [stripZeros, if_neg lowest]

theorem stripZeros_mul_pow {m : Nat} (lowest : m % 10 ≠ 0) {j fuel : Nat} (enough : j ≤ fuel)
    (e : Int) : stripZeros fuel (m * 10 ^ j) e = (m, e + j) := by
  induction j generalizing fuel e with
  | zero => simpa using stripZeros_of_lowest lowest fuel e
  | succ j ih =>
    cases fuel with
    | zero => omega
    | succ fuel =>
      have grown : m * 10 ^ (j + 1) = 10 * (m * 10 ^ j) := by ring
      rw [stripZeros, grown, if_pos (Nat.mul_mod_right 10 _),
        Nat.mul_div_cancel_left _ (by decide), ih (by omega)]
      push_cast
      congr 1
      ring

/-- The number `± m * 10 ^ e`. -/
def ofParts (negative : Bool) (m : Nat) (e : Int) : Decimal :=
  if positive : 0 < m then
    ⟨if negative then -(stripZeros m m e).1 else (stripZeros m m e).1, (stripZeros m m e).2, by
      have lowest := stripZeros_lowest positive le_rfl e
      split <;> omega⟩
  else zero

variable (d : Decimal)

theorem ofParts_mul_pow (j : Nat) :
    ofParts (d.mantissa < 0) (d.mantissa.natAbs * 10 ^ j) (d.exponent - j) = d := by
  unfold ofParts
  obtain ⟨m, e, lowest⟩ := d
  rcases lowest with lowest | ⟨rfl, rfl⟩
  · have low : m.natAbs % 10 ≠ 0 := by omega
    have positive : 0 < m.natAbs * 10 ^ j := Nat.mul_pos (by omega) (Nat.pow_pos (by decide))
    have enough : j ≤ m.natAbs * 10 ^ j := by
      calc j ≤ 10 ^ j := (Nat.lt_pow_self (by decide)).le
        _ ≤ m.natAbs * 10 ^ j := Nat.le_mul_of_pos_left _ (by omega)
    rw [dif_pos positive]
    ext
    · simp only [stripZeros_mul_pow low enough, decide_eq_true_eq]
      split <;> omega
    · simp only [stripZeros_mul_pow low enough]
      omega
  · rw [dif_neg (by simp)]
    rfl

def exponentText : Int → List Char
  | .ofNat n => 'e' :: '+' :: Nat.toDigits 10 n
  | .negSucc n => 'e' :: '-' :: Nat.toDigits 10 (n + 1)

/-- A literal: the digits before the point, those after it, and an exponent. -/
structure Literal where
  whole : List Char
  fraction : List Char
  exponent : Option Int

def Literal.text (literal : Literal) : List Char :=
  literal.whole ++ (if literal.fraction = [] then [] else '.' :: literal.fraction) ++
    literal.exponent.elim [] exponentText

/-- How `Number.prototype.toString` lays out the digits of a number that is not negative, the
point of which is behind the `n`-th digit. -/
def layout (digits : List Char) (n : Int) : Literal :=
  if digits.length ≤ n ∧ n ≤ 21 then
    ⟨digits ++ List.replicate (n - digits.length).toNat '0', [], none⟩
  else if 0 < n ∧ n ≤ 21 then ⟨digits.take n.toNat, digits.drop n.toNat, none⟩
  else if -6 < n ∧ n ≤ 0 then ⟨['0'], List.replicate (-n).toNat '0' ++ digits, none⟩
  else ⟨digits.take 1, digits.drop 1, some (n - 1)⟩

def digits (d : Decimal) : List Char := Nat.toDigits 10 d.mantissa.natAbs

def literal (d : Decimal) : Literal := layout d.digits (d.digits.length + d.exponent)

/-- `Number.prototype.toString`. -/
def text (d : Decimal) : List Char :=
  (if d.mantissa < 0 then ['-'] else []) ++ d.literal.text

/-- The digits at the head of a text. -/
def readDigits (cs : List Char) : Option (List Char × List Char) :=
  if cs.takeWhile Char.isDigit = [] then none
  else some (cs.takeWhile Char.isDigit, cs.dropWhile Char.isDigit)

/-- The digits before the point, without a leading zero. -/
def readWhole (cs : List Char) : Option (List Char × List Char) := do
  let (whole, rest) ← readDigits cs
  if whole.head? = some '0' ∧ whole ≠ ['0'] then none else some (whole, rest)

def readFraction (cs : List Char) : Option (List Char × List Char) :=
  if cs.head? = some '.' then readDigits cs.tail else some ([], cs)

/-- The digits of an exponent. -/
def readPower (cs : List Char) : Option (Nat × List Char) :=
  (readDigits cs).map fun p => (Nat.ofDigitChars 10 p.1 0, p.2)

/-- An exponent after its letter. -/
def readSigned (cs : List Char) : Option (Int × List Char) :=
  if cs.head? = some '-' then (readPower cs.tail).map fun p => (-p.1, p.2)
  else (readPower (if cs.head? = some '+' then cs.tail else cs)).map fun p => (p.1, p.2)

def readExponent (cs : List Char) : Option (Int × List Char) :=
  if cs.head? = some 'e' ∨ cs.head? = some 'E' then readSigned cs.tail else some (0, cs)

/-- A number at the head of a text. -/
def read (cs : List Char) : Option (Decimal × List Char) := do
  let negative : Bool := cs.head? = some '-'
  let (whole, afterWhole) ← readWhole (if negative then cs.tail else cs)
  let (fraction, afterFraction) ← readFraction afterWhole
  let (exponent, rest) ← readExponent afterFraction
  some (ofParts negative (Nat.ofDigitChars 10 (whole ++ fraction) 0)
    (exponent - fraction.length), rest)

def NoDigit (cs : List Char) : Prop := ∀ c ∈ cs.head?, c.isDigit = false

variable {rest : List Char}

theorem readDigits_append {ds : List Char} (digits : ∀ c ∈ ds, c.isDigit = true)
    (nonempty : ds ≠ []) (h : NoDigit rest) : readDigits (ds ++ rest) = some (ds, rest) := by
  have after : rest.takeWhile Char.isDigit = [] ∧ rest.dropWhile Char.isDigit = rest := by
    cases rest with
    | nil => exact ⟨rfl, rfl⟩
    | cons c cs => simp [h c rfl]
  rw [readDigits, takeWhile_append_of_pos digits, dropWhile_append_of_pos digits,
    after.1, after.2, append_nil, if_neg nonempty]

structure Literal.Valid (l : Literal) : Prop where
  whole : ∀ c ∈ l.whole, c.isDigit = true
  nonempty : l.whole ≠ []
  leading : l.whole.head? = some '0' → l.whole = ['0']
  fraction : ∀ c ∈ l.fraction, c.isDigit = true

theorem isDigit_of_mem_toDigits {n : Nat} {c : Char} (h : c ∈ Nat.toDigits 10 n) :
    c.isDigit = true := Nat.isDigit_of_mem_toDigits (by decide) (by decide) h

theorem head_exponentText (e : Int) : (exponentText e).head? = some 'e' := by
  cases e <;> rfl

theorem readPower_toDigits (n : Nat) (stop : NoDigit rest) :
    readPower (Nat.toDigits 10 n ++ rest) = some (n, rest) := by
  rw [readPower, readDigits_append (fun _ => isDigit_of_mem_toDigits) Nat.toDigits_ne_nil stop,
    map_some, Nat.ofDigitChars_ten_toDigits]

theorem readExponent_exponentText (e : Option Int) (h : Json.Ends rest) :
    readExponent (e.elim [] exponentText ++ rest) = some (e.getD 0, rest) := by
  have stop : NoDigit rest := fun c hc => (h c hc).1
  cases e with
  | none =>
    have other : ¬(rest.head? = some 'e' ∨ rest.head? = some 'E') := by
      rintro (hc | hc)
      · exact (h _ hc).2.2.1 rfl
      · exact (h _ hc).2.2.2 rfl
    rw [elim_none, nil_append, readExponent, if_neg other, getD_none]
  | some e =>
    cases e with
    | ofNat n =>
      rw [elim_some, exponentText, cons_append, cons_append, readExponent,
        if_pos (.inl rfl), tail_cons, readSigned, if_neg (by simp),
        if_pos head?_cons, tail_cons, readPower_toDigits n stop]
      rfl
    | negSucc n =>
      rw [elim_some, exponentText, cons_append, cons_append, readExponent, if_pos (.inl rfl),
        tail_cons, readSigned, if_pos head?_cons, tail_cons, readPower_toDigits (n + 1) stop]
      rfl

theorem noDigit_exponentText (e : Option Int) (h : Json.Ends rest) :
    NoDigit (e.elim [] exponentText ++ rest) ∧
      (e.elim [] exponentText ++ rest).head? ≠ some '.' := by
  cases e with
  | none => exact ⟨fun c hc => (h c hc).1, fun hc => (h _ hc).2.1 rfl⟩
  | some e =>
    have head : ((some e).elim [] exponentText ++ rest).head? = some 'e' := by
      rw [elim_some, head?_append, head_exponentText]
      rfl
    refine ⟨fun c hc => ?_, ?_⟩
    · rw [head] at hc
      cases hc
      decide
    · rw [head]
      decide

theorem readFraction_fraction {fraction after : List Char}
    (digits : ∀ c ∈ fraction, c.isDigit = true) (stop : NoDigit after)
    (point : after.head? ≠ some '.') :
    readFraction ((if fraction = [] then [] else '.' :: fraction) ++ after) =
      some (fraction, after) := by
  unfold readFraction
  by_cases empty : fraction = []
  · rw [if_pos empty, nil_append, if_neg point, empty]
  · rw [if_neg empty, cons_append, if_pos head?_cons, tail_cons,
      readDigits_append digits empty stop]

theorem readWhole_append {whole after : List Char} (digits : ∀ c ∈ whole, c.isDigit = true)
    (nonempty : whole ≠ []) (leading : whole.head? = some '0' → whole = ['0'])
    (stop : NoDigit after) : readWhole (whole ++ after) = some (whole, after) := by
  rw [readWhole, readDigits_append digits nonempty stop]
  exact if_neg fun bad => bad.2 (leading bad.1)

theorem noDigit_fraction (fraction : List Char) {after : List Char} (stop : NoDigit after) :
    NoDigit ((if fraction = [] then [] else '.' :: fraction) ++ after) := by
  split
  · exact stop
  · rintro c ⟨⟩
    decide

theorem read_literal (negative : Bool) {l : Literal} (valid : l.Valid) (h : Json.Ends rest) :
    read ((if negative then ['-'] else []) ++ l.text ++ rest) =
      some (ofParts negative (Nat.ofDigitChars 10 (l.whole ++ l.fraction) 0)
        (l.exponent.getD 0 - l.fraction.length), rest) := by
  obtain ⟨stop, point⟩ := noDigit_exponentText l.exponent h
  have whole := readWhole_append valid.whole valid.nonempty valid.leading
    (noDigit_fraction l.fraction stop)
  have fraction := readFraction_fraction valid.fraction stop point
  have exponent := readExponent_exponentText l.exponent h
  have text : l.text ++ rest = l.whole ++ ((if l.fraction = [] then [] else '.' :: l.fraction) ++
      (l.exponent.elim [] exponentText ++ rest)) := by
    rw [Literal.text, append_assoc, append_assoc]
  have sign : decide ((l.text ++ rest).head? = some '-') = false := by
    rw [decide_eq_false_iff_not]
    cases first : l.whole with
    | nil => exact absurd first valid.nonempty
    | cons c cs =>
      rw [text, first]
      rintro ⟨⟩
      have digit := valid.whole '-' (by rw [first]; exact mem_cons_self)
      exact absurd digit (by decide)
  unfold read
  cases negative with
  | true =>
    rw [if_pos rfl, append_assoc, singleton_append]
    simp only [head?_cons, decide_true, if_true, tail_cons]
    rw [text]
    simp only [whole, fraction, exponent, bind_eq_bind, bind_some]
  | false =>
    rw [if_neg Bool.false_ne_true, nil_append]
    simp only [sign, Bool.false_eq_true, if_false]
    rw [text]
    simp only [whole, fraction, exponent, bind_eq_bind, bind_some]

theorem digits_leading {d : Decimal} (h : d.digits.head? = some '0') :
    d.digits = ['0'] ∧ d.exponent = 0 := by
  have zero := Json.eq_zero_of_head_toDigits _ h
  refine ⟨by rw [digits, zero]; rfl, ?_⟩
  have lowest := d.lowest
  omega

theorem digits_pos : 0 < d.digits.length := Nat.length_toDigits_pos

theorem head_take_digits {n : Nat} (positive : 0 < n) :
    (d.digits.take n).head? = d.digits.head? := by
  rw [head?_take, if_neg (by omega)]

theorem literal_valid : d.literal.Valid := by
  have digit : ∀ c ∈ d.digits, c.isDigit = true := fun _ => isDigit_of_mem_toDigits
  have zeros (n : Nat) : ∀ c ∈ List.replicate n '0', c.isDigit = true := by
    intro c mem
    rw [eq_of_mem_replicate mem]
    decide
  have length := digits_pos d
  have nonempty (n : Nat) (positive : 0 < n) : d.digits.take n ≠ [] := by
    rw [← length_pos_iff, length_take]
    omega
  have single (h : d.digits.head? = some '0') : d.digits.length = 1 ∧ d.exponent = 0 := by
    obtain ⟨one, none⟩ := digits_leading h
    exact ⟨by rw [one]; rfl, none⟩
  unfold literal layout
  split_ifs with integral pointed small
  · refine ⟨forall_mem_append.mpr ⟨digit, zeros _⟩, by simp [digits], ?_, by simp⟩
    intro h
    rw [head?_append_of_ne_nil _ (length_pos_iff.mp length)] at h
    obtain ⟨one, none⟩ := digits_leading h
    simp [one, none]
  · refine ⟨fun c mem => digit c (mem_of_mem_take mem), nonempty _ (by omega), ?_,
      fun c mem => digit c (mem_of_mem_drop mem)⟩
    intro h
    rw [head_take_digits d (by omega)] at h
    have := single h
    omega
  · refine ⟨?_, cons_ne_nil _ _, fun _ => rfl, forall_mem_append.mpr ⟨zeros _, digit⟩⟩
    exact zeros 1
  · refine ⟨fun c mem => digit c (mem_of_mem_take mem), nonempty _ Nat.one_pos, ?_,
      fun c mem => digit c (mem_of_mem_drop mem)⟩
    intro h
    rw [head_take_digits d Nat.one_pos] at h
    have := single h
    omega

theorem literal_value : ∃ j : Nat,
    Nat.ofDigitChars 10 (d.literal.whole ++
      d.literal.fraction) 0 = d.mantissa.natAbs * 10 ^ j ∧
    d.literal.exponent.getD 0 - d.literal.fraction.length = d.exponent - j := by
  have value : Nat.ofDigitChars 10 d.digits 0 = d.mantissa.natAbs := Nat.ofDigitChars_ten_toDigits
  have length := digits_pos d
  unfold literal layout
  split_ifs with integral pointed small
  · refine ⟨(d.digits.length + d.exponent - d.digits.length).toNat, ?_, ?_⟩
    · rw [append_nil, Nat.ofDigitChars_append, value, Nat.ofDigitChars_replicate_zero, Nat.mul_comm]
    · simp only [getD_none, length_nil]
      omega
  · refine ⟨0, ?_, ?_⟩
    · rw [take_append_drop, value, pow_zero, Nat.mul_one]
    · simp only [getD_none, length_drop]
      omega
  · refine ⟨0, ?_, ?_⟩
    · rw [Nat.ofDigitChars_append, Nat.ofDigitChars_append, Nat.ofDigitChars_replicate_zero,
        pow_zero, Nat.mul_one]
      exact value
    · simp only [getD_none, length_append, length_replicate]
      omega
  · refine ⟨0, ?_, ?_⟩
    · rw [take_append_drop, value, pow_zero, Nat.mul_one]
    · simp only [getD_some, length_drop]
      omega

/-- `JSON.parse` reads a number back. -/
theorem read_text (h : Json.Ends rest) : read (d.text ++ rest) = some (d, rest) := by
  obtain ⟨j, mantissa, exponent⟩ := d.literal_value
  have written := read_literal (d.mantissa < 0) d.literal_valid h
  rw [mantissa, exponent, ofParts_mul_pow] at written
  rw [text]
  simpa only [decide_eq_true_eq] using written

theorem head_text : ∃ c cs, d.text = c :: cs ∧ (c = '-' ∨ c.isDigit = true) := by
  have valid := literal_valid d
  unfold text
  split
  · exact ⟨'-', _, rfl, .inl rfl⟩
  · cases first : d.literal.whole with
    | nil => exact absurd first valid.nonempty
    | cons c cs =>
      refine ⟨c, _, by rw [Literal.text, first]; rfl, .inr (valid.whole c ?_)⟩
      rw [first]
      exact mem_cons_self

theorem newline_notMem_text : '\n' ∉ d.text := by
  have digit {cs : List Char} (h : ∀ c ∈ cs, c.isDigit = true) : '\n' ∉ cs := fun mem =>
    absurd (h _ mem) (by decide)
  have power (n : Nat) : '\n' ∉ Nat.toDigits 10 n := digit fun _ => isDigit_of_mem_toDigits
  have exponent : '\n' ∉ d.literal.exponent.elim [] exponentText := by
    cases d.literal.exponent with
    | none => exact not_mem_nil
    | some e => cases e <;> simp [exponentText, power]
  have valid := d.literal_valid
  have whole := digit valid.whole
  have fraction := digit valid.fraction
  rw [text, Literal.text, mem_append, mem_append, mem_append]
  rintro (sign | (mem | mem) | mem)
  · split at sign <;> simp at sign
  · exact whole mem
  · split at mem
    · cases mem
    · rcases mem_cons.mp mem with point | mem
      · exact absurd point (by decide)
      · exact fraction mem
  · exact exponent mem

end Decimal

end CrabbyKit
