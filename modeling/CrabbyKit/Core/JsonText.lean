import CrabbyKit.Core.Json
import CrabbyKit.Core.JsonString

/-!
# JSON text

`JSON.stringify` and `JSON.parse` on the values of `Core.Json`. Numbers are the integers among
them, so a literal with a fraction or an exponent is outside the model.
-/

namespace CrabbyKit.Json

open List Option

/-- An integer in decimal. -/
def intText : Int → List Char
  | .ofNat n => Nat.toDigits 10 n
  | .negSucc n => '-' :: Nat.toDigits 10 (n + 1)

mutual

/-- `JSON.stringify(value)`, in characters. -/
def write : Json → List Char
  | .null => ['n', 'u', 'l', 'l']
  | .bool true => ['t', 'r', 'u', 'e']
  | .bool false => ['f', 'a', 'l', 's', 'e']
  | .num n => intText n
  | .str text => quote text.toList
  | .arr [] => ['[', ']']
  | .arr (item :: items) => '[' :: write item ++ writeItems items ++ [']']
  | .obj [] => ['{', '}']
  | .obj ((key, value) :: members) =>
    '{' :: quote key.toList ++ ':' :: write value ++ writeMembers members ++ ['}']

/-- The elements after the first one, each behind its comma. -/
def writeItems : List Json → List Char
  | [] => []
  | item :: items => ',' :: write item ++ writeItems items

/-- The members after the first one, each behind its comma. -/
def writeMembers : List (String × Json) → List Char
  | [] => []
  | (key, value) :: members =>
    ',' :: quote key.toList ++ ':' :: write value ++ writeMembers members

end

/-- `JSON.stringify(value)`. -/
def stringify (value : Json) : String := String.ofList (write value)

/-- White space between tokens. -/
def space (c : Char) : Bool := c = ' ' || c = '\t' || c = '\n' || c = '\r'

def skipSpace (cs : List Char) : List Char := cs.dropWhile space

/-- The text after a word that it must begin with. -/
def readWord (word : List Char) (value : Json) (cs : List Char) : Option (Json × List Char) :=
  if word.isPrefixOf cs then some (value, cs.drop word.length) else none

/-- A number without a sign. -/
def readNat (cs : List Char) : Option (Nat × List Char) :=
  let digits := cs.takeWhile Char.isDigit
  let rest := cs.dropWhile Char.isDigit
  if digits = [] ∨ (digits.head? = some '0' ∧ digits ≠ ['0']) then none
  else if rest.head? = some '.' ∨ rest.head? = some 'e' ∨ rest.head? = some 'E' then none
  else some (Nat.ofDigitChars 10 digits 0, rest)

def readNumber (cs : List Char) : Option (Json × List Char) :=
  if cs.head? = some '-' then (readNat cs.tail).map fun p => (.num (-p.1), p.2)
  else (readNat cs).map fun p => (.num p.1, p.2)

/-- The text after a character that it must go on with. -/
def readChar (c : Char) (cs : List Char) : Option (List Char) :=
  if (skipSpace cs).head? = some c then some (skipSpace cs).tail else none

/-- The name of a member with its colon. -/
def readKey (cs : List Char) : Option (String × List Char) := do
  let name ← parseString (← readChar '"' cs)
  let rest ← readChar ':' name.2
  some (name.1, rest)

mutual

/-- A value at the head of a text, and the text after it. -/
def readValue : Nat → List Char → Option (Json × List Char)
  | 0, _ => none
  | fuel + 1, cs =>
    match skipSpace cs with
    | [] => none
    | c :: rest =>
      if c = 'n' then readWord ['n', 'u', 'l', 'l'] .null (c :: rest)
      else if c = 't' then readWord ['t', 'r', 'u', 'e'] (.bool true) (c :: rest)
      else if c = 'f' then readWord ['f', 'a', 'l', 's', 'e'] (.bool false) (c :: rest)
      else if c = '"' then (parseString rest).map fun p => (.str p.1, p.2)
      else if c = '[' then
        if (skipSpace rest).head? = some ']' then some (.arr [], (skipSpace rest).tail)
        else (readItems fuel rest).map fun p => (.arr p.1, p.2)
      else if c = '{' then
        if (skipSpace rest).head? = some '}' then some (.obj [], (skipSpace rest).tail)
        else (readMembers fuel rest).map fun p => (.obj p.1, p.2)
      else readNumber (c :: rest)

/-- The elements of an array up to its bracket. -/
def readItems : Nat → List Char → Option (List Json × List Char)
  | 0, _ => none
  | fuel + 1, cs => do
    let item ← readValue fuel cs
    match skipSpace item.2 with
    | c :: rest =>
      if c = ',' then (readItems fuel rest).map fun p => (item.1 :: p.1, p.2)
      else if c = ']' then some ([item.1], rest)
      else none
    | [] => none

/-- The members of an object up to its brace. -/
def readMembers : Nat → List Char → Option (List (String × Json) × List Char)
  | 0, _ => none
  | fuel + 1, cs => do
    let key ← readKey cs
    let value ← readValue fuel key.2
    match skipSpace value.2 with
    | c :: rest =>
      if c = ',' then (readMembers fuel rest).map fun p => ((key.1, value.1) :: p.1, p.2)
      else if c = '}' then some ([(key.1, value.1)], rest)
      else none
    | [] => none

end

/-- `JSON.parse(text)`; `none` stands for the `SyntaxError` that it throws. -/
def parse (text : String) : Option Json :=
  match readValue (2 * text.toList.length + 1) text.toList with
  | some (value, rest) => if skipSpace rest = [] then some value else none
  | none => none

/-- A text in which no number goes on. -/
def Ends (cs : List Char) : Prop :=
  ∀ c ∈ cs.head?, c.isDigit = false ∧ c ≠ '.' ∧ c ≠ 'e' ∧ c ≠ 'E'

theorem ends_nil : Ends [] := by
  intro c hc
  cases hc

theorem ends_cons {c : Char} {cs : List Char} (h : c = ',' ∨ c = ']' ∨ c = '}') :
    Ends (c :: cs) := by
  rintro d ⟨⟩
  rcases h with rfl | rfl | rfl <;> decide

theorem eq_zero_of_head_toDigits (n : Nat) (h : (Nat.toDigits 10 n).head? = some '0') : n = 0 := by
  induction n using Nat.strongRecOn with
  | ind n ih =>
    by_cases hn : n < 10
    · rw [Nat.toDigits_of_lt_base hn] at h
      have hall : ∀ m < 10, m.digitChar = '0' → m = 0 := by decide
      exact hall n hn (by simpa using h)
    · rw [Nat.toDigits_of_base_le (by omega) (by omega)] at h
      have hhead : (Nat.toDigits 10 (n / 10)).head? = some '0' := by
        cases hd : Nat.toDigits 10 (n / 10) with
        | nil => exact absurd hd Nat.toDigits_ne_nil
        | cons d ds =>
          rw [hd] at h
          simpa using h
      have hzero := ih (n / 10) (by omega) hhead
      omega

theorem readNat_toDigits (n : Nat) {rest : List Char} (h : Ends rest) :
    readNat (Nat.toDigits 10 n ++ rest) = some (n, rest) := by
  have hdigits : ∀ c ∈ Nat.toDigits 10 n, c.isDigit = true := fun c hc =>
    Nat.isDigit_of_mem_toDigits (by omega) (by omega) hc
  have hrest : rest.takeWhile Char.isDigit = [] ∧ rest.dropWhile Char.isDigit = rest := by
    cases rest with
    | nil => simp
    | cons c cs => simp [(h c rfl).1]
  have htake : (Nat.toDigits 10 n ++ rest).takeWhile Char.isDigit = Nat.toDigits 10 n := by
    rw [takeWhile_append_of_pos hdigits, hrest.1, append_nil]
  have hdrop : (Nat.toDigits 10 n ++ rest).dropWhile Char.isDigit = rest := by
    rw [dropWhile_append_of_pos hdigits, hrest.2]
  have hend : ¬(rest.head? = some '.' ∨ rest.head? = some 'e' ∨ rest.head? = some 'E') := by
    rintro (hc | hc | hc)
    · exact (h _ hc).2.1 rfl
    · exact (h _ hc).2.2.1 rfl
    · exact (h _ hc).2.2.2 rfl
  rw [readNat, htake, hdrop, if_neg, if_neg hend, Nat.ofDigitChars_ten_toDigits]
  rintro (hnil | ⟨hhead, hne⟩)
  · exact Nat.toDigits_ne_nil hnil
  · rw [eq_zero_of_head_toDigits n hhead] at hne
    exact hne rfl

theorem head_intText (n : Int) : ∃ c cs, intText n = c :: cs ∧ (c = '-' ∨ c.isDigit = true) := by
  cases n with
  | ofNat n =>
    cases hd : Nat.toDigits 10 n with
    | nil => exact absurd hd Nat.toDigits_ne_nil
    | cons c cs =>
      refine ⟨c, cs, hd, Or.inr ?_⟩
      exact Nat.isDigit_of_mem_toDigits (b := 10) (n := n) (by omega) (by omega) (by simp [hd])
  | negSucc n => exact ⟨'-', _, rfl, Or.inl rfl⟩

theorem readNumber_intText (n : Int) {rest : List Char} (h : Ends rest) :
    readNumber (intText n ++ rest) = some (.num n, rest) := by
  cases n with
  | ofNat n =>
    have hhead : (intText (.ofNat n) ++ rest).head? ≠ some '-' := by
      obtain ⟨c, cs, htext, hc⟩ := head_intText (.ofNat n)
      rw [htext]
      rintro ⟨⟩
      have hmem : '-' ∈ Nat.toDigits 10 n := by
        rw [show Nat.toDigits 10 n = '-' :: cs from htext]
        exact mem_cons_self
      exact absurd (Nat.isDigit_of_mem_toDigits (by omega) (by omega) hmem) (by decide)
    rw [readNumber, if_neg hhead, intText, readNat_toDigits n h]
    rfl
  | negSucc n =>
    rw [readNumber, intText, cons_append, if_pos head?_cons, tail_cons, readNat_toDigits (n + 1) h]
    rfl

theorem head_write (value : Json) : ∃ c cs, write value = c :: cs ∧ space c = false ∧ c ≠ ']' := by
  cases value with
  | null => exact ⟨_, _, by rw [write], by decide, by decide⟩
  | bool b => cases b <;> exact ⟨_, _, by rw [write], by decide, by decide⟩
  | num n =>
    obtain ⟨c, cs, htext, hc⟩ := head_intText n
    refine ⟨c, cs, by rw [write, htext], ?_⟩
    rcases hc with rfl | hc
    · decide
    · refine ⟨?_, by rintro rfl; exact absurd hc (by decide)⟩
      rw [space]
      simp only [Bool.or_eq_false_iff, decide_eq_false_iff_not]
      refine ⟨⟨⟨?_, ?_⟩, ?_⟩, ?_⟩ <;> (rintro rfl; exact absurd hc (by decide))
  | str text => exact ⟨_, _, by rw [write, quote]; rfl, by decide, by decide⟩
  | arr items =>
    cases items with
    | nil => exact ⟨_, _, by rw [write], by decide, by decide⟩
    | cons item items => exact ⟨_, _, by rw [write]; rfl, by decide, by decide⟩
  | obj members =>
    cases members with
    | nil => exact ⟨_, _, by rw [write], by decide, by decide⟩
    | cons member members => exact ⟨_, _, by rw [write]; rfl, by decide, by decide⟩

theorem skipSpace_cons {c : Char} {cs : List Char} (h : space c = false) :
    skipSpace (c :: cs) = c :: cs := by
  rw [skipSpace, dropWhile_cons_of_neg (by simp [h])]

theorem readChar_cons {c : Char} {cs : List Char} (h : space c = false) :
    readChar c (c :: cs) = some cs := by
  rw [readChar, skipSpace_cons h, if_pos head?_cons, tail_cons]

theorem readKey_quote (key : String) (rest : List Char) :
    readKey (quote key.toList ++ ':' :: rest) = some (key, rest) := by
  have hquote : quote key.toList ++ ':' :: rest =
      '"' :: (key.toList.flatMap escapeChar ++ '"' :: ':' :: rest) := by
    simp [quote]
  rw [readKey, hquote, readChar_cons (by decide)]
  simp only [bind_eq_bind, bind_some]
  rw [parseString_quote]
  simp only [bind_some]
  rw [readChar_cons (by decide)]
  rfl

theorem ends_writeItems (items : List Json) (rest : List Char) :
    Ends (writeItems items ++ ']' :: rest) := by
  cases items with
  | nil => exact ends_cons (Or.inr (Or.inl rfl))
  | cons item items =>
    rw [writeItems]
    exact ends_cons (Or.inl rfl)

theorem ends_writeMembers (members : List (String × Json)) (rest : List Char) :
    Ends (writeMembers members ++ '}' :: rest) := by
  cases members with
  | nil => exact ends_cons (Or.inr (Or.inr rfl))
  | cons member members =>
    rw [writeMembers]
    exact ends_cons (Or.inl rfl)

theorem readValue_number {c : Char} {cs : List Char} (fuel : Nat) (hspace : space c = false)
    (hc : c = '-' ∨ c.isDigit = true) : readValue (fuel + 1) (c :: cs) = readNumber (c :: cs) := by
  have hne : ∀ d, d ≠ '-' → d.isDigit = false → c ≠ d := by
    rintro d hd hdigit rfl
    rcases hc with hc | hc
    · exact hd hc
    · rw [hdigit] at hc
      cases hc
  rw [readValue, skipSpace_cons hspace]
  simp only
  rw [if_neg (hne 'n' (by decide) (by decide)), if_neg (hne 't' (by decide) (by decide)),
    if_neg (hne 'f' (by decide) (by decide)), if_neg (hne '"' (by decide) (by decide)),
    if_neg (hne '[' (by decide) (by decide)), if_neg (hne '{' (by decide) (by decide))]

theorem readValue_array {c : Char} {cs : List Char} (fuel : Nat) (hspace : space c = false)
    (hc : c ≠ ']') : readValue (fuel + 1) ('[' :: c :: cs) =
      (readItems fuel (c :: cs)).map fun p => (.arr p.1, p.2) := by
  rw [readValue, skipSpace_cons (by decide)]
  simp only
  rw [if_neg (by decide), if_neg (by decide), if_neg (by decide), if_neg (by decide),
    if_pos trivial, skipSpace_cons hspace, if_neg (by simpa using hc)]

theorem readValue_object {c : Char} {cs : List Char} (fuel : Nat) (hspace : space c = false)
    (hc : c ≠ '}') : readValue (fuel + 1) ('{' :: c :: cs) =
      (readMembers fuel (c :: cs)).map fun p => (.obj p.1, p.2) := by
  rw [readValue, skipSpace_cons (by decide)]
  simp only
  rw [if_neg (by decide), if_neg (by decide), if_neg (by decide), if_neg (by decide),
    if_neg (by decide), if_pos trivial, skipSpace_cons hspace, if_neg (by simpa using hc)]

/-! One unit of fuel is used at a value and one at each of its elements, and each of them has a
character of its own, so twice the length of the text is enough. -/

mutual

theorem readValue_write : ∀ (value : Json) (fuel : Nat) (rest : List Char),
    2 * (write value).length ≤ fuel → Ends rest →
      readValue fuel (write value ++ rest) = some (value, rest)
  | value, 0, rest, h, _ => by
    obtain ⟨c, cs, htext, _⟩ := head_write value
    rw [htext, length_cons] at h
    omega
  | .null, fuel + 1, rest, _, _ => by
    rw [readValue, write]
    rfl
  | .bool true, fuel + 1, rest, _, _ => by
    rw [readValue, write]
    rfl
  | .bool false, fuel + 1, rest, _, _ => by
    rw [readValue, write]
    rfl
  | .num n, fuel + 1, rest, _, hends => by
    obtain ⟨c, cs, htext, hc⟩ := head_intText n
    have hspace : space c = false := by
      obtain ⟨d, ds, hwrite, hspace, _⟩ := head_write (.num n)
      rw [write, htext] at hwrite
      rwa [(List.cons.inj hwrite).1]
    have hnumber := readNumber_intText n hends
    rw [write, htext, cons_append, readValue_number fuel hspace hc]
    rwa [htext, cons_append] at hnumber
  | .str text, fuel + 1, rest, _, _ => by
    have hquote : quote text.toList ++ rest =
        '"' :: (text.toList.flatMap escapeChar ++ '"' :: rest) := by
      simp [quote]
    rw [write, hquote, readValue, skipSpace_cons (by decide)]
    simp only
    rw [if_neg (by decide), if_neg (by decide), if_neg (by decide), if_pos trivial,
      parseString_quote]
    rfl
  | .arr [], fuel + 1, rest, _, _ => by
    rw [readValue, write]
    rfl
  | .arr (item :: items), fuel + 1, rest, h, _ => by
    simp only [write, length_cons, length_append] at h
    have hitems := readItems_write item items fuel rest (by
      rw [length_append]
      omega)
    obtain ⟨c, cs, htext, hspace, hc⟩ := head_write item
    have hwrite : write (.arr (item :: items)) ++ rest =
        '[' :: c :: (cs ++ writeItems items ++ ']' :: rest) := by
      simp [write, htext]
    rw [hwrite, readValue_array fuel hspace hc]
    rw [htext, cons_append, cons_append] at hitems
    rw [hitems]
    rfl
  | .obj [], fuel + 1, rest, _, _ => by
    rw [readValue, write]
    rfl
  | .obj ((key, value) :: members), fuel + 1, rest, h, _ => by
    simp only [write, length_cons, length_append] at h
    have hmembers := readMembers_write key value members fuel rest (by
      rw [length_append]
      omega)
    have hwrite : write (.obj ((key, value) :: members)) ++ rest =
        '{' :: (quote key.toList ++ ':' :: write value ++ writeMembers members ++ '}' :: rest) := by
      simp [write]
    rw [hwrite]
    rw [quote, cons_append, cons_append, cons_append, cons_append] at hmembers ⊢
    rw [readValue_object fuel (by decide) (by decide), hmembers]
    rfl

theorem readItems_write : ∀ (item : Json) (items : List Json) (fuel : Nat) (rest : List Char),
    2 * (write item ++ writeItems items).length < fuel →
      readItems fuel (write item ++ writeItems items ++ ']' :: rest) =
        some (item :: items, rest)
  | item, items, 0, rest, h => by omega
  | item, [], fuel + 1, rest, h => by
    rw [length_append] at h
    have hitem := readValue_write item fuel (']' :: rest) (by omega)
      (ends_cons (Or.inr (Or.inl rfl)))
    rw [writeItems, append_nil, readItems, hitem]
    rfl
  | item, next :: items, fuel + 1, rest, h => by
    simp only [writeItems, length_cons, length_append] at h
    have hitem := readValue_write item fuel (writeItems (next :: items) ++ ']' :: rest)
      (by omega) (ends_writeItems _ _)
    have hitems := readItems_write next items fuel rest (by
      rw [length_append]
      omega)
    rw [append_assoc, readItems, hitem]
    simp only [bind_eq_bind, bind_some]
    rw [writeItems, cons_append, cons_append, skipSpace_cons (by decide)]
    simp only
    rw [if_pos trivial, hitems]
    rfl

theorem readMembers_write : ∀ (key : String) (value : Json) (members : List (String × Json))
    (fuel : Nat) (rest : List Char),
    2 * (write value ++ writeMembers members).length < fuel →
      readMembers fuel (quote key.toList ++ ':' :: write value ++ writeMembers members ++
        '}' :: rest) = some ((key, value) :: members, rest)
  | key, value, members, 0, rest, h => by omega
  | key, value, [], fuel + 1, rest, h => by
    rw [length_append] at h
    have hvalue := readValue_write value fuel ('}' :: rest) (by omega)
      (ends_cons (Or.inr (Or.inr rfl)))
    rw [writeMembers, append_nil, append_assoc, cons_append, readMembers, readKey_quote]
    simp only [bind_eq_bind, bind_some]
    rw [hvalue]
    rfl
  | key, value, (name, next) :: members, fuel + 1, rest, h => by
    simp only [writeMembers, length_cons, length_append] at h
    have hvalue := readValue_write value fuel
      (writeMembers ((name, next) :: members) ++ '}' :: rest) (by omega)
      (ends_writeMembers _ _)
    have hmembers := readMembers_write name next members fuel rest (by
      rw [length_append]
      omega)
    rw [append_assoc, append_assoc, cons_append, readMembers, readKey_quote]
    simp only [bind_eq_bind, bind_some]
    rw [hvalue]
    simp only [bind_some]
    rw [writeMembers, cons_append, cons_append, cons_append, skipSpace_cons (by decide)]
    simp only
    rw [if_pos trivial, hmembers]
    rfl

end

/-- `JSON.parse` inverts `JSON.stringify`. -/
theorem parse_stringify (value : Json) : parse (stringify value) = some value := by
  have hread := readValue_write value (2 * (write value).length + 1) [] (by omega) ends_nil
  rw [append_nil] at hread
  rw [parse, stringify, String.toList_ofList, hread]
  rfl

end CrabbyKit.Json
