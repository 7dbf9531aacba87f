import CrabbyKit.Core.Decimal

/-!
# JSON with decimal numbers

`JSON.stringify` and `JSON.parse` on values all of whose numbers are decimals.
-/

namespace CrabbyKit

open List Option

inductive JsonValue
  | null
  | bool (value : Bool)
  | num (value : Decimal)
  | str (value : String)
  | arr (items : List JsonValue)
  | obj (members : List (String × JsonValue))

namespace JsonValue

open Json (space skipSpace readChar readKey Ends ends_nil ends_cons skipSpace_cons readKey_quote)

/-- A member: of several with one key the last one counts. -/
def field (key : String) : JsonValue → Option JsonValue
  | obj members => (members.reverse.find? fun m => m.1 = key).map Prod.snd
  | _ => none

mutual

/-- `JSON.stringify(value)`, in characters. -/
def write : JsonValue → List Char
  | .null => ['n', 'u', 'l', 'l']
  | .bool true => ['t', 'r', 'u', 'e']
  | .bool false => ['f', 'a', 'l', 's', 'e']
  | .num n => n.text
  | .str text => quote text.toList
  | .arr [] => ['[', ']']
  | .arr (item :: items) => '[' :: write item ++ writeItems items ++ [']']
  | .obj [] => ['{', '}']
  | .obj ((key, value) :: members) =>
    '{' :: quote key.toList ++ ':' :: write value ++ writeMembers members ++ ['}']

/-- The elements after the first one, each behind its comma. -/
def writeItems : List JsonValue → List Char
  | [] => []
  | item :: items => ',' :: write item ++ writeItems items

/-- The members after the first one, each behind its comma. -/
def writeMembers : List (String × JsonValue) → List Char
  | [] => []
  | (key, value) :: members =>
    ',' :: quote key.toList ++ ':' :: write value ++ writeMembers members

end

/-- `JSON.stringify(value)`. -/
def stringify (value : JsonValue) : String := String.ofList (write value)

theorem intercalate_comma (x : List Char) (xs : List (List Char)) :
    [','].intercalate (x :: xs) = x ++ xs.flatMap (',' :: ·) := by
  induction xs generalizing x with
  | nil => simp
  | cons y ys ih =>
    rw [intercalate_cons_cons, ih]
    simp

theorem writeItems_eq (items : List JsonValue) :
    writeItems items = (items.map write).flatMap (',' :: ·) := by
  induction items with
  | nil => rw [writeItems, map_nil, flatMap_nil]
  | cons item items ih => rw [writeItems, ih, map_cons, flatMap_cons]

def writeMember (member : String × JsonValue) : List Char :=
  quote member.1.toList ++ ':' :: write member.2

theorem writeMembers_eq (members : List (String × JsonValue)) :
    writeMembers members = (members.map writeMember).flatMap (',' :: ·) := by
  induction members with
  | nil => rw [writeMembers, map_nil, flatMap_nil]
  | cons member members ih =>
    rw [writeMembers, ih, map_cons, flatMap_cons]
    rfl

theorem write_arr (items : List JsonValue) :
    write (.arr items) = '[' :: [','].intercalate (items.map write) ++ [']'] := by
  cases items with
  | nil =>
    rw [write]
    rfl
  | cons item items =>
    rw [write, map_cons, intercalate_comma, writeItems_eq]
    rfl

theorem write_obj (members : List (String × JsonValue)) :
    write (.obj members) = '{' :: [','].intercalate (members.map writeMember) ++ ['}'] := by
  cases members with
  | nil =>
    rw [write]
    rfl
  | cons member members =>
    rw [write, map_cons, intercalate_comma, writeMembers_eq]
    simp [writeMember]

/-- The text after a word that it must begin with. -/
def readWord (word : List Char) (value : JsonValue) (cs : List Char) :
    Option (JsonValue × List Char) :=
  if word.isPrefixOf cs then some (value, cs.drop word.length) else none

mutual

/-- A value at the head of a text, and the text after it. -/
def readValue : Nat → List Char → Option (JsonValue × List Char)
  | 0, _ => none
  | fuel + 1, cs =>
    match skipSpace cs with
    | [] => none
    | c :: rest =>
      if c = 'n' then readWord ['n', 'u', 'l', 'l'] .null (c :: rest)
      else if c = 't' then readWord ['t', 'r', 'u', 'e'] (.bool true) (c :: rest)
      else if c = 'f' then readWord ['f', 'a', 'l', 's', 'e'] (.bool false) (c :: rest)
      else if c = '"' then (parseString rest).map fun p => (.str p.1, p.2)
      else if c = '[' then
        if (skipSpace rest).head? = some ']' then some (.arr [], (skipSpace rest).tail)
        else (readItems fuel rest).map fun p => (.arr p.1, p.2)
      else if c = '{' then
        if (skipSpace rest).head? = some '}' then some (.obj [], (skipSpace rest).tail)
        else (readMembers fuel rest).map fun p => (.obj p.1, p.2)
      else (Decimal.read (c :: rest)).map fun p => (.num p.1, p.2)

/-- The elements of an array up to its bracket. -/
def readItems : Nat → List Char → Option (List JsonValue × List Char)
  | 0, _ => none
  | fuel + 1, cs => do
    let item ← readValue fuel cs
    match skipSpace item.2 with
    | c :: rest =>
      if c = ',' then (readItems fuel rest).map fun p => (item.1 :: p.1, p.2)
      else if c = ']' then some ([item.1], rest)
      else none
    | [] => none

/-- The members of an object up to its brace. -/
def readMembers : Nat → List Char → Option (List (String × JsonValue) × List Char)
  | 0, _ => none
  | fuel + 1, cs => do
    let key ← readKey cs
    let value ← readValue fuel key.2
    match skipSpace value.2 with
    | c :: rest =>
      if c = ',' then (readMembers fuel rest).map fun p => ((key.1, value.1) :: p.1, p.2)
      else if c = '}' then some ([(key.1, value.1)], rest)
      else none
    | [] => none

end

/-- `JSON.parse(text)`; `none` stands for the `SyntaxError` that it throws. -/
def parse (text : String) : Option JsonValue :=
  match readValue (2 * text.toList.length + 1) text.toList with
  | some (value, rest) => if skipSpace rest = [] then some value else none
  | none => none

theorem head_write (value : JsonValue) :
    ∃ c cs, write value = c :: cs ∧ space c = false ∧ c ≠ ']' := by
  cases value with
  | null => exact ⟨_, _, by rw [write], by decide, by decide⟩
  | bool b => cases b <;> exact ⟨_, _, by rw [write], by decide, by decide⟩
  | num n =>
    obtain ⟨c, cs, htext, hc⟩ := n.head_text
    refine ⟨c, cs, by rw [write, htext], ?_⟩
    rcases hc with rfl | hc
    · decide
    · refine ⟨?_, by rintro rfl; exact absurd hc (by decide)⟩
      rw [space]
      simp only [Bool.or_eq_false_iff, decide_eq_false_iff_not]
      refine ⟨⟨⟨?_, ?_⟩, ?_⟩, ?_⟩ <;> (rintro rfl; exact absurd hc (by decide))
  | str text => exact ⟨_, _, by rw [write, quote]; rfl, by decide, by decide⟩
  | arr items =>
    cases items with
    | nil => exact ⟨_, _, by rw [write], by decide, by decide⟩
    | cons item items => exact ⟨_, _, by rw [write]; rfl, by decide, by decide⟩
  | obj members =>
    cases members with
    | nil => exact ⟨_, _, by rw [write], by decide, by decide⟩
    | cons member members => exact ⟨_, _, by rw [write]; rfl, by decide, by decide⟩

theorem ends_writeItems (items : List JsonValue) (rest : List Char) :
    Ends (writeItems items ++ ']' :: rest) := by
  cases items with
  | nil => exact ends_cons (Or.inr (Or.inl rfl))
  | cons item items =>
    rw [writeItems]
    exact ends_cons (Or.inl rfl)

theorem ends_writeMembers (members : List (String × JsonValue)) (rest : List Char) :
    Ends (writeMembers members ++ '}' :: rest) := by
  cases members with
  | nil => exact ends_cons (Or.inr (Or.inr rfl))
  | cons member members =>
    rw [writeMembers]
    exact ends_cons (Or.inl rfl)

variable {c : Char} {cs : List Char}

theorem readValue_number (fuel : Nat) (hspace : space c = false)
    (hc : c = '-' ∨ c.isDigit = true) : readValue (fuel + 1) (c :: cs) =
      (Decimal.read (c :: cs)).map fun p => (.num p.1, p.2) := by
  have hne : ∀ d, d ≠ '-' → d.isDigit = false → c ≠ d := by
    rintro d hd hdigit rfl
    rcases hc with hc | hc
    · exact hd hc
    · rw [hdigit] at hc
      cases hc
  rw [readValue, skipSpace_cons hspace]
  simp only
  rw [if_neg (hne 'n' (by decide) (by decide)), if_neg (hne 't' (by decide) (by decide)),
    if_neg (hne 'f' (by decide) (by decide)), if_neg (hne '"' (by decide) (by decide)),
    if_neg (hne '[' (by decide) (by decide)), if_neg (hne '{' (by decide) (by decide))]

theorem readValue_array (fuel : Nat) (hspace : space c = false)
    (hc : c ≠ ']') : readValue (fuel + 1) ('[' :: c :: cs) =
      (readItems fuel (c :: cs)).map fun p => (.arr p.1, p.2) := by
  rw [readValue, skipSpace_cons (by decide)]
  simp only
  rw [if_neg (by decide), if_neg (by decide), if_neg (by decide), if_neg (by decide),
    if_pos trivial, skipSpace_cons hspace, if_neg (by simpa using hc)]

theorem readValue_object (fuel : Nat) (hspace : space c = false)
    (hc : c ≠ '}') : readValue (fuel + 1) ('{' :: c :: cs) =
      (readMembers fuel (c :: cs)).map fun p => (.obj p.1, p.2) := by
  rw [readValue, skipSpace_cons (by decide)]
  simp only
  rw [if_neg (by decide), if_neg (by decide), if_neg (by decide), if_neg (by decide),
    if_neg (by decide), if_pos trivial, skipSpace_cons hspace, if_neg (by simpa using hc)]

/-! One unit of fuel is used at a value and one at each of its elements, and each of them has a
character of its own, so twice the length of the text is enough. -/

mutual

theorem readValue_write : ∀ (value : JsonValue) (fuel : Nat) (rest : List Char),
    2 * (write value).length ≤ fuel → Ends rest →
      readValue fuel (write value ++ rest) = some (value, rest)
  | value, 0, rest, h, _ => by
    obtain ⟨c, cs, htext, _⟩ := head_write value
    rw [htext, length_cons] at h
    omega
  | .null, fuel + 1, rest, _, _ => by
    rw [readValue, write]
    rfl
  | .bool true, fuel + 1, rest, _, _ => by
    rw [readValue, write]
    rfl
  | .bool false, fuel + 1, rest, _, _ => by
    rw [readValue, write]
    rfl
  | .num n, fuel + 1, rest, _, hends => by
    obtain ⟨c, cs, htext, hc⟩ := n.head_text
    have hspace : space c = false := by
      obtain ⟨d, ds, hwrite, hspace, _⟩ := head_write (.num n)
      rw [write, htext] at hwrite
      rwa [(List.cons.inj hwrite).1]
    have hnumber := Decimal.read_text n hends
    rw [write, htext, cons_append, readValue_number fuel hspace hc]
    rw [htext, cons_append] at hnumber
    rw [hnumber, map_some]
  | .str text, fuel + 1, rest, _, _ => by
    have hquote : quote text.toList ++ rest =
        '"' :: (text.toList.flatMap escapeChar ++ '"' :: rest) := by
      simp [quote]
    rw [write, hquote, readValue, skipSpace_cons (by decide)]
    simp only
    rw [if_neg (by decide), if_neg (by decide), if_neg (by decide), if_pos trivial,
      parseString_quote]
    rfl
  | .arr [], fuel + 1, rest, _, _ => by
    rw [readValue, write]
    rfl
  | .arr (item :: items), fuel + 1, rest, h, _ => by
    simp only [write, length_cons, length_append] at h
    have hitems := readItems_write item items fuel rest (by
      rw [length_append]
      omega)
    obtain ⟨c, cs, htext, hspace, hc⟩ := head_write item
    have hwrite : write (.arr (item :: items)) ++ rest =
        '[' :: c :: (cs ++ writeItems items ++ ']' :: rest) := by
      simp [write, htext]
    rw [hwrite, readValue_array fuel hspace hc]
    rw [htext, cons_append, cons_append] at hitems
    rw [hitems]
    rfl
  | .obj [], fuel + 1, rest, _, _ => by
    rw [readValue, write]
    rfl
  | .obj ((key, value) :: members), fuel + 1, rest, h, _ => by
    simp only [write, length_cons, length_append] at h
    have hmembers := readMembers_write key value members fuel rest (by
      rw [length_append]
      omega)
    have hwrite : write (.obj ((key, value) :: members)) ++ rest =
        '{' :: (quote key.toList ++ ':' :: write value ++ writeMembers members ++ '}' :: rest) := by
      simp [write]
    rw [hwrite]
    rw [quote, cons_append, cons_append, cons_append, cons_append] at hmembers ⊢
    rw [readValue_object fuel (by decide) (by decide), hmembers]
    rfl

theorem readItems_write : ∀ (item : JsonValue) (items : List JsonValue) (fuel : Nat)
    (rest : List Char),
    2 * (write item ++ writeItems items).length < fuel →
      readItems fuel (write item ++ writeItems items ++ ']' :: rest) =
        some (item :: items, rest)
  | item, items, 0, rest, h => by omega
  | item, [], fuel + 1, rest, h => by
    rw [length_append] at h
    have hitem := readValue_write item fuel (']' :: rest) (by omega)
      (ends_cons (Or.inr (Or.inl rfl)))
    rw [writeItems, append_nil, readItems, hitem]
    rfl
  | item, next :: items, fuel + 1, rest, h => by
    simp only [writeItems, length_cons, length_append] at h
    have hitem := readValue_write item fuel (writeItems (next :: items) ++ ']' :: rest)
      (by omega) (ends_writeItems _ _)
    have hitems := readItems_write next items fuel rest (by
      rw [length_append]
      omega)
    rw [append_assoc, readItems, hitem]
    simp only [bind_eq_bind, bind_some]
    rw [writeItems, cons_append, cons_append, skipSpace_cons (by decide)]
    simp only
    rw [if_pos trivial, hitems]
    rfl

theorem readMembers_write : ∀ (key : String) (value : JsonValue)
    (members : List (String × JsonValue)) (fuel : Nat) (rest : List Char),
    2 * (write value ++ writeMembers members).length < fuel →
      readMembers fuel (quote key.toList ++ ':' :: write value ++ writeMembers members ++
        '}' :: rest) = some ((key, value) :: members, rest)
  | key, value, members, 0, rest, h => by omega
  | key, value, [], fuel + 1, rest, h => by
    rw [length_append] at h
    have hvalue := readValue_write value fuel ('}' :: rest) (by omega)
      (ends_cons (Or.inr (Or.inr rfl)))
    rw [writeMembers, append_nil, append_assoc, cons_append, readMembers, readKey_quote]
    simp only [bind_eq_bind, bind_some]
    rw [hvalue]
    rfl
  | key, value, (name, next) :: members, fuel + 1, rest, h => by
    simp only [writeMembers, length_cons, length_append] at h
    have hvalue := readValue_write value fuel
      (writeMembers ((name, next) :: members) ++ '}' :: rest) (by omega)
      (ends_writeMembers _ _)
    have hmembers := readMembers_write name next members fuel rest (by
      rw [length_append]
      omega)
    rw [append_assoc, append_assoc, cons_append, readMembers, readKey_quote]
    simp only [bind_eq_bind, bind_some]
    rw [hvalue]
    simp only [bind_some]
    rw [writeMembers, cons_append, cons_append, cons_append, skipSpace_cons (by decide)]
    simp only
    rw [if_pos trivial, hmembers]
    rfl

end

theorem parse_write_append (value : JsonValue) {rest : List Char} (hends : Ends rest)
    (hblank : skipSpace rest = []) : parse (String.ofList (write value ++ rest)) = some value := by
  have hread := readValue_write value (2 * (write value ++ rest).length + 1) rest
    (by rw [length_append]; omega) hends
  rw [parse, String.toList_ofList, hread]
  exact if_pos hblank

/-- `JSON.parse` inverts `JSON.stringify`. -/
theorem parse_stringify (value : JsonValue) : parse (stringify value) = some value := by
  rw [stringify]
  simpa using parse_write_append value ends_nil rfl

theorem newline_notMem_quote (text : List Char) : '\n' ∉ quote text := by
  have hex : ∀ n < 16, '\n' ≠ hexDigit n := by decide
  have escaped (c : Char) : '\n' ∉ escapeChar c := by
    unfold escapeChar
    split_ifs with _ _ _ _ newline _ _ control
    all_goals try decide
    · simp [hex (c.toNat / 16) (by omega), hex (c.toNat % 16) (by omega)]
    · rw [mem_singleton]
      rintro rfl
      exact newline rfl
  rw [quote, cons_append, mem_cons, mem_append, mem_flatMap]
  rintro (h | ⟨c, _, mem⟩ | h)
  · exact absurd h (by decide)
  · exact escaped c mem
  · exact absurd h (by decide)

mutual

/-- `JSON.stringify` writes on one line. -/
theorem newline_notMem_write : ∀ value : JsonValue, '\n' ∉ write value
  | .null => by rw [write]; decide
  | .bool true => by rw [write]; decide
  | .bool false => by rw [write]; decide
  | .num n => by rw [write]; exact n.newline_notMem_text
  | .str text => by rw [write]; exact newline_notMem_quote _
  | .arr [] => by rw [write]; decide
  | .arr (item :: items) => by
    have first := newline_notMem_write item
    have later := newline_notMem_writeItems items
    simp [write, first, later]
  | .obj [] => by rw [write]; decide
  | .obj ((key, value) :: members) => by
    have name := newline_notMem_quote key.toList
    have first := newline_notMem_write value
    have later := newline_notMem_writeMembers members
    simp [write, name, first, later]

theorem newline_notMem_writeItems : ∀ items : List JsonValue, '\n' ∉ writeItems items
  | [] => by rw [writeItems]; exact not_mem_nil
  | item :: items => by
    have first := newline_notMem_write item
    have later := newline_notMem_writeItems items
    simp [writeItems, first, later]

theorem newline_notMem_writeMembers : ∀ members : List (String × JsonValue),
    '\n' ∉ writeMembers members
  | [] => by rw [writeMembers]; exact not_mem_nil
  | (key, value) :: members => by
    have name := newline_notMem_quote key.toList
    have first := newline_notMem_write value
    have later := newline_notMem_writeMembers members
    simp [writeMembers, name, first, later]

end

end JsonValue

end CrabbyKit
