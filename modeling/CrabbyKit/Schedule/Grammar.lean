import CrabbyKit.Schedule.Cron
import Mathlib.Data.List.Forall2
import Mathlib.Data.List.TakeWhile

/-!
# The grammar of a cron field

What the doc comment of `scheduling/cron.ts` says of a field: a comma list of `*`, `N`, `N-M`,
`N/S` and `*/S`, with names for days and months, and the values each item denotes. Beside it
stands what the parser needs of an item to let it pass, which is less.
-/

namespace CrabbyKit.Cron

open List

inductive FieldKind
  | minute | hour | dayOfMonth | month | dayOfWeek
  deriving DecidableEq, Repr

namespace FieldKind

/-- The least value. -/
def min : FieldKind → Nat
  | minute => 0
  | hour => 0
  | dayOfMonth => 1
  | month => 1
  | dayOfWeek => 0

/-- The greatest value an item may name. -/
def max : FieldKind → Nat
  | minute => 59
  | hour => 23
  | dayOfMonth => 31
  | month => 12
  | dayOfWeek => 7

/-- The greatest value an item may denote: 7 is Sunday, which is 0. -/
def last : FieldKind → Nat
  | dayOfWeek => 6
  | kind => kind.max

/-- The value a named value stands for. -/
def meaning (kind : FieldKind) (n : Nat) : Nat := if kind = dayOfWeek ∧ n = 7 then 0 else n

end FieldKind

/-- The five forms of an item. -/
inductive Item
  | any
  | single (n : Nat)
  | range (n m : Nat)
  | stepFrom (n s : Nat)
  | anyStep (s : Nat)
  deriving DecidableEq, Repr

/-- A number in digits. -/
def IsNumeral (text : List Char) (n : Nat) : Prop :=
  text ≠ [] ∧ (∀ c ∈ text, isDigit c = true) ∧ digitsValue text = n

def IsName (kind : FieldKind) (text : List Char) (n : Nat) : Prop :=
  ∃ a b c, text = [a, b, c] ∧ (isLetter a && isLetter b && isLetter c) = true ∧
    (fieldNames kind.max).lookup (String.ofList [a.toUpper, b.toUpper, c.toUpper]) = some n

/-- A number or name within the field's bounds. -/
def IsValue (kind : FieldKind) (text : List Char) (n : Nat) : Prop :=
  (IsNumeral text n ∨ IsName kind text n) ∧ kind.min ≤ n ∧ n ≤ kind.max

def IsStep (text : List Char) (s : Nat) : Prop := IsNumeral text s ∧ 0 < s

inductive Reads (kind : FieldKind) : List Char → Item → Prop
  | any : Reads kind ['*'] .any
  | single {text : List Char} {n : Nat} (h : IsValue kind text n) : Reads kind text (.single n)
  | range {first last : List Char} {n m : Nat} (hfirst : IsValue kind first n)
      (hlast : IsValue kind last m) (hle : n ≤ m) :
      Reads kind (first ++ '-' :: last) (.range n m)
  | stepFrom {start step : List Char} {n s : Nat} (hstart : IsValue kind start n)
      (hstep : IsStep step s) : Reads kind (start ++ '/' :: step) (.stepFrom n s)
  | anyStep {step : List Char} {s : Nat} (hstep : IsStep step s) :
      Reads kind ('*' :: '/' :: step) (.anyStep s)

def Item.Denotes (kind : FieldKind) (v : Nat) : Item → Prop
  | .any => kind.min ≤ v ∧ v ≤ kind.last
  | .single n => v = kind.meaning n
  | .range n m => ∃ w, n ≤ w ∧ w ≤ m ∧ v = kind.meaning w
  | .stepFrom n s => kind.meaning n ≤ v ∧ v ≤ kind.last ∧ s ∣ v - kind.meaning n
  | .anyStep s => kind.min ≤ v ∧ v ≤ kind.last ∧ s ∣ v - kind.min

def commaItems (field : List Char) : List (List Char) := field.splitOnP (· = ',')

/-- The parser has the field's meaning: a field it accepts is a list of items, and the values are
those they denote; and it accepts every list of items. -/
def Faithful (kind : FieldKind) (field : List Char) : Prop :=
  (∀ values, parseField field kind.min kind.max = .ok values →
    ∃ items, List.Forall₂ (Reads kind) (commaItems field) items ∧
      ∀ v, v ∈ values ↔ ∃ item ∈ items, item.Denotes kind v) ∧
    ∀ items, List.Forall₂ (Reads kind) (commaItems field) items →
      ∃ values, parseField field kind.min kind.max = .ok values

def resolve (kind : FieldKind) (text : List Char) : Except String (List Char) :=
  if fieldNames kind.max = [] then .ok text else resolveNames (fieldNames kind.max) text

/-- A piece of an item cut at a separator. -/
def pieceAt (sep : Char) (i : Nat) (text : List Char) : List Char :=
  (text.splitOnP (· = sep))[i]?.getD []

/-- `parseInt` reads a number within the bounds in front of the text. -/
def Within (kind : FieldKind) (text : List Char) : Prop :=
  ∃ n : Int, parseInt text = some n ∧ kind.min ≤ n ∧ n ≤ kind.max

/-- What is enough for an item to pass once its names are replaced. Only the pieces around the
first separator count, and of each only the number in front. -/
def Skims (kind : FieldKind) (text : List Char) : Prop :=
  text = ['*'] ∨
    ('/' ∈ text ∧ (∃ s, parseInt (pieceAt '/' 1 text) = some s ∧ 0 < s) ∧
      (pieceAt '/' 0 text = ['*'] ∨ Within kind (pieceAt '/' 0 text))) ∨
    ('/' ∉ text ∧ '-' ∈ text ∧ ∃ n m : Int, parseInt (pieceAt '-' 0 text) = some n ∧
      parseInt (pieceAt '-' 1 text) = some m ∧ kind.min ≤ n ∧ n ≤ m ∧ m ≤ kind.max) ∨
    ('/' ∉ text ∧ '-' ∉ text ∧ Within kind text)

/-- An item that passes. -/
def Legible (kind : FieldKind) (text : List Char) : Prop :=
  ∃ resolved, resolve kind text = .ok resolved ∧ Skims kind resolved

/-- The steps of the days of the week come out right: where steps that begin after Sunday reach 7,
Sunday is denoted, and the steps from 7 are denoted by the other items. -/
def StepsAgree (kind : FieldKind) (items : List Item) : Prop :=
  kind = .dayOfWeek → ∀ n s, Item.stepFrom n s ∈ items →
    (0 < n → n < 7 → s ∣ 7 - n → ∃ item ∈ items, item.Denotes kind 0) ∧
      (n = 7 → ∀ v, 0 < v → v ≤ 6 → s ∣ v →
        ∃ item ∈ items, (∀ t, item ≠ .stepFrom 7 t) ∧ item.Denotes kind v)

/-- A field in which nothing illegible passes for an item: if every item passes, every item is in
the grammar, and the steps agree. -/
def Plain (kind : FieldKind) (field : List Char) : Prop :=
  (∀ text ∈ commaItems field, Legible kind text) →
    ∃ items, List.Forall₂ (Reads kind) (commaItems field) items ∧ StepsAgree kind items

section Digits

variable {text : List Char} {n : Nat}

theorem toNat_of_isDigit {c : Char} (h : isDigit c = true) : 48 ≤ c.toNat ∧ c.toNat ≤ 57 := by
  simp only [isDigit, Bool.and_eq_true, decide_eq_true_eq] at h
  exact h

theorem isLetter_of_isDigit {c : Char} (h : isDigit c = true) : isLetter c = false := by
  have hbounds := toNat_of_isDigit h
  by_contra hletter
  simp only [isLetter, Bool.not_eq_false, Bool.or_eq_true, Bool.and_eq_true, decide_eq_true_eq]
    at hletter
  rcases hletter with ⟨hlow, -⟩ | ⟨hlow, -⟩
  · have hA : 65 ≤ c.toNat := hlow
    omega
  · have ha : 97 ≤ c.toNat := hlow
    omega

theorem isSpace_of_isDigit {c : Char} (h : isDigit c = true) : isSpace c = false := by
  have hbounds := toNat_of_isDigit h
  by_contra hspace
  simp only [isSpace, Bool.not_eq_false, Bool.or_eq_true, Bool.and_eq_true, decide_eq_true_eq,
    mem_cons, not_mem_nil, or_false] at hspace
  omega

theorem ne_of_isDigit {c d : Char} (h : isDigit c = true) (hd : isDigit d = false) : c ≠ d := by
  rintro rfl
  rw [h] at hd
  cases hd

/-- `parseInt` reads a number in digits whole. -/
theorem IsNumeral.parseInt (h : IsNumeral text n) : parseInt text = some (n : Int) := by
  obtain ⟨hne, hdigits, rfl⟩ := h
  obtain ⟨c, rest, rfl⟩ := exists_cons_of_ne_nil hne
  have hc := hdigits c mem_cons_self
  have hspace : (c :: rest).dropWhile isSpace = c :: rest := by
    rw [dropWhile_cons_of_neg]
    rw [isSpace_of_isDigit hc]
    exact Bool.false_ne_true
  have htake : (c :: rest).takeWhile isDigit = c :: rest := takeWhile_eq_self_iff.mpr hdigits
  have hminus : c ≠ '-' := ne_of_isDigit hc rfl
  have hplus : c ≠ '+' := ne_of_isDigit hc rfl
  simp only [Cron.parseInt, hspace]
  split
  · rename_i heq
    exact absurd (List.cons.inj heq).1 hminus
  · rename_i heq
    exact absurd (List.cons.inj heq).1 hplus
  · rw [htake]

end Digits

section Names

theorem isNumeral_of_lookup {kind : FieldKind} {key : String} {n : Nat}
    (h : (fieldNames kind.max).lookup key = some n) : IsNumeral (toString n).toList n := by
  have hall : ∀ row ∈ fieldNames kind.max, (toString row.2).toList ≠ [] ∧
      (toString row.2).toList.all isDigit = true ∧ digitsValue (toString row.2).toList = row.2 := by
    cases kind <;> decide
  obtain ⟨before, after, hrows, -⟩ := lookup_eq_some_iff.mp h
  obtain ⟨hne, hdigits, hvalue⟩ := hall (key, n) (by rw [hrows]; simp)
  exact ⟨hne, all_eq_true.mp hdigits, hvalue⟩

variable {names : List (String × Nat)} {rest : List Char}

theorem resolveNames_name {a b c : Char} {n : Nat}
    (h : (isLetter a && isLetter b && isLetter c) = true)
    (hname : names.lookup (String.ofList [a.toUpper, b.toUpper, c.toUpper]) = some n) :
    resolveNames names (a :: b :: c :: rest) =
      (resolveNames names rest).map ((toString n).toList ++ ·) := by
  rw [resolveNames, if_pos h, hname]

theorem resolveNames_unknown {a b c : Char}
    (h : (isLetter a && isLetter b && isLetter c) = true)
    (hname : names.lookup (String.ofList [a.toUpper, b.toUpper, c.toUpper]) = none) :
    resolveNames names (a :: b :: c :: rest) =
      .error s!"Unknown name: {String.ofList [a, b, c]}" := by
  rw [resolveNames, if_pos h, hname]

theorem resolveNames_keep {a : Char}
    (h : ∀ b c tail, rest = b :: c :: tail → (isLetter a && isLetter b && isLetter c) = false) :
    resolveNames names (a :: rest) = (resolveNames names rest).map (a :: ·) := by
  rcases rest with _ | ⟨b, _ | ⟨c, tail⟩⟩
  · rfl
  · rfl
  · have hkeep := h b c tail rfl
    rw [resolveNames, if_neg (by rw [hkeep]; exact Bool.false_ne_true)]

theorem resolveNames_cons {a : Char} (h : isLetter a = false) :
    resolveNames names (a :: rest) = (resolveNames names rest).map (a :: ·) :=
  resolveNames_keep fun b c tail _ => by rw [h, Bool.false_and, Bool.false_and]

theorem resolveNames_append {sep : Char} (hsep : isLetter sep = false) (a b : List Char) :
    resolveNames names (a ++ sep :: b) =
      (resolveNames names a).bind fun x => (resolveNames names b).map fun y => x ++ sep :: y := by
  -- A text put in front of the first part goes in front of the whole.
  have hfront : ∀ (head : List Char) (x y : Except String (List Char)),
      ((x.bind fun x => y.map fun y => x ++ sep :: y).map fun z => head ++ z) =
        (x.map fun x => head ++ x).bind fun x => y.map fun y => x ++ sep :: y := by
    intro head x y
    cases x with
    | error e => rfl
    | ok x =>
      cases y with
      | error e => rfl
      | ok y => exact congrArg Except.ok (append_assoc head x (sep :: y)).symm
  induction a using resolveNames.induct names with
  | case1 x y z rest hletters hname =>
    rw [cons_append, cons_append, cons_append, resolveNames_unknown hletters hname,
      resolveNames_unknown hletters hname]
    rfl
  | case2 x y z rest hletters n hname ih =>
    rw [cons_append, cons_append, cons_append, resolveNames_name hletters hname,
      resolveNames_name hletters hname, ih]
    exact hfront _ _ _
  | case3 x y z rest hletters ih =>
    have hno := eq_false_of_ne_true hletters
    rw [cons_append, resolveNames_keep, resolveNames_keep, ih]
    · exact hfront [x] _ _
    · rintro _ _ _ ⟨rfl, rfl⟩
      exact hno
    · rintro _ _ _ ⟨rfl, rfl⟩
      exact hno
  | case4 rest hshort =>
    rcases rest with _ | ⟨x, _ | ⟨y, _ | ⟨z, tail⟩⟩⟩
    · rw [nil_append, resolveNames_cons hsep]
      cases resolveNames names b <;> rfl
    · rw [cons_append, nil_append, resolveNames_keep, resolveNames_cons hsep]
      · cases resolveNames names b <;> rfl
      · rintro _ _ _ ⟨rfl, rfl⟩
        rw [hsep, Bool.and_false, Bool.false_and]
    · rw [cons_append, cons_append, nil_append, resolveNames_keep,
        resolveNames_keep, resolveNames_cons hsep]
      · cases resolveNames names b <;> rfl
      · rintro _ _ _ ⟨rfl, rfl⟩
        rw [hsep, Bool.and_false, Bool.false_and]
      · rintro _ _ _ ⟨rfl, rfl⟩
        rw [hsep, Bool.and_false]
    · exact absurd rfl (hshort x y z tail)

theorem resolveNames_of_no_letter {text : List Char}
    (h : ∀ c ∈ text, isLetter c = false) : resolveNames names text = .ok text := by
  induction text with
  | nil => rfl
  | cons c text ih =>
    rw [resolveNames_cons (h c mem_cons_self), ih fun d hd => h d (mem_cons_of_mem c hd)]
    rfl

theorem mem_of_resolveNames {kind : FieldKind} {text resolved : List Char} {d : Char}
    (h : resolveNames (fieldNames kind.max) text = .ok resolved) (hd : d ∈ resolved) :
    d ∈ text ∨ isDigit d = true := by
  induction text using resolveNames.induct (fieldNames kind.max) generalizing resolved with
  | case1 x y z rest hletters hname =>
    rw [resolveNames_unknown hletters hname] at h
    cases h
  | case2 x y z rest hletters n hname ih =>
    rw [resolveNames_name hletters hname] at h
    cases hrest : resolveNames (fieldNames kind.max) rest with
    | error e =>
      rw [hrest] at h
      cases h
    | ok tail =>
      rw [hrest] at h
      cases h
      rcases mem_append.mp hd with hnumber | htail
      · exact .inr ((isNumeral_of_lookup hname).2.1 d hnumber)
      · exact (ih hrest htail).imp_left fun hmem => by simp [hmem]
  | case3 x y z rest hletters ih =>
    rw [resolveNames_keep] at h
    · cases hrest : resolveNames (fieldNames kind.max) (y :: z :: rest) with
      | error e =>
        rw [hrest] at h
        cases h
      | ok tail =>
        rw [hrest] at h
        cases h
        rcases mem_cons.mp hd with rfl | htail
        · exact .inl mem_cons_self
        · exact (ih hrest htail).imp_left (mem_cons_of_mem x)
    · rintro _ _ _ ⟨rfl, rfl⟩
      exact eq_false_of_ne_true hletters
  | case4 rest hshort =>
    have hsame : resolveNames (fieldNames kind.max) rest = .ok rest := by
      rcases rest with _ | ⟨x, _ | ⟨y, _ | ⟨z, tail⟩⟩⟩
      · rfl
      · rfl
      · rfl
      · exact absurd rfl (hshort x y z tail)
    rw [hsame] at h
    cases h
    exact .inl hd

end Names

section Resolve

variable {kind : FieldKind} {a b x y text resolved : List Char} {sep : Char}

theorem resolve_append (hsep : isLetter sep = false) :
    resolve kind (a ++ sep :: b) =
      (resolve kind a).bind fun x => (resolve kind b).map fun y => x ++ sep :: y := by
  unfold resolve
  by_cases hnames : fieldNames kind.max = []
  · rw [if_pos hnames, if_pos hnames, if_pos hnames]
    rfl
  · rw [if_neg hnames, if_neg hnames, if_neg hnames]
    exact resolveNames_append hsep a b

theorem resolve_append_ok (hsep : isLetter sep = false) (ha : resolve kind a = .ok x)
    (hb : resolve kind b = .ok y) : resolve kind (a ++ sep :: b) = .ok (x ++ sep :: y) := by
  rw [resolve_append hsep, ha, hb]
  rfl

theorem resolve_append_inv (hsep : isLetter sep = false)
    (h : resolve kind (a ++ sep :: b) = .ok resolved) :
    ∃ x y, resolve kind a = .ok x ∧ resolve kind b = .ok y ∧ resolved = x ++ sep :: y := by
  rw [resolve_append hsep] at h
  cases ha : resolve kind a with
  | error e =>
    rw [ha] at h
    cases h
  | ok x =>
    cases hb : resolve kind b with
    | error e =>
      rw [ha, hb] at h
      cases h
    | ok y =>
      rw [ha, hb] at h
      cases h
      exact ⟨x, y, rfl, rfl, rfl⟩

theorem resolve_of_no_letter (h : ∀ c ∈ text, isLetter c = false) :
    resolve kind text = .ok text := by
  unfold resolve
  by_cases hnames : fieldNames kind.max = []
  · rw [if_pos hnames]
  · rw [if_neg hnames, resolveNames_of_no_letter h]

theorem mem_of_resolve {d : Char} (h : resolve kind text = .ok resolved) (hd : d ∈ resolved) :
    d ∈ text ∨ isDigit d = true := by
  unfold resolve at h
  by_cases hnames : fieldNames kind.max = []
  · rw [if_pos hnames] at h
    cases h
    exact .inl hd
  · rw [if_neg hnames] at h
    exact mem_of_resolveNames h hd

theorem IsNumeral.resolve {n : Nat} (h : IsNumeral text n) : resolve kind text = .ok text :=
  resolve_of_no_letter fun c hc => isLetter_of_isDigit (h.2.1 c hc)

theorem IsValue.resolve {n : Nat} (h : IsValue kind text n) :
    ∃ digits, resolve kind text = .ok digits ∧ IsNumeral digits n := by
  obtain ⟨hnumeral | ⟨a, b, c, rfl, hletters, hname⟩, -⟩ := h
  · exact ⟨text, hnumeral.resolve, hnumeral⟩
  · refine ⟨(toString n).toList, ?_, isNumeral_of_lookup hname⟩
    have hnames : fieldNames kind.max ≠ [] := by
      intro hempty
      rw [hempty] at hname
      cases hname
    rw [Cron.resolve, if_neg hnames, resolveNames_name hletters hname]
    exact congrArg Except.ok (append_nil _)

end Resolve

section Commas

theorem commaItems_single {a : List Char} (h : ',' ∉ a) : commaItems a = [a] := by
  apply splitOnP_eq_singleton
  intro c hc
  apply decide_eq_false
  rintro rfl
  exact h hc

theorem commaItems_cut {a : List Char} (h : ',' ∉ a) (b : List Char) :
    commaItems (a ++ ',' :: b) = a :: commaItems b := by
  rw [commaItems, splitOnP_append_cons _ _ (by decide), ← commaItems, commaItems_single h]
  rfl

theorem comma_induction {P : List Char → Prop} (single : ∀ a, ',' ∉ a → P a)
    (cut : ∀ a b, ',' ∉ a → P b → P (a ++ ',' :: b)) (field : List Char) : P field := by
  induction hlength : field.length using Nat.strongRecOn generalizing field with
  | ind length ih =>
    by_cases hcomma : ',' ∈ field
    · obtain ⟨a, b, rfl, ha⟩ := eq_append_cons_of_mem hcomma
      apply cut a b ha
      refine ih b.length ?_ b rfl
      rw [← hlength, length_append, length_cons]
      omega
    · exact single field hcomma

variable {kind : FieldKind}

theorem comma_not_mem_resolve {text resolved : List Char} (h : resolve kind text = .ok resolved)
    (hcomma : ',' ∉ text) : ',' ∉ resolved := by
  intro hmem
  rcases mem_of_resolve h hmem with htext | hdigit
  · exact hcomma htext
  · cases hdigit

theorem resolve_commaItems (field : List Char) {resolved : List Char}
    (h : resolve kind field = .ok resolved) :
    Forall₂ (fun p q => resolve kind p = .ok q) (commaItems field) (commaItems resolved) := by
  induction field using comma_induction generalizing resolved with
  | single a ha =>
    rw [commaItems_single ha, commaItems_single (comma_not_mem_resolve h ha)]
    exact .cons h .nil
  | cut a b ha ih =>
    obtain ⟨x, y, hx, hy, rfl⟩ := resolve_append_inv (by decide) h
    rw [commaItems_cut ha, commaItems_cut (comma_not_mem_resolve hx ha)]
    exact .cons hx (ih hy)

theorem exists_resolve_commaItems (field : List Char) {items : List (List Char)}
    (h : Forall₂ (fun p q => resolve kind p = .ok q) (commaItems field) items) :
    ∃ resolved, resolve kind field = .ok resolved ∧ commaItems resolved = items := by
  induction field using comma_induction generalizing items with
  | single a ha =>
    rw [commaItems_single ha] at h
    obtain ⟨x, rest, hx, hrest, rfl⟩ := forall₂_cons_left_iff.mp h
    obtain rfl := forall₂_nil_left_iff.mp hrest
    exact ⟨x, hx, commaItems_single (comma_not_mem_resolve hx ha)⟩
  | cut a b ha ih =>
    rw [commaItems_cut ha] at h
    obtain ⟨x, rest, hx, hrest, rfl⟩ := forall₂_cons_left_iff.mp h
    obtain ⟨y, hy, rfl⟩ := ih hrest
    exact ⟨x ++ ',' :: y, resolve_append_ok (by decide) hx hy,
      commaItems_cut (comma_not_mem_resolve hx ha) y⟩

end Commas

end CrabbyKit.Cron
