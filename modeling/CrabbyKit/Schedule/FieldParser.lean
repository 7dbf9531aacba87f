import CrabbyKit.Schedule.Grammar

/-!
# The field parser against its grammar

`parseField` replaces names, cuts the field at commas and reads each item on its own. It accepts
every list of items, and reads each as the grammar does but for steps over the days of the week.
What else it accepts are texts of which it looks at a part only.
-/

namespace CrabbyKit.Cron

open List

theorem mapM_ok_iff {α β : Type} {f : α → Except String β} {xs : List α} {ys : List β} :
    xs.mapM f = .ok ys ↔ Forall₂ (fun x y => f x = .ok y) xs ys := by
  induction xs generalizing ys with
  | nil =>
    rw [mapM_nil, forall₂_nil_left_iff]
    exact ⟨fun h => (Except.ok.inj h).symm, fun h => congrArg Except.ok h.symm⟩
  | cons x xs ih =>
    rw [mapM_cons]
    constructor
    · intro h
      obtain ⟨y, hy, hbind⟩ := bind_ok h
      obtain ⟨rest, hrest, hys⟩ := bind_ok hbind
      obtain rfl := Except.ok.inj hys
      exact .cons hy (ih.mp hrest)
    · intro h
      obtain ⟨y, rest, hy, hrest, rfl⟩ := forall₂_cons_left_iff.mp h
      rw [hy, ih.mpr hrest]
      rfl

theorem forall₂_comp_iff {α β γ : Type} {R : α → β → Prop} {S : β → γ → Prop} {xs : List α}
    {zs : List γ} :
    (∃ ys, Forall₂ R xs ys ∧ Forall₂ S ys zs) ↔ Forall₂ (fun x z => ∃ y, R x y ∧ S y z) xs zs := by
  constructor
  · rintro ⟨ys, hxy, hyz⟩
    induction hxy generalizing zs with
    | nil => rw [forall₂_nil_left_iff.mp hyz]; exact .nil
    | cons hr _ ih =>
      obtain ⟨z, rest, hs, hrest, rfl⟩ := forall₂_cons_left_iff.mp hyz
      exact .cons ⟨_, hr, hs⟩ (ih hrest)
  · intro h
    induction h with
    | nil => exact ⟨[], .nil, .nil⟩
    | cons hxz _ ih =>
      obtain ⟨y, hr, hs⟩ := hxz
      obtain ⟨ys, hxy, hyz⟩ := ih
      exact ⟨y :: ys, .cons hr hxy, .cons hs hyz⟩

theorem exists_forall₂_iff {α β : Type} {R : α → β → Prop} {xs : List α} :
    (∃ ys, Forall₂ R xs ys) ↔ ∀ x ∈ xs, ∃ y, R x y := by
  constructor
  · rintro ⟨ys, h⟩
    induction h with
    | nil => exact fun x hx => absurd hx not_mem_nil
    | cons hr _ ih => exact forall_mem_cons.mpr ⟨⟨_, hr⟩, ih⟩
  · intro h
    induction xs with
    | nil => exact ⟨[], .nil⟩
    | cons x xs ih =>
      obtain ⟨y, hy⟩ := h x mem_cons_self
      obtain ⟨ys, hys⟩ := ih fun z hz => h z (mem_cons_of_mem x hz)
      exact ⟨y :: ys, .cons hy hys⟩

theorem forall_of_forall₂ {α β : Type} {R : α → β → Prop} {P : β → Prop} {xs : List α}
    {ys : List β} (h : Forall₂ R xs ys) (hP : ∀ x y, R x y → P y) : ∀ y ∈ ys, P y := by
  induction h with
  | nil => exact fun y hy => absurd hy not_mem_nil
  | cons hr _ ih => exact forall_mem_cons.mpr ⟨hP _ _ hr, ih⟩

/-- The last step of `parseField`: 7 becomes 0 on the day of the week. -/
def foldSunday (kind : FieldKind) (values : List Nat) : List Nat :=
  if kind.max = 7 ∧ 7 ∈ values then values.filter (· ≠ 7) ++ [0] else values

def PartReads (kind : FieldKind) (text : List Char) (values : List Nat) : Prop :=
  ∃ resolved, resolve kind text = .ok resolved ∧
    parsePart kind.min kind.max resolved = .ok values

section ParseField

variable {kind : FieldKind} {field : List Char} {values : List Nat}

theorem parseField_ok_iff :
    parseField field kind.min kind.max = .ok values ↔
      ∃ lists, Forall₂ (PartReads kind) (commaItems field) lists ∧
        values = foldSunday kind lists.flatten := by
  have hparse : parseField field kind.min kind.max =
      resolve kind field >>= fun resolved =>
        (commaItems resolved).mapM (parsePart kind.min kind.max) >>= fun lists =>
          .ok (foldSunday kind lists.flatten) := by
    simp only [parseField, foldSunday, resolve, commaItems]
    by_cases hnames : fieldNames kind.max = []
    · rw [if_pos hnames, if_pos hnames]
      congr 1
      funext resolved
      congr 1
      funext lists
      split_ifs <;> rfl
    · rw [if_neg hnames, if_neg hnames]
      congr 1
      funext resolved
      congr 1
      funext lists
      split_ifs <;> rfl
  rw [hparse]
  constructor
  · intro h
    obtain ⟨resolved, hresolved, hrest⟩ := bind_ok h
    obtain ⟨lists, hlists, hvalues⟩ := bind_ok hrest
    refine ⟨lists, ?_, (Except.ok.inj hvalues).symm⟩
    exact forall₂_comp_iff.mp
      ⟨commaItems resolved, resolve_commaItems field hresolved, mapM_ok_iff.mp hlists⟩
  · rintro ⟨lists, hlists, rfl⟩
    obtain ⟨items, hitems, hparts⟩ := forall₂_comp_iff.mpr hlists
    obtain ⟨resolved, hresolved, rfl⟩ := exists_resolve_commaItems field hitems
    rw [hresolved]
    show (commaItems resolved).mapM (parsePart kind.min kind.max) >>= _ = _
    rw [mapM_ok_iff.mpr hparts]
    rfl

end ParseField

section ParsePart

variable {kind : FieldKind} {text : List Char} {values : List Nat}

/-- Where the steps of an item begin. -/
def startValue (kind : FieldKind) (text : List Char) : Option Int :=
  if pieceAt '/' 0 text = ['*'] then some (kind.min : Int) else parseInt (pieceAt '/' 0 text)

theorem ne_star {c : Char} (h : c ∈ text) (hc : c ≠ '*') : text ≠ ['*'] := by
  rintro rfl
  exact hc (mem_singleton.mp h)

theorem parsePart_step (hslash : '/' ∈ text) :
    parsePart kind.min kind.max text = .ok values ↔
      ∃ s n : Int, parseInt (pieceAt '/' 1 text) = some s ∧ 0 < s ∧ startValue kind text = some n ∧
        kind.min ≤ n ∧ n ≤ kind.max ∧ values = stepValues n.toNat kind.max s.toNat := by
  simp only [parsePart, if_neg (ne_star hslash (by decide)), if_pos hslash]
  rw [← pieceAt, ← pieceAt]
  cases hstep : parseInt (pieceAt '/' 1 text) with
  | none => simp
  | some s =>
    cases hstart : startValue kind text with
    | none =>
      rw [startValue] at hstart
      simp only [hstart]
      split_ifs <;> simp
    | some n =>
      rw [startValue] at hstart
      simp only [hstart]
      split_ifs with hs hn
      · simp only [Option.some.injEq, false_iff]
        rintro ⟨s', n', rfl, hpos, -⟩
        omega
      · simp only [Option.some.injEq, false_iff]
        rintro ⟨s', n', -, -, rfl, hmin, hmax, -⟩
        omega
      · simp only [Except.ok.injEq, Option.some.injEq]
        constructor
        · rintro rfl
          exact ⟨s, n, rfl, by omega, rfl, by omega, by omega, rfl⟩
        · rintro ⟨s', n', rfl, -, rfl, -, -, rfl⟩
          rfl

theorem parsePart_range (hslash : '/' ∉ text) (hminus : '-' ∈ text) :
    parsePart kind.min kind.max text = .ok values ↔
      ∃ n m : Int, parseInt (pieceAt '-' 0 text) = some n ∧ parseInt (pieceAt '-' 1 text) = some m ∧
        kind.min ≤ n ∧ n ≤ m ∧ m ≤ kind.max ∧ values = stepValues n.toNat m.toNat 1 := by
  simp only [parsePart, if_neg (ne_star hminus (by decide)), if_neg hslash, if_pos hminus]
  rw [← pieceAt, ← pieceAt]
  cases hfirst : parseInt (pieceAt '-' 0 text) with
  | none => simp
  | some n =>
    cases hlast : parseInt (pieceAt '-' 1 text) with
    | none => simp
    | some m =>
      simp only
      split_ifs with hbounds
      · simp only [Option.some.injEq, false_iff]
        rintro ⟨n', m', rfl, rfl, hmin, hle, hmax, -⟩
        omega
      · simp only [Except.ok.injEq, Option.some.injEq]
        constructor
        · rintro rfl
          exact ⟨n, m, rfl, rfl, by omega, by omega, by omega, rfl⟩
        · rintro ⟨n', m', rfl, rfl, -, -, -, rfl⟩
          rfl

theorem parsePart_single (hstar : text ≠ ['*']) (hslash : '/' ∉ text) (hminus : '-' ∉ text) :
    parsePart kind.min kind.max text = .ok values ↔
      ∃ n : Int, parseInt text = some n ∧ kind.min ≤ n ∧ n ≤ kind.max ∧ values = [n.toNat] := by
  simp only [parsePart, if_neg hstar, if_neg hslash, if_neg hminus]
  cases hvalue : parseInt text with
  | none => simp
  | some n =>
    simp only
    split_ifs with hbounds
    · simp only [Option.some.injEq, false_iff]
      rintro ⟨n', rfl, hmin, hmax, -⟩
      omega
    · simp only [Except.ok.injEq, Option.some.injEq]
      constructor
      · rintro rfl
        exact ⟨n, rfl, by omega, by omega, rfl⟩
      · rintro ⟨n', rfl, -, -, rfl⟩
        rfl

theorem parsePart_star :
    parsePart kind.min kind.max ['*'] = .ok (stepValues kind.min kind.max 1) := rfl

theorem FieldKind.min_le_max (kind : FieldKind) : kind.min ≤ kind.max := by
  cases kind <;> decide

theorem skims_iff : Skims kind text ↔ ∃ values, parsePart kind.min kind.max text = .ok values := by
  by_cases hstar : text = ['*']
  · subst hstar
    exact iff_of_true (.inl rfl) ⟨_, parsePart_star⟩
  by_cases hslash : '/' ∈ text
  · simp only [Skims, hstar, hslash, parsePart_step hslash, not_true_eq_false, false_and, or_false,
      true_and, false_or, Within, startValue]
    by_cases hany : pieceAt '/' 0 text = ['*']
    · have hmin := kind.min_le_max
      simp only [hany, true_or, and_true, if_true, Option.some.injEq]
      constructor
      · rintro ⟨s, hs, hpos⟩
        exact ⟨_, s, kind.min, hs, hpos, rfl, Int.le_refl _, by omega, rfl⟩
      · rintro ⟨values, s, n, hs, hpos, -⟩
        exact ⟨s, hs, hpos⟩
    · simp only [hany, false_or, if_false]
      constructor
      · rintro ⟨⟨s, hs, hpos⟩, n, hn, hmin, hmax⟩
        exact ⟨_, s, n, hs, hpos, hn, hmin, hmax, rfl⟩
      · rintro ⟨values, s, n, hs, hpos, hn, hmin, hmax, -⟩
        exact ⟨⟨s, hs, hpos⟩, n, hn, hmin, hmax⟩
  by_cases hminus : '-' ∈ text
  · simp only [Skims, hstar, hslash, hminus, parsePart_range hslash hminus, not_true_eq_false,
      not_false_eq_true, false_and, or_false, true_and, false_or]
    constructor
    · rintro ⟨n, m, hn, hm, hmin, hle, hmax⟩
      exact ⟨_, n, m, hn, hm, hmin, hle, hmax, rfl⟩
    · rintro ⟨values, n, m, hn, hm, hmin, hle, hmax, -⟩
      exact ⟨n, m, hn, hm, hmin, hle, hmax⟩
  · simp only [Skims, hstar, hslash, hminus, parsePart_single hstar hslash hminus,
      not_false_eq_true, false_and, true_and, false_or, Within]
    constructor
    · rintro ⟨n, hn, hmin, hmax⟩
      exact ⟨_, n, hn, hmin, hmax, rfl⟩
    · rintro ⟨values, n, hn, hmin, hmax, -⟩
      exact ⟨n, hn, hmin, hmax⟩

theorem legible_iff : Legible kind text ↔ ∃ values, PartReads kind text values := by
  constructor
  · rintro ⟨resolved, hresolved, hskims⟩
    obtain ⟨values, hvalues⟩ := skims_iff.mp hskims
    exact ⟨values, resolved, hresolved, hvalues⟩
  · rintro ⟨values, resolved, hresolved, hvalues⟩
    exact ⟨resolved, hresolved, skims_iff.mpr ⟨values, hvalues⟩⟩

end ParsePart

section Items

variable {kind : FieldKind} {text x y : List Char} {item : Item}

/-- The values the parser lists for an item, before 7 is folded. -/
def Item.listed (kind : FieldKind) : Item → List Nat
  | .any => stepValues kind.min kind.max 1
  | .single n => [n]
  | .range n m => stepValues n m 1
  | .stepFrom n s => stepValues n kind.max s
  | .anyStep s => stepValues kind.min kind.max s

def Item.InBounds (kind : FieldKind) : Item → Prop
  | .any => True
  | .single n => kind.min ≤ n ∧ n ≤ kind.max
  | .range n m => kind.min ≤ n ∧ n ≤ m ∧ m ≤ kind.max
  | .stepFrom n s => kind.min ≤ n ∧ n ≤ kind.max ∧ 0 < s
  | .anyStep s => 0 < s

theorem Reads.inBounds (h : Reads kind text item) : item.InBounds kind := by
  cases h with
  | any => trivial
  | single hvalue => exact hvalue.2
  | range hfirst hlast hle => exact ⟨hfirst.2.1, hle, hlast.2.2⟩
  | stepFrom hstart hstep => exact ⟨hstart.2.1, hstart.2.2, hstep.2⟩
  | anyStep hstep => exact hstep.2

theorem splitOnP_two (sep : Char) (hx : sep ∉ x) (hy : sep ∉ y) :
    (x ++ sep :: y).splitOnP (· = sep) = [x, y] := by
  have hsingle : ∀ z : List Char, sep ∉ z → z.splitOnP (· = sep) = [z] := by
    intro z hz
    apply splitOnP_eq_singleton
    intro c hc
    apply decide_eq_false
    rintro rfl
    exact hz hc
  rw [splitOnP_append_cons _ _ (by simp), hsingle x hx, hsingle y hy]
  rfl

theorem IsNumeral.not_mem {n : Nat} (h : IsNumeral text n) (sep : Char)
    (hsep : isDigit sep = false) : sep ∉ text := by
  intro hmem
  rw [h.2.1 sep hmem] at hsep
  cases hsep

theorem Reads.partReads (h : Reads kind text item) : PartReads kind text (item.listed kind) := by
  cases h with
  | any => exact ⟨['*'], resolve_of_no_letter (forall_mem_singleton.mpr rfl), parsePart_star⟩
  | single hvalue =>
    obtain ⟨digits, hresolved, hnumeral⟩ := hvalue.resolve
    refine ⟨digits, hresolved, ?_⟩
    have hstar : digits ≠ ['*'] := by
      rintro rfl
      exact hnumeral.not_mem '*' rfl (mem_singleton_self _)
    rw [parsePart_single hstar (hnumeral.not_mem _ rfl) (hnumeral.not_mem _ rfl)]
    obtain ⟨-, hmin, hmax⟩ := hvalue
    exact ⟨_, hnumeral.parseInt, by omega, by omega, by rw [Int.toNat_natCast]; rfl⟩
  | @range first last n m hfirst hlast hle =>
    obtain ⟨x, hx, hxnum⟩ := hfirst.resolve
    obtain ⟨y, hy, hynum⟩ := hlast.resolve
    refine ⟨x ++ '-' :: y, resolve_append_ok (by decide) hx hy, ?_⟩
    have hslash : '/' ∉ x ++ '-' :: y := by
      rw [mem_append, mem_cons]
      rintro (hmem | heq | hmem)
      · exact hxnum.not_mem _ rfl hmem
      · cases heq
      · exact hynum.not_mem _ rfl hmem
    have hpieces := splitOnP_two '-' (hxnum.not_mem _ rfl) (hynum.not_mem _ rfl)
    rw [parsePart_range hslash (by simp)]
    obtain ⟨-, hmin, -⟩ := hfirst
    obtain ⟨-, -, hmax⟩ := hlast
    refine ⟨n, m, ?_, ?_, by omega, Int.ofNat_le.mpr hle, by omega, ?_⟩
    · rw [pieceAt, hpieces]
      exact hxnum.parseInt
    · rw [pieceAt, hpieces]
      exact hynum.parseInt
    · rw [Int.toNat_natCast, Int.toNat_natCast]
      rfl
  | @stepFrom start step n s hstart hstep =>
    obtain ⟨x, hx, hxnum⟩ := hstart.resolve
    refine ⟨x ++ '/' :: _, resolve_append_ok (by decide) hx hstep.1.resolve, ?_⟩
    have hpieces := splitOnP_two '/' (hxnum.not_mem _ rfl) (hstep.1.not_mem _ rfl)
    rw [parsePart_step (by simp)]
    obtain ⟨-, hmin, hmax⟩ := hstart
    refine ⟨s, n, ?_, Int.ofNat_lt.mpr hstep.2, ?_, by omega, by omega, ?_⟩
    · rw [pieceAt, hpieces]
      exact hstep.1.parseInt
    · have hstar : x ≠ ['*'] := by
        rintro rfl
        exact hxnum.not_mem '*' rfl (mem_singleton_self _)
      rw [startValue, pieceAt, hpieces]
      exact (if_neg hstar).trans hxnum.parseInt
    · rw [Int.toNat_natCast, Int.toNat_natCast]
      rfl
  | @anyStep step s hstep =>
    have hstar : resolve kind ['*'] = .ok ['*'] :=
      resolve_of_no_letter (forall_mem_singleton.mpr rfl)
    refine ⟨['*'] ++ '/' :: step, resolve_append_ok (by decide) hstar hstep.1.resolve, ?_⟩
    have hpieces := splitOnP_two '/' (x := ['*']) (by decide) (hstep.1.not_mem _ rfl)
    rw [parsePart_step (by simp)]
    have hmin := kind.min_le_max
    refine ⟨s, kind.min, ?_, Int.ofNat_lt.mpr hstep.2, ?_, Int.le_refl _, Int.ofNat_le.mpr hmin, ?_⟩
    · rw [pieceAt, hpieces]
      exact hstep.1.parseInt
    · rw [startValue, pieceAt, hpieces]
      exact if_pos rfl
    · rw [Int.toNat_natCast, Int.toNat_natCast]
      rfl

end Items

section Meaning

variable {kind : FieldKind} {item : Item} {items : List Item} {v n s : Nat}

/-- A value is one of those the parser ends up with for an item. -/
def Item.Lists (kind : FieldKind) (item : Item) (v : Nat) : Prop :=
  ∃ w ∈ item.listed kind, v = kind.meaning w

theorem mem_stepValues {start max step : Nat} (hle : start ≤ max) (hstep : 0 < step) :
    v ∈ stepValues start max step ↔ start ≤ v ∧ v ≤ max ∧ step ∣ v - start := by
  rw [stepValues, mem_range']
  constructor
  · rintro ⟨i, hi, rfl⟩
    have hbound : step * i ≤ max - start :=
      (Nat.mul_comm step i).le.trans ((Nat.le_div_iff_mul_le hstep).mp (Nat.le_of_lt_succ hi))
    refine ⟨Nat.le_add_right _ _, by omega, ?_⟩
    rw [Nat.add_sub_cancel_left]
    exact Nat.dvd_mul_right step i
  · rintro ⟨hstart, hmax, i, hi⟩
    refine ⟨i, Nat.lt_succ_of_le ((Nat.le_div_iff_mul_le hstep).mpr ?_), by omega⟩
    rw [Nat.mul_comm, ← hi]
    omega

theorem FieldKind.max_eq_seven : kind.max = 7 ↔ kind = .dayOfWeek := by
  cases kind <;> decide

theorem mem_foldSunday {values : List Nat} :
    v ∈ foldSunday kind values ↔ ∃ w ∈ values, v = kind.meaning w := by
  simp only [foldSunday, FieldKind.max_eq_seven, FieldKind.meaning]
  by_cases hkind : kind = .dayOfWeek
  · by_cases hseven : 7 ∈ values
    · rw [if_pos ⟨hkind, hseven⟩, mem_append, mem_filter, mem_singleton]
      constructor
      · rintro (⟨hv, hne⟩ | rfl)
        · exact ⟨v, hv, by rw [if_neg fun h => of_decide_eq_true hne h.2]⟩
        · exact ⟨7, hseven, by rw [if_pos ⟨hkind, rfl⟩]⟩
      · rintro ⟨w, hw, rfl⟩
        by_cases hw7 : w = 7
        · exact .inr (if_pos ⟨hkind, hw7⟩)
        · rw [if_neg fun h => hw7 h.2]
          exact .inl ⟨hw, decide_eq_true hw7⟩
    · rw [if_neg fun h => hseven h.2]
      have hmeaning : ∀ w ∈ values, (if kind = .dayOfWeek ∧ w = 7 then 0 else w) = w := by
        intro w hw
        apply if_neg
        rintro ⟨-, rfl⟩
        exact hseven hw
      constructor
      · exact fun hv => ⟨v, hv, (hmeaning v hv).symm⟩
      · rintro ⟨w, hw, rfl⟩
        rwa [hmeaning w hw]
  · rw [if_neg fun h => hkind h.1]
    simp [hkind]

theorem FieldKind.meaning_of_ne (h : kind ≠ .dayOfWeek) (w : Nat) : kind.meaning w = w :=
  if_neg fun hw => h hw.1

theorem FieldKind.last_of_ne (h : kind ≠ .dayOfWeek) : kind.last = kind.max := by
  cases kind <;> first | rfl | exact absurd rfl h

theorem FieldKind.meaning_seven : FieldKind.dayOfWeek.meaning 7 = 0 := rfl

theorem FieldKind.meaning_lt {w : Nat} (h : w < 7) : FieldKind.dayOfWeek.meaning w = w :=
  if_neg fun hw => absurd hw.2 (by omega)

theorem lists_iff_of_ne (hkind : kind ≠ .dayOfWeek) (hbounds : item.InBounds kind) :
    item.Lists kind v ↔ item.Denotes kind v := by
  have hmin := kind.min_le_max
  have hlists : item.Lists kind v ↔ v ∈ item.listed kind := by
    simp only [Item.Lists, kind.meaning_of_ne hkind, exists_eq_right']
  rw [hlists]
  cases item with
  | any => simp [Item.listed, Item.Denotes, mem_stepValues hmin, kind.last_of_ne hkind]
  | single n => simp [Item.listed, Item.Denotes, kind.meaning_of_ne hkind]
  | range n m =>
    simp only [Item.listed, Item.Denotes, mem_stepValues hbounds.2.1 Nat.zero_lt_one,
      kind.meaning_of_ne hkind, Nat.one_dvd, and_true]
    constructor
    · exact fun h => ⟨v, h.1, h.2, rfl⟩
    · rintro ⟨w, hn, hm, rfl⟩
      exact ⟨hn, hm⟩
  | stepFrom n s =>
    simp only [Item.listed, Item.Denotes, mem_stepValues hbounds.2.1 hbounds.2.2,
      kind.meaning_of_ne hkind, kind.last_of_ne hkind]
  | anyStep s =>
    simp only [Item.listed, Item.Denotes, mem_stepValues hmin hbounds, kind.last_of_ne hkind]

theorem lists_stepFrom (hn : n ≤ 7) (hs : 0 < s) :
    (Item.stepFrom n s).Lists .dayOfWeek v ↔ (n ≤ v ∧ v ≤ 6 ∧ s ∣ v - n) ∨ (v = 0 ∧ s ∣ 7 - n) := by
  constructor
  · rintro ⟨w, hw, rfl⟩
    obtain ⟨hle, hmax, hdvd⟩ := (mem_stepValues hn hs).mp hw
    by_cases hseven : w = 7
    · subst hseven
      exact .inr ⟨rfl, hdvd⟩
    · have hmax' : w ≤ 7 := hmax
      rw [FieldKind.meaning_lt (by omega)]
      exact .inl ⟨hle, by omega, hdvd⟩
  · rintro (⟨hle, hmax, hdvd⟩ | ⟨rfl, hdvd⟩)
    · exact ⟨v, (mem_stepValues hn hs).mpr ⟨hle, by omega, hdvd⟩,
        (FieldKind.meaning_lt (by omega)).symm⟩
    · exact ⟨7, (mem_stepValues hn hs).mpr ⟨hn, Nat.le_refl 7, hdvd⟩, rfl⟩

theorem denotes_stepFrom (hn : n < 7) :
    (Item.stepFrom n s).Denotes .dayOfWeek v ↔ n ≤ v ∧ v ≤ 6 ∧ s ∣ v - n := by
  rw [Item.Denotes, FieldKind.meaning_lt hn]
  rfl

theorem denotes_stepFrom_seven : (Item.stepFrom 7 s).Denotes .dayOfWeek v ↔ v ≤ 6 ∧ s ∣ v := by
  rw [Item.Denotes, FieldKind.meaning_seven, Nat.sub_zero]
  exact and_iff_right (Nat.zero_le v)

theorem lists_iff (hbounds : item.InBounds .dayOfWeek)
    (hsteps : ∀ n s, 0 < n → item ≠ .stepFrom n s) :
    item.Lists .dayOfWeek v ↔ item.Denotes .dayOfWeek v := by
  have hsunday : ∀ s, 0 < s →
      ((Item.stepFrom 0 s).Lists .dayOfWeek v ↔ 0 ≤ v ∧ v ≤ 6 ∧ s ∣ v - 0) := by
    intro s hs
    rw [lists_stepFrom (Nat.zero_le 7) hs, or_iff_left_of_imp]
    rintro ⟨rfl, -⟩
    exact ⟨Nat.le_refl 0, Nat.zero_le 6, Nat.dvd_zero s⟩
  cases item with
  | any =>
    refine (hsunday 1 Nat.zero_lt_one).trans ?_
    rw [and_iff_left (Nat.one_dvd _)]
    rfl
  | single n => simp [Item.Lists, Item.listed, Item.Denotes]
  | range n m =>
    simp only [Item.Lists, Item.listed, Item.Denotes, mem_stepValues hbounds.2.1 Nat.zero_lt_one,
      Nat.one_dvd, and_true, and_assoc]
  | stepFrom n s =>
    have hzero : n = 0 := by
      by_contra hne
      exact hsteps n s (Nat.pos_of_ne_zero hne) rfl
    subst hzero
    rw [hsunday s hbounds.2.2, denotes_stepFrom (by decide)]
  | anyStep s => exact hsunday s hbounds

theorem denotes_of_lists (hbounds : item.InBounds .dayOfWeek) (h : item.Lists .dayOfWeek v) :
    item.Denotes .dayOfWeek v ∨
      (v = 0 ∧ ∃ n s, item = .stepFrom n s ∧ 0 < n ∧ n < 7 ∧ s ∣ 7 - n) := by
  by_cases hsteps : ∀ n s, 0 < n → item ≠ .stepFrom n s
  · exact .inl ((lists_iff hbounds hsteps).mp h)
  · simp only [not_forall, not_not] at hsteps
    obtain ⟨n, s, hn, rfl⟩ := hsteps
    obtain ⟨-, hmax, hs⟩ := hbounds
    have hmax' : n ≤ 7 := hmax
    rcases (lists_stepFrom hmax hs).mp h with hearly | ⟨rfl, hdvd⟩
    · exact .inl ((denotes_stepFrom (by omega)).mpr hearly)
    · by_cases hseven : n = 7
      · subst hseven
        exact .inl (denotes_stepFrom_seven.mpr ⟨Nat.zero_le 6, Nat.dvd_zero s⟩)
      · exact .inr ⟨rfl, n, s, rfl, hn, by omega, hdvd⟩

theorem lists_of_denotes (hbounds : item.InBounds .dayOfWeek)
    (hseven : ∀ t, item ≠ .stepFrom 7 t) (h : item.Denotes .dayOfWeek v) :
    item.Lists .dayOfWeek v := by
  by_cases hsteps : ∀ n s, 0 < n → item ≠ .stepFrom n s
  · exact (lists_iff hbounds hsteps).mpr h
  · simp only [not_forall, not_not] at hsteps
    obtain ⟨n, s, hn, rfl⟩ := hsteps
    obtain ⟨-, hmax, hs⟩ := hbounds
    have hmax' : n ≤ 7 := hmax
    have hne : n ≠ 7 := by
      rintro rfl
      exact hseven s rfl
    exact (lists_stepFrom hmax hs).mpr (.inl ((denotes_stepFrom (by omega)).mp h))

theorem lists_stepFrom_seven (hs : 0 < s) : (Item.stepFrom 7 s).Lists .dayOfWeek v ↔ v = 0 := by
  rw [lists_stepFrom (Nat.le_refl 7) hs]
  constructor
  · rintro (hlate | hzero)
    · omega
    · exact hzero.1
  · exact fun hzero => .inr ⟨hzero, Nat.dvd_zero s⟩

theorem stepsAgree_iff (hbounds : ∀ item ∈ items, item.InBounds kind) :
    (∀ v, (∃ item ∈ items, item.Lists kind v) ↔ ∃ item ∈ items, item.Denotes kind v) ↔
      StepsAgree kind items := by
  by_cases hkind : kind = .dayOfWeek
  · subst hkind
    constructor
    · intro hsame _ n s hmem
      obtain ⟨-, hmax, hs⟩ := hbounds _ hmem
      refine ⟨fun _ _ hdvd => ?_, ?_⟩
      · exact (hsame 0).mp ⟨_, hmem, (lists_stepFrom hmax hs).mpr (.inr ⟨rfl, hdvd⟩)⟩
      · rintro rfl v hpos hlast hdvd
        obtain ⟨item, hitem, hlists⟩ :=
          (hsame v).mpr ⟨_, hmem, denotes_stepFrom_seven.mpr ⟨hlast, hdvd⟩⟩
        refine ⟨item, hitem, ?_, ?_⟩
        · rintro t rfl
          have hzero := (lists_stepFrom_seven (hbounds _ hitem).2.2).mp hlists
          omega
        · rcases denotes_of_lists (hbounds item hitem) hlists with hdenotes | ⟨hzero, -⟩
          · exact hdenotes
          · omega
    · intro hagree v
      constructor
      · rintro ⟨item, hitem, hlists⟩
        rcases denotes_of_lists (hbounds item hitem) hlists with
          hdenotes | ⟨rfl, n, s, rfl, hn, hlt, hdvd⟩
        · exact ⟨item, hitem, hdenotes⟩
        · exact (hagree rfl n s hitem).1 hn hlt hdvd
      · rintro ⟨item, hitem, hdenotes⟩
        by_cases hseven : ∃ t, item = .stepFrom 7 t
        · obtain ⟨t, rfl⟩ := hseven
          obtain ⟨hlast, hdvd⟩ := denotes_stepFrom_seven.mp hdenotes
          rcases Nat.eq_zero_or_pos v with rfl | hpos
          · exact ⟨_, hitem, (lists_stepFrom_seven (hbounds _ hitem).2.2).mpr rfl⟩
          · -- The other items that denote the day are no steps from 7, so the parser lists it.
            obtain ⟨other, hother, hne, hdenotes'⟩ :=
              (hagree rfl 7 t hitem).2 rfl v hpos hlast hdvd
            exact ⟨other, hother, lists_of_denotes (hbounds other hother) hne hdenotes'⟩
        · exact ⟨item, hitem,
            lists_of_denotes (hbounds item hitem) (fun t ht => hseven ⟨t, ht⟩) hdenotes⟩
  · refine iff_of_true (fun v => ?_) fun h => absurd h hkind
    exact exists_congr fun item => and_congr_right fun hitem =>
      lists_iff_of_ne hkind (hbounds item hitem)

end Meaning

section Faithful

variable {kind : FieldKind} {field : List Char}

theorem parseField_of_reads {items : List Item}
    (h : Forall₂ (Reads kind) (commaItems field) items) :
    ∃ values, parseField field kind.min kind.max = .ok values ∧
      ∀ v, v ∈ values ↔ ∃ item ∈ items, item.Lists kind v := by
  refine ⟨foldSunday kind (items.map (Item.listed kind)).flatten,
    parseField_ok_iff.mpr ⟨_, ?_, rfl⟩, fun v => ?_⟩
  · rw [forall₂_map_right_iff]
    exact h.imp fun text item hreads => hreads.partReads
  · rw [mem_foldSunday]
    constructor
    · rintro ⟨w, hw, rfl⟩
      obtain ⟨list, hlist, hmem⟩ := mem_flatten.mp hw
      obtain ⟨item, hitem, rfl⟩ := mem_map.mp hlist
      exact ⟨item, hitem, w, hmem, rfl⟩
    · rintro ⟨item, hitem, w, hmem, rfl⟩
      exact ⟨w, mem_flatten.mpr ⟨_, mem_map_of_mem hitem, hmem⟩, rfl⟩

theorem parseField_isOk_iff :
    (∃ values, parseField field kind.min kind.max = .ok values) ↔
      ∀ text ∈ commaItems field, Legible kind text := by
  simp only [legible_iff, ← exists_forall₂_iff]
  constructor
  · rintro ⟨values, hvalues⟩
    obtain ⟨lists, hlists, -⟩ := parseField_ok_iff.mp hvalues
    exact ⟨lists, hlists⟩
  · rintro ⟨lists, hlists⟩
    exact ⟨_, parseField_ok_iff.mpr ⟨lists, hlists, rfl⟩⟩

/-- The field parser accepts exactly its grammar, with the meaning of the grammar, on the fields in
which nothing illegible passes and the steps over the days of the week agree. -/
theorem parseField_faithful_iff (kind : FieldKind) (field : List Char) :
    Faithful kind field ↔ Plain kind field := by
  constructor
  · rintro ⟨hmeaning, -⟩ hlegible
    obtain ⟨values, hvalues⟩ := parseField_isOk_iff.mpr hlegible
    obtain ⟨items, hitems, hdenotes⟩ := hmeaning values hvalues
    refine ⟨items, hitems, ?_⟩
    have hbounds := forall_of_forall₂ hitems fun _ _ hreads => hreads.inBounds
    obtain ⟨listed, hlisted, hlists⟩ := parseField_of_reads hitems
    obtain rfl : values = listed := Except.ok.inj (hvalues.symm.trans hlisted)
    exact (stepsAgree_iff hbounds).mp fun v => (hlists v).symm.trans (hdenotes v)
  · intro hplain
    refine ⟨fun values hvalues => ?_, fun items hitems => ?_⟩
    · obtain ⟨items, hitems, hagree⟩ := hplain (parseField_isOk_iff.mp ⟨values, hvalues⟩)
      have hbounds := forall_of_forall₂ hitems fun _ _ hreads => hreads.inBounds
      obtain ⟨listed, hlisted, hlists⟩ := parseField_of_reads hitems
      obtain rfl : values = listed := Except.ok.inj (hvalues.symm.trans hlisted)
      exact ⟨items, hitems, fun v => (hlists v).trans ((stepsAgree_iff hbounds).mpr hagree v)⟩
    · obtain ⟨values, hvalues, -⟩ := parseField_of_reads hitems
      exact ⟨values, hvalues⟩

theorem Reads.characters {text : List Char} {item : Item} (h : Reads kind text item)
    (hnames : fieldNames kind.max = []) : ∀ c ∈ text, isDigit c = true ∨ c ∈ ['*', '-', '/'] := by
  have hdigits : ∀ {text : List Char} {n : Nat}, IsValue kind text n →
      ∀ c ∈ text, isDigit c = true := by
    rintro text n ⟨hnumeral | ⟨_, _, _, -, -, hname⟩, -⟩
    · exact hnumeral.2.1
    · rw [hnames] at hname
      cases hname
  intro c hc
  cases h with
  | any => exact .inr (by simpa using .inl (mem_singleton.mp hc))
  | single hvalue => exact .inl (hdigits hvalue c hc)
  | range hfirst hlast hle =>
    rcases mem_append.mp hc with hx | hy
    · exact .inl (hdigits hfirst c hx)
    · rcases mem_cons.mp hy with rfl | hy
      · exact .inr (by decide)
      · exact .inl (hdigits hlast c hy)
  | stepFrom hstart hstep =>
    rcases mem_append.mp hc with hx | hy
    · exact .inl (hdigits hstart c hx)
    · rcases mem_cons.mp hy with rfl | hy
      · exact .inr (by decide)
      · exact .inl (hstep.1.2.1 c hy)
  | anyStep hstep =>
    rcases mem_cons.mp hc with rfl | hc
    · exact .inr (by decide)
    · rcases mem_cons.mp hc with rfl | hc
      · exact .inr (by decide)
      · exact .inl (hstep.1.2.1 c hc)

/-- Letters after a number are not looked at: `5abc` is minute 5. -/
theorem letters_after_number : ¬∀ kind field, Faithful kind field := by
  intro hall
  obtain ⟨items, hitems, -⟩ := (hall .minute "5abc".toList).1 [5] rfl
  obtain ⟨item, rest, hreads, -, -⟩ := forall₂_cons_left_iff.mp hitems
  exact absurd (hreads.characters rfl 'a' (by decide)) (by decide)

end Faithful

end CrabbyKit.Cron
