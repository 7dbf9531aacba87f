import Mathlib.Data.List.DropRight

/-!
# Base64

`btoa` and `atob`: standard base64 with padding, and the forgiving decoder, which skips white
space, takes a text with its padding or without, and drops the bits that fill no byte. On top of
them the URL-safe spelling without padding.
-/

namespace CrabbyKit

open List

/-- The character of six bits. -/
def encodeSextet (n : Nat) : Char :=
  if n < 26 then Char.ofNat (65 + n)
  else if n < 52 then Char.ofNat (97 + (n - 26))
  else if n < 62 then Char.ofNat (48 + (n - 52))
  else if n = 62 then '+'
  else '/'

/-- The six bits of a character of the alphabet. -/
def decodeSextet (c : Char) : Option Nat :=
  if 65 ≤ c.toNat ∧ c.toNat ≤ 90 then some (c.toNat - 65)
  else if 97 ≤ c.toNat ∧ c.toNat ≤ 122 then some (c.toNat - 97 + 26)
  else if 48 ≤ c.toNat ∧ c.toNat ≤ 57 then some (c.toNat - 48 + 52)
  else if c = '+' then some 62
  else if c = '/' then some 63
  else none

/-- The bytes cut into pieces of six bits, the last one filled up with zeros. -/
def sextets : List UInt8 → List Nat
  | [] => []
  | [a] => [a.toNat / 4, a.toNat % 4 * 16]
  | [a, b] => [a.toNat / 4, a.toNat % 4 * 16 + b.toNat / 16, b.toNat % 16 * 4]
  | a :: b :: c :: rest =>
    a.toNat / 4 :: (a.toNat % 4 * 16 + b.toNat / 16) :: (b.toNat % 16 * 4 + c.toNat / 64) ::
      c.toNat % 64 :: sextets rest

/-- `btoa` of a binary string with these bytes. -/
def btoa (bytes : List UInt8) : List Char :=
  (sextets bytes).map encodeSextet ++ List.replicate ((3 - bytes.length % 3) % 3) '='

/-- The bytes of pieces of six bits; bits that fill no byte are dropped. -/
def bytesOfSextets : List Nat → List UInt8
  | p :: q :: r :: t :: rest =>
    UInt8.ofNat (p * 4 + q / 16) :: UInt8.ofNat (q % 16 * 16 + r / 4) ::
      UInt8.ofNat (r % 4 * 64 + t) :: bytesOfSextets rest
  | [p, q, r] => [UInt8.ofNat (p * 4 + q / 16), UInt8.ofNat (q % 16 * 16 + r / 4)]
  | [p, q] => [UInt8.ofNat (p * 4 + q / 16)]
  | _ => []

/-- The characters that `atob` skips. -/
def asciiWhitespace (c : Char) : Bool :=
  c.toNat = 9 || c.toNat = 10 || c.toNat = 12 || c.toNat = 13 || c.toNat = 32

/-- The text without its padding: one or two equals signs where they fill a group of four. -/
def dropPadding (cs : List Char) : List Char :=
  if cs.length % 4 = 0 then
    match cs.reverse with
    | '=' :: '=' :: rest => rest.reverse
    | '=' :: rest => rest.reverse
    | _ => cs
  else cs

/-- `atob`; `none` stands for the `InvalidCharacterError` that it throws. -/
def atob (cs : List Char) : Option (List UInt8) :=
  let data := dropPadding (cs.filter fun c => !asciiWhitespace c)
  if data.length % 4 = 1 then none
  else (data.mapM decodeSextet).map bytesOfSextets

def urlSafe (c : Char) : Char := if c = '+' then '-' else if c = '/' then '_' else c

def urlUnsafe (c : Char) : Char := if c = '-' then '+' else if c = '_' then '/' else c

/-- `base64urlEncode` of `mint.ts`. -/
def base64urlEncode (bytes : List UInt8) : String :=
  String.ofList ((btoa bytes).map urlSafe |>.rdropWhile (· = '='))

/-- `base64urlDecode` of `verify.ts`. -/
def base64urlDecode (text : String) : Option (List UInt8) :=
  atob (text.toList.map urlUnsafe)

variable (bytes : List UInt8)

theorem sextets_lt : ∀ n ∈ sextets bytes, n < 64 := by
  fun_induction sextets bytes with
  | case1 => simp
  | case2 a =>
    have := a.toNat_lt
    simp only [mem_cons, not_mem_nil, or_false, forall_eq_or_imp, forall_eq]
    omega
  | case3 a b =>
    have := a.toNat_lt
    have := b.toNat_lt
    simp only [mem_cons, not_mem_nil, or_false, forall_eq_or_imp, forall_eq]
    omega
  | case4 a b c rest ih =>
    have := a.toNat_lt
    have := b.toNat_lt
    have := c.toNat_lt
    simp only [mem_cons, forall_eq_or_imp]
    exact ⟨by omega, by omega, by omega, by omega, ih⟩

private theorem ofNat_eq {b : UInt8} {n : Nat} (h : n = b.toNat) : UInt8.ofNat n = b := by
  rw [h, UInt8.ofNat_toNat]

theorem bytesOfSextets_sextets : bytesOfSextets (sextets bytes) = bytes := by
  fun_induction sextets bytes with
  | case1 => rfl
  | case2 a =>
    have := a.toNat_lt
    rw [bytesOfSextets, ofNat_eq (b := a) (by omega)]
  | case3 a b =>
    have := a.toNat_lt
    have := b.toNat_lt
    rw [bytesOfSextets, ofNat_eq (b := a) (by omega), ofNat_eq (b := b) (by omega)]
  | case4 a b c rest ih =>
    have := a.toNat_lt
    have := b.toNat_lt
    have := c.toNat_lt
    rw [bytesOfSextets, ih, ofNat_eq (b := a) (by omega), ofNat_eq (b := b) (by omega),
      ofNat_eq (b := c) (by omega)]

theorem length_sextets : (sextets bytes).length % 4 ≠ 1 := by
  fun_induction sextets bytes with
  | case1 => simp
  | case2 a => simp
  | case3 a b => simp
  | case4 a b c rest ih => simp only [length_cons]; omega

theorem sextet_spec : ∀ n < 64, decodeSextet (encodeSextet n) = some n ∧
    urlUnsafe (urlSafe (encodeSextet n)) = encodeSextet n ∧ urlSafe (encodeSextet n) ≠ '=' ∧
    encodeSextet n ≠ '=' ∧ urlSafe (encodeSextet n) ≠ '.' ∧
    asciiWhitespace (encodeSextet n) = false ∧ (urlSafe (encodeSextet n)).toNat < 128 := by
  decide

private theorem mapM_decodeSextet {ns : List Nat} (h : ∀ n ∈ ns, n < 64) :
    (ns.map encodeSextet).mapM decodeSextet = some ns := by
  induction ns with
  | nil => rfl
  | cons n ns ih =>
    rw [map_cons, mapM_cons, (sextet_spec n (h n mem_cons_self)).1,
      ih fun m hm => h m (mem_cons_of_mem n hm)]
    rfl

theorem toList_base64urlEncode :
    (base64urlEncode bytes).toList = (sextets bytes).map fun n => urlSafe (encodeSextet n) := by
  have hpad : (List.replicate ((3 - bytes.length % 3) % 3) '=').map urlSafe =
      List.replicate ((3 - bytes.length % 3) % 3) '=' := by
    rw [map_replicate]; rfl
  rw [base64urlEncode, String.toList_ofList, btoa, map_append, hpad, map_map]
  rw [List.rdropWhile, reverse_append, reverse_replicate, dropWhile_append_of_pos (by simp)]
  have hlast : ((sextets bytes).map (urlSafe ∘ encodeSextet)).reverse.dropWhile (· = '=') =
      ((sextets bytes).map (urlSafe ∘ encodeSextet)).reverse := by
    rw [dropWhile_eq_self_iff]
    intro hne
    have hmem := getElem_mem (l := ((sextets bytes).map (urlSafe ∘ encodeSextet)).reverse) hne
    simp only [mem_reverse, mem_map, Function.comp_apply] at hmem
    obtain ⟨n, hn, heq⟩ := hmem
    rw [← heq]
    simpa using (sextet_spec n (sextets_lt bytes n hn)).2.2.1
  rw [hlast, reverse_reverse]
  rfl

/-- `base64urlDecode` inverts `base64urlEncode`, for every byte string. -/
theorem base64urlDecode_encode : base64urlDecode (base64urlEncode bytes) = some bytes := by
  have hchars : (base64urlEncode bytes).toList.map urlUnsafe =
      (sextets bytes).map encodeSextet := by
    rw [toList_base64urlEncode, map_map]
    refine map_congr_left fun n hn => ?_
    exact (sextet_spec n (sextets_lt bytes n hn)).2.1
  have hspace : ((sextets bytes).map encodeSextet).filter (fun c => !asciiWhitespace c) =
      (sextets bytes).map encodeSextet := by
    refine List.filter_eq_self.mpr fun c hc => ?_
    obtain ⟨n, hn, rfl⟩ := mem_map.mp hc
    simp [(sextet_spec n (sextets_lt bytes n hn)).2.2.2.2.2.1]
  have hpad : dropPadding ((sextets bytes).map encodeSextet) =
      (sextets bytes).map encodeSextet := by
    have hno : '=' ∉ ((sextets bytes).map encodeSextet).reverse := by
      intro hmem
      obtain ⟨n, hn, heq⟩ := mem_map.mp (mem_reverse.mp hmem)
      exact (sextet_spec n (sextets_lt bytes n hn)).2.2.2.1 heq
    rw [dropPadding]
    split
    · split
      · rename_i heq; simp [heq] at hno
      · rename_i heq; simp [heq] at hno
      · rfl
    · rfl
  have hdecode := mapM_decodeSextet (sextets_lt bytes)
  rw [base64urlDecode, hchars, atob, hspace, hpad]
  simp only [length_map, if_neg (length_sextets bytes), hdecode, Option.map_some,
    bytesOfSextets_sextets]

theorem length_btoa : (btoa bytes).length % 4 = 0 := by
  rw [btoa, length_append, length_map, length_replicate]
  induction bytes using sextets.induct with
  | case1 => rfl
  | case2 a => simp [sextets]
  | case3 a b => simp [sextets]
  | case4 a b c rest ih =>
    simp only [sextets, length_cons] at ih ⊢
    omega

/-- `atob` inverts `btoa`. -/
theorem atob_btoa : atob (btoa bytes) = some bytes := by
  have hno : ∀ c ∈ ((sextets bytes).map encodeSextet).reverse, c ≠ '=' := by
    intro c hc
    obtain ⟨n, hn, rfl⟩ := mem_map.mp (mem_reverse.mp hc)
    exact (sextet_spec n (sextets_lt bytes n hn)).2.2.2.1
  have hspace : (btoa bytes).filter (fun c => !asciiWhitespace c) = btoa bytes := by
    refine List.filter_eq_self.mpr fun c hc => ?_
    rcases mem_append.mp hc with h | h
    · obtain ⟨n, hn, rfl⟩ := mem_map.mp h
      simp [(sextet_spec n (sextets_lt bytes n hn)).2.2.2.2.2.1]
    · rw [eq_of_mem_replicate h]
      decide
  have hpad : dropPadding (btoa bytes) = (sextets bytes).map encodeSextet := by
    rw [dropPadding, if_pos (length_btoa bytes), btoa, reverse_append, reverse_replicate]
    have hcases : (3 - bytes.length % 3) % 3 = 0 ∨ (3 - bytes.length % 3) % 3 = 1 ∨
        (3 - bytes.length % 3) % 3 = 2 := by omega
    generalize (3 - bytes.length % 3) % 3 = k at hcases ⊢
    generalize hrev : ((sextets bytes).map encodeSextet).reverse = rev at hno ⊢
    have hback : rev.reverse = (sextets bytes).map encodeSextet := by rw [← hrev, reverse_reverse]
    rcases hcases with rfl | rfl | rfl
    · cases rev with
      | nil => simp
      | cons c rev =>
        have hc := hno c mem_cons_self
        simp [hc]
    · cases rev with
      | nil => simpa using hback
      | cons c rev =>
        have hc := hno c mem_cons_self
        simpa [hc] using hback
    · simpa using hback
  rw [atob, hspace, hpad]
  simp only [length_map, if_neg (length_sextets bytes), mapM_decodeSextet (sextets_lt bytes),
    Option.map_some, bytesOfSextets_sextets]

theorem dot_notMem_base64urlEncode : '.' ∉ (base64urlEncode bytes).toList := by
  rw [toList_base64urlEncode]
  intro hmem
  obtain ⟨n, hn, heq⟩ := mem_map.mp hmem
  exact (sextet_spec n (sextets_lt bytes n hn)).2.2.2.2.1 heq

end CrabbyKit
