import Mathlib.Data.Finset.Sort
import Mathlib.Data.PNat.Basic

/-!
# Listings with ties

A query that orders its rows by a key may return rows with equal keys in any order. All its
listings agree with another order of the rows exactly when the key never contradicts it.
-/

namespace CrabbyKit.Listing

variable {α : Type*} {le : α → α → Bool} {rows : List α}

/-- What an ordered query may return. -/
def IsListing (le : α → α → Bool) (rows listed : List α) : Prop :=
  listed.Perm rows ∧ listed.Pairwise fun a b => le a b

theorem exists_listing (htotal : ∀ a b, (le a b || le b a) = true)
    (htrans : ∀ a b c, le a b = true → le b c = true → le a c = true) {a b : α} (ha : a ∈ rows)
    (hb : b ∈ rows) (hne : a ≠ b) (hle : le a b = true) :
    ∃ listed, IsListing le rows listed ∧ [a, b].Sublist listed := by
  have : Std.Total fun a b => le a b = true :=
    ⟨fun a b => by simpa [Bool.or_eq_true] using htotal a b⟩
  have : IsTrans α fun a b => le a b = true := ⟨htrans⟩
  classical
  -- The two rows are put in front before a stable sort.
  have hperm : (a :: b :: (rows.erase a).erase b).Perm rows := by
    have hb' : b ∈ rows.erase a := (List.mem_erase_of_ne (Ne.symm hne)).mpr hb
    exact ((List.perm_cons_erase hb').symm.cons a).trans (List.perm_cons_erase ha).symm
  refine ⟨(a :: b :: (rows.erase a).erase b).insertionSort fun a b => le a b,
    ⟨(List.perm_insertionSort _ _).trans hperm, List.pairwise_insertionSort _ _⟩, ?_⟩
  apply List.pair_sublist_insertionSort (r := fun a b => le a b = true) hle
  exact ((List.nil_sublist _).cons_cons b).cons_cons a

theorem forall_listing_iff (htotal : ∀ a b, (le a b || le b a) = true)
    (htrans : ∀ a b c, le a b = true → le b c = true → le a c = true) (hnodup : rows.Nodup)
    {R : α → α → Prop} :
    (∀ listed, IsListing le rows listed → listed.Pairwise R) ↔
      ∀ a ∈ rows, ∀ b ∈ rows, a ≠ b → le a b = true → R a b := by
  constructor
  · intro hall a ha b hb hne hle
    obtain ⟨listed, hlisting, hsub⟩ := exists_listing htotal htrans ha hb hne hle
    exact List.pairwise_pair.mp ((hall listed hlisting).sublist hsub)
  · rintro hpairs listed ⟨hperm, hle⟩
    have hdistinct : listed.Pairwise fun a b => a ≠ b := hperm.nodup_iff.mpr hnodup
    apply (hle.and hdistinct).imp_of_mem
    rintro a b ha hb ⟨hab, hne⟩
    exact hpairs a (hperm.mem_iff.mp ha) b (hperm.mem_iff.mp hb) hne hab

end CrabbyKit.Listing

/-!
## Paging through a growing log

Rows in strictly increasing key order are read page by page: the rows above a cursor, one
more than the limit, and the extra row only tells whether there is more. The next cursor
is the key of the last row read.
-/

namespace CrabbyKit.Paging

variable {α : Type*} (key : α → Nat)

def above (cursor : Nat) (rows : List α) : List α := rows.filter fun r => cursor < key r

def nextCursor (cursor : Nat) (page : List α) : Nat := (page.getLast?.map key).getD cursor

variable {key} {cursor limit : Nat} {rows page rest : List α}

theorem cut_extra (rows : List α) :
    (if limit < (rows.take (limit + 1)).length then (rows.take (limit + 1)).take limit
      else rows.take (limit + 1)) = rows.take limit := by
  rw [List.length_take]
  split_ifs with hmore
  · rw [List.take_take, Nat.min_eq_left (Nat.le_succ limit)]
  · have hshort : rows.length ≤ limit := by omega
    rw [List.take_of_length_le hshort, List.take_of_length_le (by omega)]

theorem extra_iff (rows : List α) :
    limit < (rows.take (limit + 1)).length ↔ limit < rows.length := by
  rw [List.length_take]
  omega

theorem above_nextCursor (hsorted : rows.Pairwise fun a b => key a < key b)
    (hrows : above key cursor rows = page ++ rest) :
    above key (nextCursor key cursor page) rows = rest := by
  rcases List.eq_nil_or_concat page with rfl | ⟨front, last, rfl⟩
  · exact hrows
  have hcut : above key (key last) rows = above key (key last) (above key cursor rows) := by
    have hlast : last ∈ above key cursor rows := by
      rw [hrows]
      simp
    have hcursor : cursor < key last := by simpa using (List.mem_filter.mp hlast).2
    simp only [above, List.filter_filter]
    apply List.filter_congr
    intro r _
    rw [← Bool.decide_and]
    apply decide_eq_decide.mpr
    omega
  have hpairwise : (front ++ [last] ++ rest).Pairwise fun a b => key a < key b := by
    rw [← List.concat_eq_append, ← hrows]
    exact hsorted.filter _
  obtain ⟨hpage, -, hrest⟩ := List.pairwise_append.mp hpairwise
  have hbelow : above key (key last) (front ++ [last]) = [] := by
    apply List.filter_eq_nil_iff.mpr
    intro r hr
    rcases List.mem_append.mp hr with hfront | hlast
    · have hlt := (List.pairwise_append.mp hpage).2.2 r hfront last (List.mem_singleton_self _)
      simp only [decide_eq_true_eq]
      omega
    · rw [List.mem_singleton.mp hlast]
      simp
  have habove : above key (key last) rest = rest := by
    apply List.filter_eq_self.mpr
    intro r hr
    exact decide_eq_true (hrest last (List.mem_append_right _ (List.mem_singleton_self _)) r hr)
  have hcursor : nextCursor key cursor (front.concat last) = key last := by
    simp [nextCursor]
  rw [hcursor, hcut, hrows, List.concat_eq_append, above, List.filter_append]
  exact (congrArg₂ _ hbelow habove).trans (List.nil_append rest)

theorem above_append (rows later : List α) :
    above key cursor (rows ++ later) = above key cursor rows ++ above key cursor later :=
  List.filter_append ..

end CrabbyKit.Paging

/-!
# Listings in pages, and work in batches

A listing returns the first entries after a cursor, and is asked again until nothing is left: all
pages together are all entries, whatever the sizes of the pages. A loop over slices does what a
loop over the entries does.
-/

namespace CrabbyKit.Paging

variable {α σ : Type*}

/-- How many entries a page may hold: at least one, and as many as are asked for at most. -/
structure Pages (α : Type*) where
  served : Option α → ℕ+ → ℕ+
  served_le : ∀ cursor limit, served cursor limit ≤ limit

/-- Pages as large as they are asked for. -/
def Pages.full : Pages α := ⟨fun _ limit => limit, fun _ _ => le_rfl⟩

/-- A page: its entries, whether some are left, and the cursor of the next page. -/
structure Listing (α : Type*) where
  objects : List α
  truncated : Bool
  cursor : Option α

/-- The cursor of the next page, when there is one. -/
def Listing.next (listing : Listing α) : Option α :=
  if listing.truncated then listing.cursor else none

section Order

variable [LinearOrder α]

def after (entries : List α) (cursor : Option α) : List α :=
  entries.filter fun entry => cursor.all (· < entry)

/-- A page, whose cursor is its last entry. -/
def list (pages : Pages α) (entries : List α) (cursor : Option α) (limit : ℕ+) : Listing α :=
  let rest := after entries cursor
  let page := rest.take (pages.served cursor limit)
  ⟨page, pages.served cursor limit < rest.length, page.getLast?⟩

variable {entries : List α} {cursor : Option α}

theorem mem_after {entry : α} :
    entry ∈ after entries cursor ↔ entry ∈ entries ∧ ∀ c, cursor = some c → c < entry := by
  cases cursor <;> simp [after]

theorem after_none (entries : List α) : after entries none = entries := by
  rw [after, List.filter_eq_self]
  exact fun _ _ => rfl

variable {last : α}

theorem after_some (h : last ∈ after entries cursor) :
    after entries (some last) = (after entries cursor).filter (last < ·) := by
  rw [after, after, List.filter_filter]
  refine List.filter_congr fun entry _ => ?_
  have later := (mem_after.mp h).2
  cases cursor with
  | none => simp
  | some c => simpa using fun lt => (later c rfl).trans lt

variable {pages : Pages α}

variable {limit : ℕ+}

theorem next_list (h : (list pages entries cursor limit).next = some last) :
    ((after entries cursor).take (pages.served cursor limit)).getLast? = some last := by
  unfold list Listing.next at h
  split at h
  · exact h
  · cases h

theorem length_after_next (h : (list pages entries cursor limit).next = some last) :
    (after entries (some last)).length < (after entries cursor).length := by
  have mem := List.mem_of_mem_take (List.mem_of_getLast? (next_list h))
  rw [after_some mem, List.length_filter_lt_length_iff_exists]
  exact ⟨last, mem, by simp⟩

def collect (pages : Pages α) (entries : List α) (limit : ℕ+) (cursor : Option α)
    (keys : List α) : List α :=
  let result := list pages entries cursor limit
  match _ : result.next with
  | none => keys ++ result.objects
  | some next => collect pages entries limit (some next) (keys ++ result.objects)
termination_by (after entries cursor).length
decreasing_by exact length_after_next ‹_›

theorem after_next (sorted : entries.Pairwise (· < ·))
    (h : (list pages entries cursor limit).next = some last) :
    after entries (some last) = (after entries cursor).drop (pages.served cursor limit) := by
  have last_eq := next_list h
  rw [after_some (List.mem_of_mem_take (List.mem_of_getLast? last_eq))]
  obtain ⟨init, page⟩ := List.getLast?_eq_some_iff.mp last_eq
  have split := List.take_append_drop (pages.served cursor limit) (after entries cursor)
  rw [page] at split
  have order : (after entries cursor).Pairwise (· < ·) := sorted.filter _
  rw [← split, List.append_assoc, List.pairwise_append, List.singleton_append,
    List.pairwise_cons] at order
  obtain ⟨-, ⟨later, -⟩, earlier⟩ := order
  conv_lhs => rw [← split]
  rw [List.append_assoc, List.filter_append, List.singleton_append,
    List.filter_cons_of_neg (by simp), List.filter_eq_nil_iff.mpr, List.nil_append,
    List.filter_eq_self]
  · exact fun entry mem => decide_eq_true (later entry mem)
  · intro entry mem lt
    exact lt_asymm (of_decide_eq_true lt) (earlier entry mem last List.mem_cons_self)

theorem objects_of_last (h : (list pages entries cursor limit).next = none) :
    (list pages entries cursor limit).objects = after entries cursor := by
  unfold list Listing.next at h
  split at h
  · have page := List.getLast?_eq_none_iff.mp h
    rcases List.take_eq_nil_iff.mp page with zero | nil
    · exact absurd zero (pages.served cursor limit).ne_zero
    · rw [list, nil, List.take_nil]
  · next whole =>
    refine List.take_of_length_le ?_
    simpa using whole

theorem collect_eq (pages : Pages α) (sorted : entries.Pairwise (· < ·))
    (limit : ℕ+) (cursor : Option α) (keys : List α) :
    collect pages entries limit cursor keys = keys ++ after entries cursor := by
  fun_induction collect pages entries limit cursor keys with
  | case1 cursor keys result last => rw [objects_of_last last]
  | case2 cursor keys result next h ih =>
    rw [ih, after_next sorted h, List.append_assoc]
    exact congrArg _ (List.take_append_drop _ _)

end Order

/-- The loop over the slices of a list. -/
def inBatches (size : ℕ+) (step : σ → List α → σ) (keys : List α) (i : Nat) (state : σ) : σ :=
  if i < keys.length then
    inBatches size step keys (i + size) (step state ((keys.drop i).take size))
  else state
termination_by keys.length - i
decreasing_by
  have := size.pos
  omega

theorem inBatches_foldl (size : ℕ+) (f : σ → α → σ) (keys : List α) (i : Nat) (state : σ) :
    inBatches size (fun state batch => batch.foldl f state) keys i state =
      (keys.drop i).foldl f state := by
  induction i, state using inBatches.induct size (fun state batch => batch.foldl f state) keys with
  | case1 i state more ih =>
    rw [inBatches, if_pos more, ih, ← List.foldl_append, ← List.drop_drop, List.take_append_drop]
  | case2 i state done =>
    rw [inBatches, if_neg done, List.drop_eq_nil_of_le (by omega), List.foldl_nil]

end CrabbyKit.Paging
