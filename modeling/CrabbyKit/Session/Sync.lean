import CrabbyKit.Core.Listing
import CrabbyKit.Session.Invariant

/-!
# Paged sync

A client reads a session page by page: it asks for the entries after the last `seq` it
received until the store says there are no more. Between two pages other calls may run
on the store. The pages of one such reading are the session's entries, in order.
-/

namespace CrabbyKit

open List

/-- The options of `getEntriesPaginated`. -/
structure PageOptions where
  limit : Option Nat := none
  afterSeq : Option Nat := none
  deriving DecidableEq, Repr

/-- The result of `getEntriesPaginated`. -/
structure EntryPage where
  entries : List SessionEntry
  hasMore : Bool
  deriving DecidableEq, Repr

/-- The operation deletes no entry. -/
def StoreOp.KeepsEntries : StoreOp → Prop
  | .gc _ => False
  | .delete _ => False
  | _ => True

instance : DecidablePred StoreOp.KeepsEntries := fun op => by
  cases op <;> first | exact isTrue trivial | exact isFalse not_false

namespace SessionStore

def defaultPageLimit : Nat := 100

def getEntriesPaginated (st : SessionStore) (sessionId : String) (options : PageOptions) :
    EntryPage :=
  let limit := options.limit.getD defaultPageLimit
  let afterSeq := options.afterSeq.getD 0
  let selected := st.entries.filter fun e => e.sessionId = sessionId ∧ afterSeq < e.seq
  -- One extra row is fetched to determine whether there are more.
  let rows := (selected.insertionSort fun a b => a.seq ≤ b.seq).take (limit + 1)
  let hasMore := decide (limit < rows.length)
  { entries := if hasMore then rows.take limit else rows, hasMore := hasMore }

/-- The `cursor` a sync reply carries: the last `seq` of the page, else the one asked for. -/
def pageLastSeq (entries : List SessionEntry) (afterSeq : Option Nat) : Option Nat :=
  match entries.getLast? with
  | some e => some e.seq
  | none => afterSeq

/-- Read a session to its end. Before each further page the next list of calls runs on the
store. Returns the pages and the store the last page was read from; `none` when the fuel
does not reach the last page. -/
def syncPages (sessionId : String) (limit : Option Nat) :
    Nat → List (List StoreCall) → SessionStore → Option Nat →
      Option (List (List SessionEntry) × SessionStore)
  | 0, _, _, _ => none
  | fuel + 1, between, st, afterSeq =>
    let page := st.getEntriesPaginated sessionId { limit, afterSeq }
    if page.hasMore then
      (syncPages sessionId limit fuel between.tail (Run.run exec st (between.headD []))
        (pageLastSeq page.entries afterSeq)).map fun result => (page.entries :: result.1, result.2)
    else some ([page.entries], st)

variable {st : SessionStore} {sessionId : String} {limit afterSeq : Option Nat}

/-- Every `seq` is positive. -/
def SeqPositive (st : SessionStore) : Prop := ∀ e ∈ st.entries, 0 < e.seq

theorem exec_entries (st : SessionStore) (c : StoreCall) (hkeep : c.op.KeepsEntries) :
    ∃ new, (st.exec c).entries = st.entries ++ new ∧ ∀ e ∈ new, 0 < e.seq := by
  obtain ⟨op, nanoid, now⟩ := c
  have hsame : ∀ st' : SessionStore, st'.entries = st.entries →
      ∃ new, st'.entries = st.entries ++ new ∧ ∀ e ∈ new, 0 < e.seq := by
    intro st' hentries
    exact ⟨[], by rw [hentries, append_nil], by simp⟩
  cases op with
  | create opts =>
    apply hsame
    cases hc : st.create opts nanoid now with
    | error _ => simp only [exec, hc, Except.map, after]
    | ok p =>
      obtain ⟨-, -, hst⟩ := create_ok (s := p.2) hc
      simp only [exec, hc, Except.map, after, hst]
  | appendEntry sid data =>
    cases ha : st.appendEntry sid data nanoid now with
    | error _ =>
      apply hsame
      simp only [exec, ha, Except.map, after]
    | ok p =>
      obtain ⟨s, -, -, -, hentry, hst⟩ := appendEntry_ok (e := p.2) ha
      refine ⟨[p.2], ?_, ?_⟩
      · simp only [exec, ha, Except.map, after, hst, updateSession]
      · intro e he
        rw [mem_singleton.mp he, hentry]
        exact Nat.succ_pos _
  | branch sid fromEntryId =>
    apply hsame
    cases hb : st.branch sid fromEntryId now with
    | error _ => simp only [exec, hb, after]
    | ok st' =>
      obtain ⟨_, -, -, -, _, -, hst⟩ := branch_ok hb
      simp only [exec, hb, after, hst, updateSession]
  | gc sid => exact absurd hkeep not_false
  | delete sid => exact absurd hkeep not_false
  | rename sid name => exact hsame _ rfl
  | setActiveMode sid modeId => exact hsame _ rfl

theorem run_entries (st : SessionStore) (calls : List StoreCall)
    (hkeep : ∀ c ∈ calls, c.op.KeepsEntries) :
    ∃ new, (Run.run exec st calls).entries = st.entries ++ new := by
  induction calls using List.reverseRecOn with
  | nil => exact ⟨[], (append_nil _).symm⟩
  | append_singleton calls c ih =>
    obtain ⟨new, hnew⟩ := ih fun d hd => hkeep d (mem_append_left _ hd)
    obtain ⟨more, hmore, -⟩ :=
      exec_entries (Run.run exec st calls) c (hkeep c (by simp))
    refine ⟨new ++ more, ?_⟩
    rw [Run.run_snoc, hmore, hnew, append_assoc]

/-- Every call keeps the `seq`s positive. -/
theorem SeqPositive.exec (hpos : st.SeqPositive) (hw : st.WellFormed) (c : StoreCall) :
    (st.exec c).SeqPositive := by
  intro e he
  by_cases hkeep : c.op.KeepsEntries
  · obtain ⟨new, hentries, hnew⟩ := exec_entries st c hkeep
    rw [hentries] at he
    rcases mem_append.mp he with hold | hadded
    · exact hpos e hold
    · exact hnew e hadded
  · obtain ⟨op, nanoid, now⟩ := c
    cases op with
    | gc sid =>
      cases hg : st.gc sid with
      | error _ =>
        simp only [SessionStore.exec, hg, Except.map, SessionStore.after] at he
        exact hpos e he
      | ok p =>
        obtain ⟨-, hsub, -⟩ := gc_ok (n := p.2) hw hg
        simp only [SessionStore.exec, hg, Except.map, SessionStore.after] at he
        exact hpos e (hsub.subset he)
    | delete sid => exact hpos e (mem_filter.mp he).1
    | create opts => exact absurd trivial hkeep
    | appendEntry sid data => exact absurd trivial hkeep
    | branch sid fromEntryId => exact absurd trivial hkeep
    | rename sid name => exact absurd trivial hkeep
    | setActiveMode sid modeId => exact absurd trivial hkeep

variable {calls : List StoreCall}

/-- Every `seq` of a run is positive. -/
theorem seqPositive_run (hfresh : Fresh calls) : (run calls).SeqPositive := by
  refine Run.run_induction
    (P := fun calls (st : SessionStore) => Fresh calls → st.WellFormed ∧ st.SeqPositive)
    (fun _ => ⟨wellFormed_empty, by simp [SeqPositive]⟩) (fun calls c st ih hf => ?_) calls hfresh
    |>.2
  obtain ⟨hf, -, hn⟩ := fresh_snoc.mp hf
  obtain ⟨hw, hpos⟩ := ih hf
  exact ⟨hw.exec hn, hpos.exec hw c⟩

theorem WellFormed.getEntriesPaginated_eq (hw : st.WellFormed) :
    st.getEntriesPaginated sessionId { limit, afterSeq } =
      { entries := (Paging.above SessionEntry.seq (afterSeq.getD 0)
          (st.getEntries sessionId)).take (limit.getD defaultPageLimit)
        hasMore := decide (limit.getD defaultPageLimit <
          (Paging.above SessionEntry.seq (afterSeq.getD 0)
            (st.getEntries sessionId)).length) } := by
  have hselected : (st.entries.filter fun e => e.sessionId = sessionId ∧ afterSeq.getD 0 < e.seq) =
      Paging.above SessionEntry.seq (afterSeq.getD 0) (st.getEntries sessionId) := by
    rw [hw.getEntries_eq, Paging.above, filter_filter]
    apply filter_congr
    intro e _
    rw [← Bool.decide_and]
    apply decide_eq_decide.mpr
    exact and_comm
  have hsorted : (Paging.above SessionEntry.seq (afterSeq.getD 0)
      (st.getEntries sessionId)).Pairwise fun a b => a.seq ≤ b.seq :=
    ((hw.getEntries_ordered sessionId).filter _).imp fun hlt => hlt.le
  simp only [getEntriesPaginated, hselected, hsorted.insertionSort_eq, decide_eq_true_eq,
    Paging.cut_extra]
  simp only [Paging.extra_iff]

theorem pageLastSeq_getD (entries : List SessionEntry) (afterSeq : Option Nat) :
    (pageLastSeq entries afterSeq).getD 0 =
      Paging.nextCursor SessionEntry.seq (afterSeq.getD 0) entries := by
  unfold pageLastSeq Paging.nextCursor
  cases entries.getLast? <;> rfl

theorem WellFormed.getEntries_run (hw : st.WellFormed)
    (hw' : (Run.run SessionStore.exec st calls).WellFormed)
    (hkeep : ∀ c ∈ calls, c.op.KeepsEntries) :
    ∃ new, (Run.run SessionStore.exec st calls).getEntries sessionId =
      st.getEntries sessionId ++ new := by
  obtain ⟨new, hnew⟩ := run_entries st calls hkeep
  exact ⟨new.filter fun e => e.sessionId = sessionId, by
    rw [hw'.getEntries_eq, hw.getEntries_eq, hnew, filter_append]⟩

theorem WellFormed.run (hw : st.WellFormed)
    (hnamed : ∀ c ∈ calls, c.nanoid ≠ "") : (Run.run SessionStore.exec st calls).WellFormed := by
  induction calls using List.reverseRecOn with
  | nil => exact hw
  | append_singleton calls c ih =>
    rw [Run.run_snoc]
    exact (ih fun d hd => hnamed d (mem_append_left _ hd)).exec (hnamed c (by simp))

theorem take_succ_flatten {α : Type} (lists : List (List α)) (n : Nat) :
    (lists.take (n + 1)).flatten = lists.headD [] ++ (lists.tail.take n).flatten := by
  cases lists with
  | nil => simp
  | cons first others => rfl

theorem headD_append_flatten {α : Type} (lists : List (List α)) :
    lists.headD [] ++ lists.tail.flatten = lists.flatten := by
  cases lists <;> rfl

/-- Calls that may run between two pages: they delete no entry and draw nonempty ids. -/
def Between (calls : List StoreCall) : Prop := ∀ c ∈ calls, c.op.KeepsEntries ∧ c.nanoid ≠ ""

theorem Between.take {between : List (List StoreCall)} (h : Between between.flatten) (n : Nat) :
    Between (between.take n).flatten := by
  intro c hc
  obtain ⟨calls, hcalls, hmem⟩ := mem_flatten.mp hc
  exact h c (mem_flatten.mpr ⟨calls, mem_of_mem_take hcalls, hmem⟩)

theorem WellFormed.above_split (hw : st.WellFormed)
    (hcalls : Between calls) {cursor : Nat} {page rest : List SessionEntry}
    (hpage : Paging.above SessionEntry.seq cursor (st.getEntries sessionId) = page ++ rest) :
    ∃ left, Paging.above SessionEntry.seq cursor
          ((Run.run SessionStore.exec st calls).getEntries sessionId) = page ++ left ∧
        Paging.above SessionEntry.seq (Paging.nextCursor SessionEntry.seq cursor page)
          ((Run.run SessionStore.exec st calls).getEntries sessionId) = left := by
  have hwell := hw.run fun c hc => (hcalls c hc).2
  obtain ⟨new, hnew⟩ : ∃ new, (Run.run SessionStore.exec st calls).getEntries sessionId =
      st.getEntries sessionId ++ new := hw.getEntries_run hwell fun c hc => (hcalls c hc).1
  have hall : Paging.above SessionEntry.seq cursor
      ((Run.run SessionStore.exec st calls).getEntries sessionId) =
        page ++ (rest ++ Paging.above SessionEntry.seq cursor new) := by
    rw [hnew, Paging.above_append, hpage, append_assoc]
  exact ⟨_, hall, Paging.above_nextCursor (hwell.getEntries_ordered sessionId) hall⟩

theorem WellFormed.syncPages (hw : st.WellFormed) {between : List (List StoreCall)}
    (hbetween : Between between.flatten) (hlimit : 1 ≤ limit.getD defaultPageLimit) {fuel : Nat}
    (hfuel : (Paging.above SessionEntry.seq (afterSeq.getD 0)
      ((Run.run SessionStore.exec st between.flatten).getEntries sessionId)).length < fuel) :
    ∃ first others fin,
      syncPages sessionId limit fuel between st afterSeq = some (first :: others, fin) ∧
        fin = Run.run SessionStore.exec st (between.take others.length).flatten ∧
        (first :: others).flatten =
          Paging.above SessionEntry.seq (afterSeq.getD 0) (fin.getEntries sessionId) := by
  induction fuel generalizing between st afterSeq with
  | zero => exact absurd hfuel (Nat.not_lt_zero _)
  | succ fuel ih =>
    set cursor := afterSeq.getD 0 with hcursor
    set size := limit.getD defaultPageLimit with hsize
    set rows := Paging.above SessionEntry.seq cursor (st.getEntries sessionId) with hrows
    have hpage : st.getEntriesPaginated sessionId { limit, afterSeq } = _ :=
      hw.getEntriesPaginated_eq
    rw [← hcursor, ← hsize, ← hrows] at hpage
    by_cases hmore : size < rows.length
    · -- A full page; the rest is read after the calls that come before the next page.
      have hcut : rows = rows.take size ++ rows.drop size := (take_append_drop size rows).symm
      have hnext : (pageLastSeq (rows.take size) afterSeq).getD 0 =
          Paging.nextCursor SessionEntry.seq cursor (rows.take size) := pageLastSeq_getD _ _
      have hflatten := headD_append_flatten between
      have hhead : Between (between.headD []) := fun c hc =>
        hbetween c (hflatten ▸ mem_append_left _ hc)
      have htail : Between between.tail.flatten := fun c hc =>
        hbetween c (hflatten ▸ mem_append_right _ hc)
      have hw' := hw.run fun c hc => (hhead c hc).2
      obtain ⟨left, hall, hleft⟩ := hw.above_split hbetween hcut
      have hfull : (rows.take size).length = size := by
        rw [length_take]
        omega
      rw [hall, length_append, hfull] at hfuel
      have hrest : (Paging.above SessionEntry.seq
          ((pageLastSeq (rows.take size) afterSeq).getD 0) ((Run.run SessionStore.exec
            (Run.run SessionStore.exec st (between.headD [])) between.tail.flatten).getEntries
              sessionId)).length < fuel := by
        rw [← Run.run_append, hflatten, hnext, hleft]
        omega
      obtain ⟨first, others, fin, hrun, hfin, hpages⟩ := ih hw' htail hrest
      have hcalls : fin = Run.run SessionStore.exec st
          (between.take (first :: others).length).flatten := by
        rw [length_cons, take_succ_flatten, Run.run_append, hfin]
      refine ⟨rows.take size, first :: others, fin, ?_, hcalls, ?_⟩
      · simp only [SessionStore.syncPages, hpage, hmore, decide_true, if_true, hrun,
          Option.map_some]
      · obtain ⟨left, hall, hleft⟩ := hw.above_split (hbetween.take (first :: others).length) hcut
        rw [flatten_cons, hpages, hnext, hcalls, hall, hleft]
    · -- The last page holds everything above the cursor.
      refine ⟨rows.take size, [], st, ?_, ?_, ?_⟩
      · simp only [SessionStore.syncPages, hpage, hmore, decide_false, Bool.false_eq_true, if_false]
      · simp
      · rw [flatten_cons, flatten_nil, append_nil, take_of_length_le (Nat.le_of_not_lt hmore)]

theorem above_zero (hpos : st.SeqPositive) :
    Paging.above SessionEntry.seq 0 (st.getEntries sessionId) = st.getEntries sessionId := by
  apply List.filter_eq_self.mpr
  intro e he
  exact decide_eq_true (hpos e (mem_getEntries.mp he).1)

/-- Paged sync is complete. Whatever page limit a client asks for, and whatever calls that
delete no entry run between its pages, reading a session of any store a run produces comes
to an end, and the pages together are every entry of the session once, in `seq` order. -/
theorem syncPages_complete {calls : List StoreCall} {between : List (List StoreCall)}
    (hfresh : Fresh (calls ++ between.flatten))
    (hkeep : ∀ c ∈ between.flatten, c.op.KeepsEntries) (sessionId : String) {limit : Option Nat}
    (hlimit : ∀ n, limit = some n → 1 ≤ n) {fuel : Nat}
    (hfuel : (run (calls ++ between.flatten)).entries.length < fuel) :
    ∃ pages fin, syncPages sessionId limit fuel between (run calls) none = some (pages, fin) ∧
      fin = run (calls ++ (between.take (pages.length - 1)).flatten) ∧
      (pages.flatten.Pairwise fun a b => a.seq < b.seq) ∧
      ∀ e, e ∈ pages.flatten ↔ e ∈ fin.entries ∧ e.sessionId = sessionId := by
  have hcalls := hfresh.front
  have hbetween : Between between.flatten := by
    intro c hc
    refine ⟨hkeep c hc, fun hempty => hfresh.2 ?_⟩
    rw [← hempty]
    exact mem_map_of_mem (mem_append_right _ hc)
  have hsize : 1 ≤ limit.getD defaultPageLimit := by
    cases limit with
    | none => exact Nat.le_add_left 1 99
    | some n => exact hlimit n rfl
  have hrun : ∀ more, run (calls ++ more) = Run.run exec (run calls) more :=
    fun more => Run.run_append exec {} calls more
  have hbound : (Paging.above SessionEntry.seq 0
      ((run (calls ++ between.flatten)).getEntries sessionId)).length < fuel := by
    apply Nat.lt_of_le_of_lt _ hfuel
    rw [(wellFormed_run hfresh).getEntries_eq]
    exact (length_filter_le _ _).trans (length_filter_le _ _)
  rw [hrun] at hbound
  obtain ⟨first, others, fin, hsync, hfin, hpages⟩ :=
    @WellFormed.syncPages (run calls) sessionId limit none (wellFormed_run hcalls) between
      hbetween hsize fuel hbound
  refine ⟨first :: others, fin, hsync, by rw [hrun, hfin]; rfl, ?_⟩
  have hreached : Fresh (calls ++ (between.take others.length).flatten) := by
    refine @Fresh.front _ (between.drop others.length).flatten ?_
    rwa [append_assoc, ← flatten_append, take_append_drop]
  rw [← hrun] at hfin
  have hwell : fin.WellFormed := hfin ▸ wellFormed_run hreached
  have hpos : fin.SeqPositive := hfin ▸ seqPositive_run hreached
  have hall : (first :: others).flatten = fin.getEntries sessionId :=
    hpages.trans (above_zero hpos)
  rw [hall]
  exact ⟨hwell.getEntries_ordered sessionId, fun e => mem_getEntries⟩

def appendCustom (sessionId nanoid : String) (now : Instant) : StoreCall :=
  ⟨.appendEntry sessionId (.custom "note" "null"), nanoid, now⟩

/-- Three entries read two at a time, with a fourth appended between the pages. -/
theorem syncPages_complete_twoAtATime :
    ∃ pages fin, syncPages "s" (some 2) 5 [[appendCustom "s" "e4" 4]]
        (run [⟨.create {}, "s", 0⟩, appendCustom "s" "e1" 1, appendCustom "s" "e2" 2,
          appendCustom "s" "e3" 3]) none = some (pages, fin) ∧
      fin = run ([⟨.create {}, "s", 0⟩, appendCustom "s" "e1" 1, appendCustom "s" "e2" 2,
        appendCustom "s" "e3" 3] ++
          ([[appendCustom "s" "e4" 4]].take (pages.length - 1)).flatten) ∧
      (pages.flatten.Pairwise fun a b => a.seq < b.seq) ∧
      ∀ e, e ∈ pages.flatten ↔ e ∈ fin.entries ∧ e.sessionId = "s" :=
  syncPages_complete (by decide) (by decide) "s" (by decide) (by decide)

/-- The two pages. -/
example : (syncPages "s" (some 2) 5 [[appendCustom "s" "e4" 4]]
    (run [⟨.create {}, "s", 0⟩, appendCustom "s" "e1" 1, appendCustom "s" "e2" 2,
      appendCustom "s" "e3" 3]) none).map (fun r => r.1.map (List.map SessionEntry.seq)) =
    some [[1, 2], [3, 4]] := by decide

end SessionStore

end CrabbyKit
