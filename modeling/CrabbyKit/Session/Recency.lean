import CrabbyKit.Core.Listing
import CrabbyKit.Session.Invariant

/-!
# The order of the session list

`updated_at` is a text column. `appendEntry` writes it as an ISO string, every other operation
as SQL's `datetime('now')`, and the session list is ordered by the text. Beside the store a
timeline keeps the clock time of each session's last operation. A listing shows the sessions by
that time exactly when no `datetime('now')` meets a text of its day that it does not sort after.
-/

namespace CrabbyKit

open List Option

/-- The store, and for each session the time of the last operation on it. -/
structure Timeline where
  store : SessionStore := {}
  lastOperation : String → Instant := fun _ => 0

namespace SessionStore

/-- The session whose `updated_at` a call writes: the one it names or creates, if the call
returns and the session is there. -/
def touched (st : SessionStore) (c : StoreCall) : Option String :=
  match c.op with
  | .create opts => if (st.create opts c.nanoid c.now).isOk then some c.nanoid else none
  | .appendEntry sessionId data =>
    if (st.appendEntry sessionId data c.nanoid c.now).isOk then some sessionId else none
  | .branch sessionId fromEntryId =>
    if (st.branch sessionId fromEntryId c.now).isOk ∧ (st.get sessionId).isSome then some sessionId
    else none
  | .rename sessionId _ => if (st.get sessionId).isSome then some sessionId else none
  | .setActiveMode sessionId _ => if (st.get sessionId).isSome then some sessionId else none
  | .gc _ => none
  | .delete _ => none

end SessionStore

/-- The call writes `updated_at` with `datetime('now')`. -/
def StoreOp.WritesDatetime : StoreOp → Prop
  | .appendEntry _ _ => False
  | _ => True

/-- The text a call writes to `updated_at`. -/
def StoreCall.written (c : StoreCall) : Stamp :=
  match c.op with
  | .appendEntry _ _ => toISOString c.now
  | _ => datetimeNow c.now

namespace Timeline

def step (s : Timeline) (c : StoreCall) : Timeline where
  store := s.store.exec c
  lastOperation :=
    match s.store.touched c with
    | some sessionId => Function.update s.lastOperation sessionId c.now
    | none => s.lastOperation

def run (calls : List StoreCall) : Timeline := Run.run step {} calls

/-- `ORDER BY updated_at DESC` on two rows. -/
def updatedBefore (a b : Session) : Bool := b.updatedAt.le a.updatedAt

/-- Every listing the query may return has the sessions by their last operation, the most
recent first. -/
def RecentFirst (s : Timeline) : Prop :=
  ∀ listed, Listing.IsListing updatedBefore s.store.sessions listed →
    listed.Pairwise fun a b => s.lastOperation b.id < s.lastOperation a.id

/-- What a call writes with `datetime('now')` is not the text of another session, and no other
session has an ISO string of the same day. -/
def Distinguishable (s : Timeline) (c : StoreCall) : Prop :=
  c.op.WritesDatetime → ∀ sessionId, s.store.touched c = some sessionId →
    ∀ other ∈ s.store.sessions, other.id ≠ sessionId →
      other.updatedAt ≠ datetimeNow c.now ∧
        (other.updatedAt.iso = true → other.updatedAt.day ≠ (datetimeNow c.now).day)

end Timeline

namespace Stamp

/-- A text an operation writes at a time. -/
def WrittenAt (stamp : Stamp) (time : Instant) : Prop :=
  stamp = toISOString time ∨ stamp = datetimeNow time

theorem le_of_day_ne {a b : Stamp} (h : a.day ≠ b.day) : a.le b = decide (a.day < b.day) := by
  rw [Stamp.le, if_neg h]

variable {stamp : Stamp} {time now : Int}

theorem le_of_later_day {a : Stamp} (ha : a.day = now / dayMillis)
    (hstamp : stamp.day = time / dayMillis) (hlt : time < now) (hday : a.day ≠ stamp.day) :
    a.le stamp = false := by
  rw [le_of_day_ne hday]
  apply decide_eq_false
  rw [ha, hstamp] at hday ⊢
  unfold dayMillis at hday ⊢
  omega

theorem WrittenAt.day (h : stamp.WrittenAt time) : stamp.day = time / dayMillis := by
  rcases h with rfl | rfl <;> rfl

theorem le_toISOString (h : stamp.WrittenAt time)
    (hlt : time < now) : (toISOString now).le stamp = false := by
  by_cases hday : (toISOString now).day = stamp.day
  · rw [Stamp.le, if_pos hday]
    rcases h with rfl | rfl
    · rw [if_pos (show (toISOString now).iso = (toISOString time).iso from rfl)]
      apply decide_eq_false
      simp only [toISOString, dayMillis] at hday ⊢
      omega
    · rfl
  · exact le_of_later_day rfl h.day hlt hday

/-- A `datetime('now')` sorts after a text written before it unless that is an ISO string of
the same day or the same text. -/
theorem le_datetimeNow (h : stamp.WrittenAt time) (hlt : time < now) :
    (datetimeNow now).le stamp = false ↔
      stamp ≠ datetimeNow now ∧ (stamp.iso = true → stamp.day ≠ (datetimeNow now).day) := by
  by_cases hday : (datetimeNow now).day = stamp.day
  · rw [Stamp.le, if_pos hday]
    rcases h with rfl | rfl
    · -- The blank of SQL sorts before the `T` of an ISO string.
      exact iff_of_false Bool.noConfusion fun h => h.2 rfl hday.symm
    · rw [if_pos (show (datetimeNow now).iso = (datetimeNow time).iso from rfl),
        decide_eq_false_iff_not]
      simp only [datetimeNow, dayMillis, ne_eq, Stamp.mk.injEq, Bool.false_eq_true,
        false_implies, and_true, true_and] at hday ⊢
      omega
  · refine iff_of_true (le_of_later_day rfl h.day hlt hday) ⟨?_, fun _ => Ne.symm hday⟩
    rintro rfl
    exact hday rfl

end Stamp

namespace SessionStore

variable {st st' : SessionStore} {sessionId : String} {c : StoreCall}

/-- What a call that touches a session leaves: a row of the session with the written text, and
the rows of the other sessions. -/
structure Touches (st st' : SessionStore) (sessionId : String) (stamp : Stamp) : Prop where
  row : ∃ row ∈ st'.sessions, row.id = sessionId ∧ row.updatedAt = stamp
  others : ∀ s : Session, s.id ≠ sessionId → (s ∈ st'.sessions ↔ s ∈ st.sessions)

theorem touches_updateSession {s : Session} (hget : st.get sessionId = some s)
    {f : Session → Session} (hid : ∀ s, (f s).id = s.id) {stamp : Stamp}
    (hstamp : ∀ s, (f s).updatedAt = stamp) :
    Touches st (st.updateSession sessionId f) sessionId stamp where
  row := by
    obtain ⟨hs, hsid⟩ := Table.mem_of_lookup hget
    exact ⟨f s, Table.mem_modify.mpr ⟨s, hs, if_pos hsid⟩, (hid s).trans hsid, hstamp s⟩
  others := by
    intro q hq
    rw [updateSession, Table.mem_modify]
    constructor
    · rintro ⟨r, hr, rfl⟩
      by_cases hk : r.id = sessionId
      · rw [if_pos hk, hid] at hq
        exact absurd hk hq
      · rwa [if_neg hk]
    · exact fun hmem => ⟨q, hmem, if_neg hq⟩

theorem updateSession_of_none (hget : st.get sessionId = none) (f : Session → Session) :
    st.updateSession sessionId f = st := by
  have hsame : Table.modify Session.id sessionId f st.sessions = st.sessions := by
    apply (map_congr_left _).trans (map_id _)
    intro s hs
    exact if_neg (Table.lookup_eq_none.mp hget s hs)
  rw [updateSession, hsame]

theorem touches_of_touched (htouched : st.touched c = some sessionId) :
    Touches st (st.exec c) sessionId c.written := by
  obtain ⟨op, nanoid, now⟩ := c
  cases op with
  | create opts =>
    cases hc : st.create opts nanoid now with
    | error _ =>
      simp only [touched, hc] at htouched
      cases htouched
    | ok p =>
      obtain ⟨-, -, hst⟩ := create_ok (s := p.2) hc
      simp only [touched, hc] at htouched
      obtain rfl : nanoid = sessionId := Option.some.inj htouched
      simp only [exec, hc, Except.map, after, hst]
      refine ⟨⟨newSession opts nanoid now, mem_append_right _ (mem_singleton_self _), rfl,
        rfl⟩, fun s hs => ?_⟩
      rw [mem_append, mem_singleton, or_iff_left]
      rintro rfl
      exact hs rfl
  | appendEntry sid data =>
    cases ha : st.appendEntry sid data nanoid now with
    | error _ =>
      simp only [touched, ha] at htouched
      cases htouched
    | ok p =>
      obtain ⟨s, hget, -, -, -, hst⟩ := appendEntry_ok (e := p.2) ha
      simp only [touched, ha] at htouched
      obtain rfl : sid = sessionId := Option.some.inj htouched
      simp only [exec, ha, Except.map, after, hst]
      have htouches : Touches st (st.updateSession sid (advanceLeaf nanoid data now)) sid
          (toISOString now) :=
        touches_updateSession hget (advanceLeaf_id nanoid data now) fun s => by cases data <;> rfl
      exact ⟨htouches.row, htouches.others⟩
  | branch sid fromEntryId =>
    cases hb : st.branch sid fromEntryId now with
    | error _ =>
      simp only [touched, hb] at htouched
      split_ifs at htouched with hok
      exact absurd hok.1 Bool.false_ne_true
    | ok st' =>
      obtain ⟨_, -, -, -, mode, -, hst⟩ := branch_ok hb
      simp only [touched, hb] at htouched
      split_ifs at htouched with hok
      obtain rfl : sid = sessionId := Option.some.inj htouched
      obtain ⟨s, hget⟩ := isSome_iff_exists.mp hok.2
      simp only [exec, hb, after, hst]
      exact touches_updateSession hget (branchRow_id fromEntryId mode now) fun _ => rfl
  | rename sid name =>
    simp only [touched] at htouched
    split_ifs at htouched with hsome
    obtain rfl : sid = sessionId := Option.some.inj htouched
    obtain ⟨s, hget⟩ := isSome_iff_exists.mp hsome
    exact touches_updateSession hget (f := fun s => { s with name, updatedAt := datetimeNow now })
      (fun _ => rfl) fun _ => rfl
  | setActiveMode sid modeId =>
    simp only [touched] at htouched
    split_ifs at htouched with hsome
    obtain rfl : sid = sessionId := Option.some.inj htouched
    obtain ⟨s, hget⟩ := isSome_iff_exists.mp hsome
    exact touches_updateSession hget
      (f := fun s => { s with activeModeId := modeId, updatedAt := datetimeNow now })
      (fun _ => rfl) fun _ => rfl
  | gc sid => cases htouched
  | delete sid => cases htouched

theorem sessions_of_untouched (hw : st.WellFormed) (htouched : st.touched c = none) :
    ∀ s ∈ (st.exec c).sessions, s ∈ st.sessions := by
  obtain ⟨op, nanoid, now⟩ := c
  cases op with
  | create opts =>
    cases hc : st.create opts nanoid now with
    | error _ =>
      simp only [exec, hc, Except.map, after]
      exact fun s hs => hs
    | ok p =>
      simp only [touched, hc] at htouched
      cases htouched
  | appendEntry sid data =>
    cases ha : st.appendEntry sid data nanoid now with
    | error _ =>
      simp only [exec, ha, Except.map, after]
      exact fun s hs => hs
    | ok p =>
      simp only [touched, ha] at htouched
      cases htouched
  | branch sid fromEntryId =>
    cases hb : st.branch sid fromEntryId now with
    | error _ =>
      simp only [exec, hb, after]
      exact fun s hs => hs
    | ok st' =>
      obtain ⟨_, -, -, -, mode, -, hst⟩ := branch_ok hb
      simp only [touched, hb] at htouched
      split_ifs at htouched with hok
      have hget : st.get sid = none := by
        apply not_isSome_iff_eq_none.mp
        exact fun hsome => hok ⟨rfl, hsome⟩
      simp only [exec, hb, after, hst, updateSession_of_none hget]
      exact fun s hs => hs
  | rename sid name =>
    simp only [touched] at htouched
    split_ifs at htouched with hsome
    have hsame : st.exec ⟨.rename sid name, nanoid, now⟩ = st :=
      updateSession_of_none (not_isSome_iff_eq_none.mp hsome) _
    rw [hsame]
    exact fun s hs => hs
  | setActiveMode sid modeId =>
    simp only [touched] at htouched
    split_ifs at htouched with hsome
    have hsame : st.exec ⟨.setActiveMode sid modeId, nanoid, now⟩ = st :=
      updateSession_of_none (not_isSome_iff_eq_none.mp hsome) _
    rw [hsame]
    exact fun s hs => hs
  | gc sid =>
    cases hg : st.gc sid with
    | error _ =>
      simp only [exec, hg, Except.map, after]
      exact fun s hs => hs
    | ok p =>
      obtain ⟨hsessions, -⟩ := gc_ok (n := p.2) hw hg
      simp only [exec, hg, Except.map, after, hsessions]
      exact fun s hs => hs
  | delete sid => exact fun s hs => (mem_filter.mp hs).1

end SessionStore

theorem StoreCall.written_cases (c : StoreCall) :
    (¬c.op.WritesDatetime ∧ c.written = toISOString c.now) ∨
      (c.op.WritesDatetime ∧ c.written = datetimeNow c.now) := by
  obtain ⟨op, nanoid, now⟩ := c
  cases op with
  | appendEntry sid data => exact .inl ⟨not_false, rfl⟩
  | create opts => exact .inr ⟨trivial, rfl⟩
  | branch sid fromEntryId => exact .inr ⟨trivial, rfl⟩
  | gc sid => exact .inr ⟨trivial, rfl⟩
  | delete sid => exact .inr ⟨trivial, rfl⟩
  | rename sid name => exact .inr ⟨trivial, rfl⟩
  | setActiveMode sid modeId => exact .inr ⟨trivial, rfl⟩

theorem StoreCall.written_le {c : StoreCall} {stamp : Stamp} {time : Int}
    (h : stamp.WrittenAt time) (hlt : time < c.now) :
    c.written.le stamp = false ↔
      (c.op.WritesDatetime → stamp ≠ datetimeNow c.now ∧
        (stamp.iso = true → stamp.day ≠ (datetimeNow c.now).day)) := by
  rcases c.written_cases with ⟨hiso, hwritten⟩ | ⟨hsql, hwritten⟩
  · rw [hwritten]
    exact iff_of_true (Stamp.le_toISOString h hlt) fun hf => absurd hf hiso
  · rw [hwritten, Stamp.le_datetimeNow h hlt]
    exact ⟨fun happart _ => happart, fun happart => happart hsql⟩

namespace Timeline

variable {s : Timeline} {c : StoreCall}

/-- Every text was written at the time of its session's last operation. -/
def Stamped (s : Timeline) : Prop :=
  ∀ row ∈ s.store.sessions, row.updatedAt.WrittenAt (s.lastOperation row.id)

/-- Every last operation came before a time. -/
def Before (s : Timeline) (now : Instant) : Prop :=
  ∀ row ∈ s.store.sessions, s.lastOperation row.id < now

variable {sessionId : String}

theorem step_lastOperation_self (h : s.store.touched c = some sessionId) :
    (s.step c).lastOperation sessionId = c.now := by
  simp [step, h]

theorem step_lastOperation_other {other : String}
    (h : s.store.touched c = some sessionId) (hother : other ≠ sessionId) :
    (s.step c).lastOperation other = s.lastOperation other := by
  simp [step, h, hother]

theorem step_lastOperation_none (h : s.store.touched c = none) :
    (s.step c).lastOperation = s.lastOperation := by
  simp [step, h]

theorem step_row (hw : s.store.WellFormed) {row : Session}
    (hnodup : ((s.step c).store.sessions.map Session.id).Nodup)
    (hrow : row ∈ (s.step c).store.sessions) :
    (row ∈ s.store.sessions ∧ s.store.touched c ≠ some row.id ∧
        (s.step c).lastOperation row.id = s.lastOperation row.id) ∨
      (s.store.touched c = some row.id ∧ row.updatedAt = c.written ∧
        (s.step c).lastOperation row.id = c.now) := by
  cases htouched : s.store.touched c with
  | none =>
    refine .inl ⟨SessionStore.sessions_of_untouched hw htouched row hrow, by simp, ?_⟩
    rw [step_lastOperation_none htouched]
  | some sessionId =>
    have htouches := SessionStore.touches_of_touched htouched
    by_cases hid : row.id = sessionId
    · obtain ⟨written, hwritten, hwid, hstamp⟩ := htouches.row
      have hsame : row = written := Table.eq_of_key hnodup hrow hwritten (hid.trans hwid.symm)
      refine .inr ⟨by rw [hid], by rw [hsame, hstamp], ?_⟩
      rw [hid]
      exact step_lastOperation_self htouched
    · refine .inl ⟨(htouches.others row hid).mp hrow, ?_, step_lastOperation_other htouched hid⟩
      exact fun heq => hid (Option.some.inj heq).symm

theorem Stamped.step (h : s.Stamped) (hw : s.store.WellFormed)
    (hnodup : ((s.step c).store.sessions.map Session.id).Nodup) : (s.step c).Stamped := by
  intro row hrow
  rcases step_row hw hnodup hrow with ⟨hold, -, htime⟩ | ⟨-, hstamp, htime⟩
  · rw [htime]
    exact h row hold
  · rw [htime, hstamp]
    exact c.written_cases.imp And.right And.right

theorem Before.step (h : s.Before c.now) (hw : s.store.WellFormed)
    (hnodup : ((s.step c).store.sessions.map Session.id).Nodup) {now : Int} (hnow : c.now < now) :
    (s.step c).Before now := by
  intro row hrow
  rcases step_row hw hnodup hrow with ⟨hold, -, htime⟩ | ⟨-, -, htime⟩
  · rw [htime]
    exact lt_trans (h row hold) hnow
  · rwa [htime]

theorem updatedBefore_total (a b : Session) : (updatedBefore a b || updatedBefore b a) = true :=
  Stamp.le_total b.updatedAt a.updatedAt

theorem updatedBefore_trans (a b c : Session) (hab : updatedBefore a b = true)
    (hbc : updatedBefore b c = true) : updatedBefore a c = true :=
  Stamp.le_trans hbc hab

theorem recentFirst_iff (hnodup : (s.store.sessions.map Session.id).Nodup) :
    s.RecentFirst ↔ ∀ a ∈ s.store.sessions, ∀ b ∈ s.store.sessions, a ≠ b →
      updatedBefore a b = true → s.lastOperation b.id < s.lastOperation a.id :=
  Listing.forall_listing_iff updatedBefore_total updatedBefore_trans hnodup.of_map

theorem recentFirst_step (hw : s.store.WellFormed) (hw' : (s.step c).store.WellFormed)
    (hstamped : s.Stamped) (hbefore : s.Before c.now) (hrecent : s.RecentFirst) :
    (s.step c).RecentFirst ↔ s.Distinguishable c := by
  rw [recentFirst_iff hw.sessionIds] at hrecent
  rw [recentFirst_iff hw'.sessionIds]
  constructor
  · intro hafter hdatetime sessionId htouched other hother hne
    have htouches := SessionStore.touches_of_touched htouched
    obtain ⟨row, hrow, hid, hstamp⟩ := htouches.row
    refine (StoreCall.written_le (hstamped other hother) (hbefore other hother)).mp ?_ hdatetime
    by_contra hle
    -- The text does not sort after the other one, so some listing has the other session first.
    have hfirst := hafter other ((htouches.others other hne).mpr hother) row hrow
      (by rintro rfl; exact hne hid) (by rw [updatedBefore, hstamp]; simpa using hle)
    rw [hid, step_lastOperation_self htouched, step_lastOperation_other htouched hne] at hfirst
    exact lt_asymm hfirst (hbefore other hother)
  · intro hdistinguishable a ha b hb hne hle
    rcases step_row hw hw'.sessionIds ha with ⟨hold, huntouched, htime⟩ | ⟨htouched, hstamp, htime⟩
    · rcases step_row hw hw'.sessionIds hb with
        ⟨hold', -, htime'⟩ | ⟨htouched', hstamp', htime'⟩
      · rw [htime, htime']
        exact hrecent a hold b hold' hne hle
      · have hids : a.id ≠ b.id := by
          intro heq
          rw [heq] at huntouched
          exact huntouched htouched'
        have hafter := (StoreCall.written_le (hstamped a hold) (hbefore a hold)).mpr
          fun hdatetime => hdistinguishable hdatetime b.id htouched' a hold hids
        rw [updatedBefore, hstamp', hafter] at hle
        cases hle
    · rcases step_row hw hw'.sessionIds hb with ⟨hold', -, htime'⟩ | ⟨htouched', -, -⟩
      · rw [htime, htime']
        exact hbefore b hold'
      · have hids : a.id = b.id := Option.some.inj (htouched.symm.trans htouched')
        exact absurd (Table.eq_of_key hw'.sessionIds ha hb hids) hne

@[simp] theorem run_snoc (calls : List StoreCall) (c : StoreCall) :
    run (calls ++ [c]) = (run calls).step c := Run.run_snoc step {} calls c

theorem run_store (calls : List StoreCall) : (run calls).store = SessionStore.run calls := by
  induction calls using List.reverseRecOn with
  | nil => rfl
  | append_singleton calls c ih =>
    rw [run_snoc, SessionStore.run, Run.run_snoc, ← SessionStore.run, ← ih]
    rfl

variable {calls : List StoreCall}

theorem wellFormed_run (h : SessionStore.Fresh calls) : (run calls).store.WellFormed :=
  run_store calls ▸ SessionStore.wellFormed_run h

theorem stamped_run (hfresh : SessionStore.Fresh calls)
    (hclock : calls.Pairwise fun a b => a.now < b.now) :
    (run calls).Stamped ∧ ∀ now, (∀ c ∈ calls, c.now < now) → (run calls).Before now := by
  induction calls using List.reverseRecOn with
  | nil =>
    refine ⟨fun row hrow => ?_, fun now _ row hrow => ?_⟩ <;> cases hrow
  | append_singleton calls c ih =>
    obtain ⟨hcalls, -, hlast⟩ := pairwise_append.mp hclock
    have hfront := (SessionStore.fresh_snoc.mp hfresh).1
    obtain ⟨hstamped, hbefore⟩ := ih hfront hcalls
    have hw := wellFormed_run hfront
    have hw' := wellFormed_run hfresh
    rw [run_snoc] at hw' ⊢
    refine ⟨hstamped.step hw hw'.sessionIds, fun now hnow => ?_⟩
    have hc : (run calls).Before c.now :=
      hbefore c.now fun d hd => hlast d hd c (mem_singleton_self _)
    exact hc.step hw hw'.sessionIds (hnow c (mem_append_right _ (mem_singleton_self _)))

/-- In every run in clock order, all listings show the sessions by their last operation exactly
when each `datetime('now')` a call writes is told apart from the texts of the other sessions:
none of them is the same text, or an ISO string of the same day. -/
theorem recentFirst_run_iff {calls : List StoreCall} (hfresh : SessionStore.Fresh calls)
    (hclock : calls.Pairwise fun a b => a.now < b.now) :
    (∀ before after, calls = before ++ after → (run before).RecentFirst) ↔
      Run.Allowed Distinguishable step {} calls := by
  have hsplit : ∀ before c after, calls = before ++ c :: after →
      ((run before).RecentFirst →
        ((run (before ++ [c])).RecentFirst ↔ (run before).Distinguishable c)) := by
    rintro before c after rfl hrecent
    rw [← singleton_append, ← append_assoc] at hfresh hclock
    have hnext := hfresh.front
    obtain ⟨hfront, -, -⟩ := SessionStore.fresh_snoc.mp hnext
    obtain ⟨hordered, -, -⟩ := pairwise_append.mp hclock
    obtain ⟨hbefore, -, hlast⟩ := pairwise_append.mp hordered
    obtain ⟨hstamped, htimes⟩ := stamped_run hfront hbefore
    have hw' := wellFormed_run hnext
    rw [run_snoc] at hw' ⊢
    exact recentFirst_step (wellFormed_run hfront) hw' hstamped
      (htimes c.now fun d hd => hlast d hd c (mem_singleton_self _)) hrecent
  constructor
  · intro hall before c after hcalls
    have hafter := hall (before ++ [c]) after (by rw [append_assoc]; exact hcalls)
    exact (hsplit before c after hcalls (hall before (c :: after) hcalls)).mp hafter
  · intro hallowed before
    induction before using List.reverseRecOn with
    | nil =>
      rintro - - listed ⟨hperm, -⟩
      rw [hperm.eq_nil]
      exact List.Pairwise.nil
    | append_singleton before c ih =>
      intro after hcalls
      rw [append_assoc, singleton_append] at hcalls
      exact (hsplit before c after hcalls (ih (c :: after) hcalls)).mpr
        (hallowed before c after hcalls)

/-- Two sessions; one gets an entry, and an hour later the other is renamed. -/
def renamedLast : List StoreCall :=
  [⟨.create {}, "a", 1000⟩, ⟨.create {}, "b", 2000⟩,
    ⟨.appendEntry "a" (.custom "note" "null"), "e", 3000⟩, ⟨.rename "b" "renamed", "n", 3603000⟩]

/-- The renamed session is listed last. -/
theorem list_not_recentFirst :
    ¬∀ calls : List StoreCall, SessionStore.Fresh calls →
      (calls.Pairwise fun a b => a.now < b.now) →
        (run calls).store.list.Pairwise fun a b =>
          (run calls).lastOperation b.id < (run calls).lastOperation a.id := by
  intro hrecent
  exact absurd (hrecent renamedLast (by decide) (by decide)) (by decide)

/-- Its rename is the call that is not told apart. -/
theorem recentFirst_run_iff_renamedLast :
    (∀ before after, renamedLast = before ++ after → (run before).RecentFirst) ↔
      Run.Allowed Distinguishable step {} renamedLast :=
  recentFirst_run_iff (by decide) (by decide)

end Timeline

end CrabbyKit
