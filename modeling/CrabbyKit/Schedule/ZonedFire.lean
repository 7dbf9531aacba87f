import CrabbyKit.Schedule.LeastFire
import Mathlib.Data.Int.LeastGreatest

/-!
# Fire times in a time zone

The skips are computed on the wall clock and applied to UTC. Where the offset of the zone
changes inside a skip, the search may pass over a matching minute.
-/

namespace CrabbyKit.Cron

/-- The whole minutes strictly after an instant whose local fields all match. -/
def LocalFireTimes (fields : CronFields) (offset : Int → Int) (start : Instant) : Set Instant :=
  {t | start < t ∧ ∃ m, t = m * minuteMillis ∧ Matches fields (getFields (m + offset m))}

def firstMinute (start : Instant) : Int := start / minuteMillis + 1

/-- In no span that the search skips does a change of the offset bring up a matching wall
clock. -/
def SkipsNoChange (fields : CronFields) (offset : Int → Int) (d : Int) : Prop :=
  ∀ n < maxIterations, (∀ k ≤ n, ¬ Matches fields
      (getFields (visit fields offset d k + offset (visit fields offset d k)))) →
    ∀ m, visit fields offset d n < m → m < visit fields offset d (n + 1) →
      offset m ≠ offset (visit fields offset d n) → ¬ Matches fields (getFields (m + offset m))

/-- Past the last minute that the search can visit there is nothing to find. -/
def WithinReach (fields : CronFields) (offset : Int → Int) (d : Int) : Prop :=
  (∀ n < maxIterations, ¬ Matches fields
      (getFields (visit fields offset d n + offset (visit fields offset d n)))) →
    ∀ m, visit fields offset d maxIterations ≤ m → ¬ Matches fields (getFields (m + offset m))

variable {fields : CronFields} {offset : Int → Int} {d m : Int}

theorem exists_skip {n : Nat} (hle : d ≤ m) (hlt : m < visit fields offset d n) :
    ∃ k < n, visit fields offset d k ≤ m ∧ m < visit fields offset d (k + 1) := by
  induction n with
  | zero => exact absurd hle (Int.not_le_of_gt hlt)
  | succ n ih =>
    by_cases hbefore : m < visit fields offset d n
    · obtain ⟨k, hk, hspan⟩ := ih hbefore
      exact ⟨k, Nat.lt_succ_of_lt hk, hspan⟩
    · exact ⟨n, Nat.lt_succ_self n, Int.le_of_not_gt hbefore, hlt⟩

theorem SkipsNoChange.not_matches (h : SkipsNoChange fields offset d) {n : Nat}
    (hn : n ≤ maxIterations) (hnone : ∀ k < n, ¬ Matches fields
      (getFields (visit fields offset d k + offset (visit fields offset d k))))
    (hle : d ≤ m) (hlt : m < visit fields offset d n) :
    ¬ Matches fields (getFields (m + offset m)) := by
  obtain ⟨k, hk, hfrom, hto⟩ := exists_skip hle hlt
  rcases hfrom.lt_or_eq with hinside | rfl
  · by_cases hsame : offset m = offset (visit fields offset d k)
    · have hskip : m - visit fields offset d k <
          skip fields (getFields (visit fields offset d k + offset (visit fields offset d k))) := by
        rw [visit_succ', advance] at hto
        omega
      have hskipped := not_matches_of_lt_skip (hnone k hk) (Int.sub_nonneg_of_le hfrom) hskip
      rwa [hsame, show m + offset (visit fields offset d k) =
        visit fields offset d k + offset (visit fields offset d k) +
          (m - visit fields offset d k) by omega]
    · exact h k (hk.trans_le hn) (fun j hj => hnone j (hj.trans_lt hk)) m hinside hto hsame
  · exact hnone k hk

section Zone

variable {zones : Zones} {name : String} {start t : Instant}

theorem computeNext_zone (hname : name ≠ "") (hzone : zones name = some offset) :
    computeNext zones fields start (some name) =
      match search fields offset maxIterations (firstMinute start) with
      | none => .error "Could not find next fire time within one year"
      | some d => .ok (d * minuteMillis) := by
  simp only [computeNext, zoneOffset, if_neg hname, hzone, firstMinute]
  rfl

theorem mul_minuteMillis_le {a b : Int} : a * minuteMillis ≤ b * minuteMillis ↔ a ≤ b := by
  unfold minuteMillis
  omega

theorem mul_minuteMillis_inj {a b : Int} (h : a * minuteMillis = b * minuteMillis) : a = b := by
  unfold minuteMillis at h
  omega

theorem mem_localFireTimes : m * minuteMillis ∈ LocalFireTimes fields offset start ↔
    firstMinute start ≤ m ∧ Matches fields (getFields (m + offset m)) := by
  constructor
  · rintro ⟨hlt, m', heq, h⟩
    rw [← mul_minuteMillis_inj heq] at h
    exact ⟨lt_mul_minuteMillis_iff.mp hlt, h⟩
  · rintro ⟨hle, h⟩
    exact ⟨lt_mul_minuteMillis_iff.mpr hle, m, rfl, h⟩

theorem isLeast_iff : IsLeast (LocalFireTimes fields offset start) (m * minuteMillis) ↔
    (firstMinute start ≤ m ∧ Matches fields (getFields (m + offset m))) ∧
      ∀ m', firstMinute start ≤ m' → Matches fields (getFields (m' + offset m')) → m ≤ m' := by
  rw [IsLeast, mem_localFireTimes]
  refine and_congr_right fun _ => ⟨fun h m' hle hmatch => ?_, fun h => ?_⟩
  · exact mul_minuteMillis_le.mp (h (mem_localFireTimes.mpr ⟨hle, hmatch⟩))
  · rintro _ ⟨hlt, m', rfl, hmatch⟩
    exact mul_minuteMillis_le.mpr (h m' (lt_mul_minuteMillis_iff.mp hlt) hmatch)

theorem exists_isLeast (hle : firstMinute start ≤ m)
    (hmatch : Matches fields (getFields (m + offset m))) :
    ∃ least ≤ m, IsLeast (LocalFireTimes fields offset start) (least * minuteMillis) := by
  obtain ⟨least, ⟨hleast, hfirst⟩, hmin⟩ := Int.exists_least_of_bdd
    (P := fun m' => firstMinute start ≤ m' ∧ Matches fields (getFields (m' + offset m')))
    ⟨firstMinute start, fun _ h => h.1⟩ ⟨m, hle, hmatch⟩
  exact ⟨least, hmin m ⟨hle, hmatch⟩,
    isLeast_iff.mpr ⟨⟨hleast, hfirst⟩, fun m' hle' hmatch' => hmin m' ⟨hle', hmatch'⟩⟩⟩

/-- In a time zone `computeNext` returns the least whole minute after the start whose local
fields match exactly when no skip passes over a change of the offset that brings up a match,
and what there is to find lies within the iterations. -/
theorem computeNext_zone_least_iff (hname : name ≠ "") (hzone : zones name = some offset) :
    (∀ t, computeNext zones fields start (some name) = .ok t ↔
        IsLeast (LocalFireTimes fields offset start) t) ↔
      SkipsNoChange fields offset (firstMinute start) ∧
        WithinReach fields offset (firstMinute start) := by
  rw [computeNext_zone hname hzone]
  constructor
  · intro h
    refine ⟨fun n hn hnone m hfrom hto _ hmatch => ?_, fun hnone m hle hmatch => ?_⟩
    · have hfirst : firstMinute start ≤ m :=
        Int.le_of_lt (Int.lt_of_le_of_lt (visit_mono (firstMinute start) (Nat.zero_le n)) hfrom)
      obtain ⟨least, hleast, hisLeast⟩ := exists_isLeast hfirst hmatch
      have hfound := (h _).mpr hisLeast
      cases hsearch : search fields offset maxIterations (firstMinute start) with
      | none =>
        rw [hsearch] at hfound
        cases hfound
      | some found =>
        rw [hsearch] at hfound
        obtain ⟨k, -, hvisit, hmatchk, -⟩ := search_some_iff.mp hsearch
        have hsame : found = least := mul_minuteMillis_inj (Except.ok.inj hfound)
        have hlater : n < k := by
          by_contra hnot
          refine hnone k (Nat.le_of_not_lt hnot) ?_
          rwa [hvisit]
        have hmono : visit fields offset (firstMinute start) (n + 1) ≤
            visit fields offset (firstMinute start) k :=
          visit_mono (firstMinute start) (Nat.succ_le_of_lt hlater)
        rw [hvisit, hsame] at hmono
        exact absurd (hmono.trans hleast) (Int.not_le_of_gt hto)
    · have hfirst : firstMinute start ≤ m :=
        Int.le_trans (visit_mono (firstMinute start) (Nat.zero_le maxIterations)) hle
      obtain ⟨least, -, hisLeast⟩ := exists_isLeast hfirst hmatch
      have hfound := (h _).mpr hisLeast
      rw [search_none_iff.mpr hnone] at hfound
      cases hfound
  · rintro ⟨hskips, hreach⟩ t
    cases hsearch : search fields offset maxIterations (firstMinute start) with
    | none =>
      have hnone := search_none_iff.mp hsearch
      refine iff_of_false (fun h => by cases h) ?_
      rintro ⟨⟨hlt, m, rfl, hmatch⟩, -⟩
      have hfirst : firstMinute start ≤ m := lt_mul_minuteMillis_iff.mp hlt
      by_cases hpast : visit fields offset (firstMinute start) maxIterations ≤ m
      · exact hreach hnone m hpast hmatch
      · exact hskips.not_matches le_rfl hnone hfirst (Int.lt_of_not_ge hpast) hmatch
    | some found =>
      obtain ⟨n, hn, hvisit, hmatch, hnone⟩ := search_some_iff.mp hsearch
      have hisLeast : IsLeast (LocalFireTimes fields offset start) (found * minuteMillis) := by
        refine isLeast_iff.mpr ⟨⟨search_ge hsearch, hmatch⟩, fun m hfirst hm => ?_⟩
        by_contra hnot
        have hlt : m < visit fields offset (firstMinute start) n := by
          rw [hvisit]
          exact Int.lt_of_not_ge hnot
        exact hskips.not_matches hn.le hnone hfirst hlt hm
      constructor
      · intro h
        cases h
        exact hisLeast
      · intro h
        rw [h.unique hisLeast]

end Zone

theorem visit_constant {c : Int} (hconstant : ∀ m, offset m = c) (d : Int) (n : Nat) :
    visit fields offset d n + c = visit fields utc (d + c) n := by
  induction n with
  | zero => rfl
  | succ n ih =>
    rw [visit_succ', visit_succ', advance, advance, add_utc, hconstant, ← ih]
    omega

theorem condition_of_constant {c : Int} (hconstant : ∀ m, offset m = c) (d : Int) :
    SkipsNoChange fields offset d ∧ WithinReach fields offset d := by
  refine ⟨fun n _ _ m _ _ hchange => ?_, fun hnone m _ hmatch => ?_⟩
  · exact absurd ((hconstant m).trans (hconstant _).symm) hchange
  · rw [hconstant] at hmatch
    obtain ⟨found, hfound⟩ := @search_utc_reaches fields (d + c) _ hmatch
    obtain ⟨n, hn, hvisit, hlocal, -⟩ := search_some_iff.mp hfound
    refine hnone n hn ?_
    rwa [hconstant, visit_constant hconstant, hvisit, ← add_utc found]

/-- Mondays at half past midnight: `30 0 * * 1`. -/
def mondays : CronFields where
  minutes := [30]
  hours := [0]
  daysOfMonth := List.range' 1 31
  months := List.range' 1 12
  daysOfWeek := [1]

theorem computeNext_zone_least_iff_tokyo :
    (SkipsNoChange mondays (fun _ => 540) (firstMinute 1741497000000) ∧
      WithinReach mondays (fun _ => 540) (firstMinute 1741497000000)) ∧
    ∀ t, computeNext (fun _ => some fun _ => 540) mondays 1741497000000
        (some "Asia/Tokyo") = .ok t ↔
      IsLeast (LocalFireTimes mondays (fun _ => 540) 1741497000000) t := by
  refine ⟨condition_of_constant (fun _ => rfl) _, (computeNext_zone_least_iff ?_ rfl).mpr ?_⟩
  · decide
  · exact condition_of_constant (fun _ => rfl) _

def newYork (minute : Int) : Int := if minute < 29025060 then -300 else -240

/-- From Sunday on, the Monday of the next week is found instead of the next day. -/
theorem mondays_skipped :
    computeNext (fun _ => some newYork) mondays 1741497000000 (some "America/New_York") =
        .ok 1742185800000 ∧
      (1741581000000 : Instant) ∈ LocalFireTimes mondays newYork 1741497000000 ∧
      ¬ IsLeast (LocalFireTimes mondays newYork 1741497000000) 1742185800000 := by
  have hbefore : (1741581000000 : Instant) ∈ LocalFireTimes mondays newYork 1741497000000 :=
    ⟨by decide, 29026350, by decide, by decide⟩
  refine ⟨by decide +kernel, hbefore, fun h => ?_⟩
  exact absurd (h.2 hbefore) (by decide)

end CrabbyKit.Cron
