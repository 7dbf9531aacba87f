import CrabbyKit.Schedule.Cron
import Mathlib.Order.Bounds.Basic

/-!
# The search for a fire time

What the loop of `computeNext` visits, and why a skip passes over no matching minute while
the wall clock runs evenly.
-/

namespace CrabbyKit.Cron

/-- The wall clock of a minute matches an expression. -/
def Matches (fields : CronFields) (f : DateFields) : Prop :=
  f.month ∈ fields.months ∧ f.day ∈ fields.daysOfMonth ∧ f.dayOfWeek ∈ fields.daysOfWeek ∧
    f.hour ∈ fields.hours ∧ f.minute ∈ fields.minutes

instance (fields : CronFields) (f : DateFields) : Decidable (Matches fields f) :=
  inferInstanceAs (Decidable (_ ∧ _))

def DateMatches (fields : CronFields) (f : DateFields) : Prop :=
  f.month ∈ fields.months ∧ f.day ∈ fields.daysOfMonth ∧ f.dayOfWeek ∈ fields.daysOfWeek

instance (fields : CronFields) (f : DateFields) : Decidable (DateMatches fields f) :=
  inferInstanceAs (Decidable (_ ∧ _))

/-- The minutes the loop goes on from a wall clock that does not match. -/
def skip (fields : CronFields) (f : DateFields) : Int :=
  if DateMatches fields f then if f.hour ∈ fields.hours then 1 else 60 - f.minute
  else (23 - f.hour) * 60 + (60 - f.minute)

/-- Where the loop goes on from a minute that does not match. -/
def advance (fields : CronFields) (offset : Int → Int) (d : Int) : Int :=
  d + skip fields (getFields (d + offset d))

/-- The `n`-th minute that the loop visits while none matches. -/
def visit (fields : CronFields) (offset : Int → Int) (d : Int) (n : Nat) : Int :=
  (advance fields offset)^[n] d

section Loop

variable {fields : CronFields} {offset : Int → Int}

@[simp] theorem visit_zero (d : Int) : visit fields offset d 0 = d := rfl

theorem visit_succ' (d : Int) (n : Nat) :
    visit fields offset d (n + 1) = advance fields offset (visit fields offset d n) :=
  Function.iterate_succ_apply' _ n d

theorem search_succ (left : Nat) (d : Int) :
    search fields offset (left + 1) d =
      if Matches fields (getFields (d + offset d)) then some d
      else search fields offset left (advance fields offset d) := by
  simp only [search, Matches, advance, skip, DateMatches]
  by_cases hmonth : (getFields (d + offset d)).month ∈ fields.months
  · by_cases hday : (getFields (d + offset d)).day ∈ fields.daysOfMonth
    · by_cases hweekday : (getFields (d + offset d)).dayOfWeek ∈ fields.daysOfWeek
      · by_cases hhour : (getFields (d + offset d)).hour ∈ fields.hours
        · by_cases hminute : (getFields (d + offset d)).minute ∈ fields.minutes
          · simp [hmonth, hday, hweekday, hhour, hminute]
          · simp [hmonth, hday, hweekday, hhour, hminute]
        · simp [hmonth, hday, hweekday, hhour]
      · simp [hmonth, hday, hweekday]
    · simp [hmonth, hday]
  · simp [hmonth]

theorem search_some_iff {left : Nat} {d found : Int} :
    search fields offset left d = some found ↔
      ∃ n < left, visit fields offset d n = found ∧
        Matches fields (getFields (found + offset found)) ∧
        ∀ k < n, ¬ Matches fields
          (getFields (visit fields offset d k + offset (visit fields offset d k))) := by
  induction left generalizing d with
  | zero => exact iff_of_false (fun h => by cases h) fun ⟨n, hn, _⟩ => absurd hn (Nat.not_lt_zero n)
  | succ left ih =>
    rw [search_succ]
    split_ifs with hmatch
    · constructor
      · intro h
        cases h
        exact ⟨0, Nat.succ_pos left, rfl, hmatch, fun k hk => absurd hk (Nat.not_lt_zero k)⟩
      · rintro ⟨n, -, hvisit, -, hbefore⟩
        rcases n with _ | n
        · exact congrArg some hvisit
        · exact absurd hmatch (hbefore 0 (Nat.succ_pos n))
    · rw [ih]
      constructor
      · rintro ⟨n, hn, hvisit, hfound, hbefore⟩
        refine ⟨n + 1, Nat.succ_lt_succ hn, hvisit, hfound, fun k hk => ?_⟩
        rcases k with _ | k
        · exact hmatch
        · exact hbefore k (Nat.lt_of_succ_lt_succ hk)
      · rintro ⟨n, hn, hvisit, hfound, hbefore⟩
        rcases n with _ | n
        · rw [visit_zero] at hvisit
          subst hvisit
          exact absurd hfound hmatch
        · exact ⟨n, Nat.lt_of_succ_lt_succ hn, hvisit, hfound,
            fun k hk => hbefore (k + 1) (Nat.succ_lt_succ hk)⟩

theorem search_none_iff {left : Nat} {d : Int} :
    search fields offset left d = none ↔
      ∀ n < left, ¬ Matches fields
        (getFields (visit fields offset d n + offset (visit fields offset d n))) := by
  induction left generalizing d with
  | zero => exact iff_of_true rfl fun n hn => absurd hn (Nat.not_lt_zero n)
  | succ left ih =>
    rw [search_succ]
    split_ifs with hmatch
    · exact iff_of_false not_false fun h => h 0 (Nat.succ_pos left) hmatch
    · rw [ih]
      constructor
      · intro h n hn
        rcases n with _ | n
        · exact hmatch
        · exact h n (Nat.lt_of_succ_lt_succ hn)
      · intro h n hn
        exact h (n + 1) (Nat.succ_lt_succ hn)

theorem skip_pos (fields : CronFields) (minutes : Int) : 0 < skip fields (getFields minutes) := by
  have hhour := getFields_hour minutes
  have hminute := getFields_minute minutes
  unfold skip
  split_ifs <;> omega

theorem lt_advance (d : Int) : d < advance fields offset d := by
  have hpos := skip_pos fields (d + offset d)
  unfold advance
  omega

theorem visit_mono (d : Int) {k n : Nat} (h : k ≤ n) :
    visit fields offset d k ≤ visit fields offset d n := by
  induction h with
  | refl => exact Int.le_refl _
  | step _ ih =>
    rw [visit_succ']
    exact Int.le_of_lt (Int.lt_of_le_of_lt ih (lt_advance _))

end Loop

section Clock

variable {fields : CronFields}

theorem getFields_hour_eq (w : Int) : ((getFields w).hour : Int) = w / 60 % 24 := by
  simp only [getFields]
  omega

theorem getFields_minute_eq (w : Int) : ((getFields w).minute : Int) = w % 60 := by
  simp only [getFields]
  omega

theorem dateMatches_congr {w v : Int} (h : w / 1440 = v / 1440) :
    DateMatches fields (getFields w) ↔ DateMatches fields (getFields v) := by
  simp only [DateMatches, getFields, h]

theorem hour_congr {w v : Int} (h : w / 60 % 24 = v / 60 % 24) :
    (getFields w).hour = (getFields v).hour := by
  simp only [getFields, h]

theorem minute_congr {w v : Int} (h : w % 60 = v % 60) :
    (getFields w).minute = (getFields v).minute := by
  simp only [getFields, h]

theorem matches_iff (f : DateFields) : Matches fields f ↔
    DateMatches fields f ∧ f.hour ∈ fields.hours ∧ f.minute ∈ fields.minutes := by
  simp only [Matches, DateMatches, and_assoc]

theorem not_matches_of_lt_skip {w e : Int} (hw : ¬ Matches fields (getFields w)) (hpos : 0 ≤ e)
    (hlt : e < skip fields (getFields w)) : ¬ Matches fields (getFields (w + e)) := by
  have hhour := getFields_hour_eq w
  have hminute := getFields_minute_eq w
  unfold skip at hlt
  rw [matches_iff] at hw ⊢
  split_ifs at hlt with hdate hhours
  · have hzero : e = 0 := by omega
    rwa [hzero, Int.add_zero]
  · -- the rest of the hour
    have hsame : (w + e) / 60 % 24 = w / 60 % 24 := by
      congr 1
      omega
    rw [hour_congr hsame]
    exact fun h => hhours h.2.1
  · -- the rest of the day
    have hday : (w + e) / 1440 = w / 1440 := by omega
    rw [dateMatches_congr hday]
    exact fun h => hdate h.1

end Clock

end CrabbyKit.Cron

/-!
## Fire times in UTC

Without a time zone the search returns the least matching minute, and its iterations reach
one whenever there is any: a date that matches at all comes round within 400 years, a day
that does not match takes one iteration, and within a day 1440 suffice.
-/

namespace CrabbyKit.Cron

/-- The days of the 400 years after which the calendar and the days of the week repeat. -/
def eraDays : Int := 146097

variable {fields : CronFields}

/-- The clock without a time zone. -/
def utc : Int → Int := fun _ => 0

@[simp] theorem add_utc (d : Int) : d + utc d = d := Int.add_zero d

theorem search_utc_least {left : Nat} {d found : Int} (h : search fields utc left d = some found) :
    Matches fields (getFields found) ∧ ∀ m, d ≤ m → m < found → ¬ Matches fields (getFields m) := by
  induction left generalizing d with
  | zero => cases h
  | succ left ih =>
    rw [search_succ, add_utc] at h
    split_ifs at h with hmatch
    · cases h
      exact ⟨hmatch, fun m hle hlt => absurd hle (Int.not_le_of_gt hlt)⟩
    · obtain ⟨hfound, hleast⟩ := ih h
      refine ⟨hfound, fun m hle hlt => ?_⟩
      by_cases hnext : advance fields utc d ≤ m
      · exact hleast m hnext hlt
      · rw [advance, add_utc] at hnext
        have hskipped := not_matches_of_lt_skip hmatch (Int.sub_nonneg_of_le hle) (by omega)
        rwa [show d + (m - d) = m by omega] at hskipped

theorem search_utc_near {left : Nat} {d m : Int} (hm : Matches fields (getFields m)) (hle : d ≤ m)
    (hleft : m - d < left) : ∃ found, search fields utc left d = some found := by
  induction left generalizing d with
  | zero => omega
  | succ left ih =>
    rw [search_succ, add_utc]
    split_ifs with hmatch
    · exact ⟨d, rfl⟩
    · have hpos : d < advance fields utc d := lt_advance d
      apply ih
      · by_contra hnext
        rw [advance, add_utc] at hnext
        have hskipped := not_matches_of_lt_skip hmatch (Int.sub_nonneg_of_le hle) (by omega)
        rw [show d + (m - d) = m by omega] at hskipped
        exact hskipped hm
      · omega

theorem search_utc_midnight {left : Nat} {day : Int}
    (hdate : ¬ DateMatches fields (getFields (day * 1440))) :
    search fields utc (left + 1) (day * 1440) = search fields utc left ((day + 1) * 1440) := by
  have hhour := getFields_hour_eq (day * 1440)
  have hminute := getFields_minute_eq (day * 1440)
  have hnext : advance fields utc (day * 1440) = (day + 1) * 1440 := by
    rw [advance, add_utc, skip, if_neg hdate]
    omega
  rw [search_succ, add_utc, if_neg fun h => hdate ((matches_iff _).mp h).1, hnext]

theorem search_utc_days {left k : Nat} {day m : Int} (hm : Matches fields (getFields m))
    (hk : m / 1440 = day + k) (hleft : k + 1440 ≤ left) :
    ∃ found, search fields utc left (day * 1440) = some found := by
  induction k generalizing left day with
  | zero => exact search_utc_near hm (by omega) (by omega)
  | succ k ih =>
    by_cases hdate : DateMatches fields (getFields (day * 1440))
    · -- the time of the match is one on this day already
      have htoday : Matches fields (getFields (day * 1440 + m % 1440)) := by
        obtain ⟨-, hhour, hminute⟩ := (matches_iff _).mp hm
        have hday : (day * 1440 + m % 1440) / 1440 = day * 1440 / 1440 := by omega
        refine (matches_iff _).mpr ⟨(dateMatches_congr hday).mpr hdate, ?_, ?_⟩
        · rwa [hour_congr (by omega : (day * 1440 + m % 1440) / 60 % 24 = m / 60 % 24)]
        · rwa [minute_congr (by omega : (day * 1440 + m % 1440) % 60 = m % 60)]
      exact search_utc_near htoday (by omega) (by omega)
    · obtain ⟨left, rfl⟩ : ∃ later, left = later + 1 := ⟨left - 1, by omega⟩
      rw [search_utc_midnight hdate]
      exact ih (by omega) (by omega)

theorem search_utc_restOfDay (span : Nat) (d : Int) (hspan : (d / 1440 + 1) * 1440 - d = span)
    (hnone : ∀ m, d ≤ m → m < (d / 1440 + 1) * 1440 → ¬ Matches fields (getFields m)) :
    ∃ used ≤ span, ∀ left, search fields utc (left + used) d =
      search fields utc left ((d / 1440 + 1) * 1440) := by
  induction span using Nat.strong_induction_on generalizing d with
  | _ span ih =>
    have hmatch := hnone d (Int.le_refl d) (by omega)
    have hpos := skip_pos fields d
    have hhour := getFields_hour_eq d
    have hminute := getFields_minute_eq d
    have hinside : skip fields (getFields d) ≤ (d / 1440 + 1) * 1440 - d := by
      unfold skip
      split_ifs <;> omega
    have hstep : ∀ left, search fields utc (left + 1) d =
        search fields utc left (d + skip fields (getFields d)) := by
      intro left
      rw [search_succ, add_utc, if_neg hmatch, advance, add_utc]
    rcases hinside.lt_or_eq with hlt | hequal
    · have hday : (d + skip fields (getFields d)) / 1440 = d / 1440 := by omega
      obtain ⟨used, hused, hsearch⟩ :=
        ih ((d / 1440 + 1) * 1440 - (d + skip fields (getFields d))).toNat (by omega)
          (d + skip fields (getFields d)) (by omega)
          fun m hle hlt => hnone m (by omega) (by omega)
      refine ⟨used + 1, by omega, fun left => ?_⟩
      rw [← Nat.add_assoc, hstep, hsearch, hday]
    · refine ⟨1, by omega, fun left => ?_⟩
      rw [hstep]
      congr 1
      omega

theorem matches_era (m j : Int) :
    Matches fields (getFields (m + eraDays * 1440 * j)) ↔ Matches fields (getFields m) := by
  have hday : (m + eraDays * 1440 * j) / 1440 = m / 1440 + eraDays * j := by
    unfold eraDays
    omega
  have hdate : monthAndDay ((m + eraDays * 1440 * j) / 1440) = monthAndDay (m / 1440) := by
    have hera : (m / 1440 + eraDays * j + 719468) % 146097 = (m / 1440 + 719468) % 146097 := by
      unfold eraDays
      omega
    rw [hday]
    simp only [monthAndDay, hera]
  have hweekday : ((m + eraDays * 1440 * j) / 1440 + 4) % 7 = (m / 1440 + 4) % 7 := by
    unfold eraDays
    omega
  have hhour : (m + eraDays * 1440 * j) / 60 % 24 = m / 60 % 24 := by
    unfold eraDays
    omega
  have hminute : (m + eraDays * 1440 * j) % 60 = m % 60 := by
    unfold eraDays
    omega
  simp only [Matches, getFields, hdate, hweekday, hhour, hminute]

theorem search_utc_reaches {d m : Int} (hm : Matches fields (getFields m)) :
    ∃ found, search fields utc maxIterations d = some found := by
  -- a match in the 400 years from `d` on
  have hsoon : Matches fields (getFields (d + (m - d) % (eraDays * 1440))) := by
    have hera := @matches_era fields m (-((m - d) / (eraDays * 1440)))
    have hsame : m + eraDays * 1440 * -((m - d) / (eraDays * 1440)) =
        d + (m - d) % (eraDays * 1440) := by
      unfold eraDays
      omega
    rw [hsame] at hera
    exact hera.mpr hm
  have hnonneg : 0 ≤ (m - d) % (eraDays * 1440) := by
    unfold eraDays
    omega
  have hbound : (m - d) % (eraDays * 1440) < eraDays * 1440 := by
    unfold eraDays
    omega
  generalize hlater : (m - d) % (eraDays * 1440) = later at hsoon hnonneg hbound
  unfold eraDays at hbound
  have hmax : maxIterations = 527040 := rfl
  by_cases htoday : ∃ x, d ≤ x ∧ x < (d / 1440 + 1) * 1440 ∧ Matches fields (getFields x)
  · obtain ⟨x, hle, hlt, hx⟩ := htoday
    exact search_utc_near hx hle (by omega)
  · have hnone : ∀ x, d ≤ x → x < (d / 1440 + 1) * 1440 → ¬ Matches fields (getFields x) :=
      fun x hle hlt hx => htoday ⟨x, hle, hlt, hx⟩
    have hafter : (d / 1440 + 1) * 1440 ≤ d + later := by
      by_contra hlt
      exact hnone (d + later) (by omega) (by omega) hsoon
    obtain ⟨used, hused, hsearch⟩ :=
      search_utc_restOfDay ((d / 1440 + 1) * 1440 - d).toNat d (by omega) hnone
    obtain ⟨left, hleft⟩ : ∃ left, maxIterations = left + used := ⟨maxIterations - used, by omega⟩
    rw [hleft, hsearch]
    exact search_utc_days (k := ((d + later) / 1440 - (d / 1440 + 1)).toNat) hsoon (by omega)
      (by omega)

/-- The whole minutes strictly after an instant whose fields all match. -/
def FireTimes (fields : CronFields) (start : Instant) : Set Instant :=
  {t | start < t ∧ ∃ m, t = m * minuteMillis ∧ Matches fields (getFields m)}

theorem lt_mul_minuteMillis_iff {start m : Int} :
    start < m * minuteMillis ↔ start / minuteMillis + 1 ≤ m := by
  unfold minuteMillis
  omega

theorem computeNext_utc (zones : Zones) (start : Instant) :
    computeNext zones fields start none =
      match search fields utc maxIterations (start / minuteMillis + 1) with
      | none => .error "Could not find next fire time within one year"
      | some d => .ok (d * minuteMillis) := rfl

/-- Without a time zone `computeNext` returns the least whole minute after the start that
matches, and throws only when there is none. -/
theorem computeNext_utc_least (zones : Zones) (fields : CronFields) (start : Instant) :
    (∀ t, computeNext zones fields start none = .ok t ↔ IsLeast (FireTimes fields start) t) ∧
      ((∃ e, computeNext zones fields start none = .error e) ↔ FireTimes fields start = ∅) := by
  cases hsearch : search fields utc maxIterations (start / minuteMillis + 1) with
  | none =>
    have hempty : FireTimes fields start = ∅ := by
      rw [Set.eq_empty_iff_forall_notMem]
      rintro t ⟨-, m, -, hm⟩
      obtain ⟨found, hfound⟩ := search_utc_reaches (d := start / minuteMillis + 1) hm
      rw [hfound] at hsearch
      cases hsearch
    have herror : computeNext zones fields start none =
        .error "Could not find next fire time within one year" := by
      rw [computeNext_utc, hsearch]
    rw [herror, hempty]
    refine ⟨fun t => iff_of_false (fun h => ?_) fun h => h.1, iff_of_true ⟨_, rfl⟩ rfl⟩
    cases h
  | some found =>
    obtain ⟨hmatch, hbefore⟩ := search_utc_least hsearch
    have hok : computeNext zones fields start none = .ok (found * minuteMillis) := by
      rw [computeNext_utc, hsearch]
    have hleast : IsLeast (FireTimes fields start) (found * minuteMillis) := by
      refine ⟨⟨lt_mul_minuteMillis_iff.mpr (search_ge hsearch), found, rfl, hmatch⟩, ?_⟩
      rintro t ⟨hlt, m, rfl, hm⟩
      have hle : found ≤ m := by
        by_contra hnot
        exact hbefore m (lt_mul_minuteMillis_iff.mp hlt) (Int.lt_of_not_ge hnot) hm
      exact Int.mul_le_mul_of_nonneg_right hle (by decide)
    rw [hok]
    refine ⟨fun t => ⟨fun h => ?_, fun h => ?_⟩, iff_of_false ?_ hleast.nonempty.ne_empty⟩
    · cases h
      exact hleast
    · rw [h.unique hleast]
    · rintro ⟨e, h⟩
      cases h

end CrabbyKit.Cron
