import CrabbyKit.Channels.Define
import CrabbyKit.Core.Windows

/-!
# What the rate limiter lets through

Runs of `consume` over calls for any keys, each key with its own fixed limits. The stored
row of a bucket is the last of a sequence of windows that hold exactly the allowed calls, so
an interval that begins inside a window can meet two of them.
-/

namespace CrabbyKit.Channels

open Windows List

def RateLimitConfig.limitOf (config : RateLimitConfig) : WindowKind → Option Nat
  | .minute => some config.perMinute
  | .hour => config.perHour

structure RateCall where
  key : String
  now : Instant
  deriving DecidableEq, Repr

/-- The buckets and what the calls so far were told. -/
structure Limiter where
  buckets : Buckets := fun _ _ => none
  outcomes : List (RateCall × Bool) := []

/-- One call of `consume`. -/
def Limiter.step (limits : String → RateLimitConfig) (s : Limiter) (c : RateCall) : Limiter :=
  let result := consume s.buckets c.key (limits c.key) c.now
  { buckets := result.1, outcomes := s.outcomes ++ [(c, result.2)] }

def Limiter.run (limits : String → RateLimitConfig) (calls : List RateCall) : Limiter :=
  Run.run (Limiter.step limits) {} calls

def outcomesOf (key : String) (outcomes : List (RateCall × Bool)) : List (RateCall × Bool) :=
  outcomes.filter fun o => o.1.key = key

def allowedTimes (key : String) (outcomes : List (RateCall × Bool)) : List Int :=
  ((outcomesOf key outcomes).filter fun o => o.2).map fun o => o.1.now

theorem WindowKind.millis_pos (kind : WindowKind) : 0 < kind.millis := by
  cases kind <;> decide

section Consume

variable {buckets : Buckets} {key : String} {config : RateLimitConfig} {now : Instant}

/-- The start and the count a call finds in its window. -/
def found (row : Option BucketRow) (kind : WindowKind) (now : Instant) : BucketRow :=
  ⟨windowStart row now kind.millis, windowCount row (windowStart row now kind.millis)⟩

theorem writeBucket_self (kind : WindowKind) (row : BucketRow) :
    writeBucket buckets key kind row key kind = some row := by
  simp [writeBucket]

theorem writeBucket_kind {kind other : WindowKind} (h : other ≠ kind) (row : BucketRow) :
    writeBucket buckets key kind row key other = buckets key other := by
  simp [writeBucket, h]

theorem writeBucket_key {other : String} (h : other ≠ key) (kind : WindowKind) (row : BucketRow) :
    writeBucket buckets key kind row other = buckets other := by
  simp [writeBucket, h]

theorem consume_cases (buckets : Buckets) (key : String) (config : RateLimitConfig)
    (now : Instant) :
    consume buckets key config now = (buckets, false) ∨
      ∃ written, consume buckets key config now = (written, true) ∧
        (∀ other, other ≠ key → written other = buckets other) ∧
        ∀ kind limit, config.limitOf kind = some limit →
          (found (buckets key kind) kind now).count < limit ∧
          written key kind = some ⟨(found (buckets key kind) kind now).windowStart,
            (found (buckets key kind) kind now).count + 1⟩ := by
  simp only [consume]
  split_ifs with hminute
  · exact .inl rfl
  cases hconfig : config.perHour with
  | none =>
    refine .inr ⟨_, rfl, fun other hother => writeBucket_key hother _ _, ?_⟩
    intro kind limit hlimit
    cases kind with
    | minute =>
      obtain rfl : config.perMinute = limit := Option.some.inj hlimit
      exact ⟨Nat.lt_of_not_le hminute, writeBucket_self _ _⟩
    | hour =>
      rw [RateLimitConfig.limitOf, hconfig] at hlimit
      cases hlimit
  | some perHour =>
    simp only
    split_ifs with hhour
    · exact .inl rfl
    refine .inr ⟨_, rfl, fun other hother => ?_, ?_⟩
    · rw [writeBucket_key hother, writeBucket_key hother]
    · intro kind limit hlimit
      cases kind with
      | minute =>
        obtain rfl : config.perMinute = limit := Option.some.inj hlimit
        rw [writeBucket_kind (by decide)]
        exact ⟨Nat.lt_of_not_le hminute, writeBucket_self _ _⟩
      | hour =>
        rw [RateLimitConfig.limitOf, hconfig] at hlimit
        obtain rfl : perHour = limit := Option.some.inj hlimit
        exact ⟨Nat.lt_of_not_le hhour, writeBucket_self _ _⟩

theorem consume_denied (h : (consume buckets key config now).2 = false) :
    (consume buckets key config now).1 = buckets := by
  rcases consume_cases buckets key config now with hdenied | ⟨written, hallowed, -⟩
  · rw [hdenied]
  · rw [hallowed] at h
    cases h

theorem consume_key {other : String} (hother : other ≠ key) :
    (consume buckets key config now).1 other = buckets other := by
  rcases consume_cases buckets key config now with hdenied | ⟨written, hallowed, hkeys, -⟩
  · rw [hdenied]
  · rw [hallowed]
    exact hkeys other hother

theorem consume_congr {buckets' : Buckets} (hsame : buckets key = buckets' key) :
    (consume buckets key config now).2 = (consume buckets' key config now).2 ∧
      (consume buckets key config now).1 key = (consume buckets' key config now).1 key := by
  simp only [consume, hsame]
  split_ifs with hminute
  · exact ⟨rfl, hsame⟩
  cases config.perHour with
  | none => exact ⟨rfl, by simp [writeBucket, hsame]⟩
  | some perHour =>
    simp only
    split_ifs with hhour
    · exact ⟨rfl, hsame⟩
    · exact ⟨rfl, by simp [writeBucket, hsame]⟩

end Consume

section Tracks

variable {kind : WindowKind} {limit : Nat} {row : Option BucketRow} {times : List Int}
  {now : Int}

def lastRow (ws : List (Window kind.millis limit)) : Option BucketRow :=
  ws.getLast?.map fun w => ⟨w.start, w.events.length⟩

/-- A stored row is the last of windows that hold exactly the given times. -/
def Tracks (kind : WindowKind) (limit : Nat) (row : Option BucketRow) (times : List Int) : Prop :=
  ∃ ws : List (Window kind.millis limit), Apart ws ∧ allEvents ws = times ∧ lastRow ws = row

theorem tracks_empty (kind : WindowKind) (limit : Nat) : Tracks kind limit none [] :=
  ⟨[], List.Pairwise.nil, rfl, rfl⟩

theorem Tracks.push (h : Tracks kind limit row times) (hnow : ∀ t ∈ times, t ≤ now)
    (hroom : (found row kind now).count < limit) :
    Tracks kind limit (some ⟨(found row kind now).windowStart, (found row kind now).count + 1⟩)
      (times ++ [now]) := by
  obtain ⟨ws, hapart, rfl, rfl⟩ := h
  have hlimit : 0 < limit := Nat.zero_lt_of_lt hroom
  rcases eq_nil_or_concat ws with rfl | ⟨front, last, rfl⟩
  · exact ⟨[.opened now hlimit], pairwise_singleton _ _, rfl, rfl⟩
  rw [concat_eq_append] at *
  have hrow : lastRow (front ++ [last]) = some ⟨last.start, last.events.length⟩ := by
    simp [lastRow]
  have hmillis := kind.millis_pos
  obtain ⟨hfront, -, hgaps⟩ := pairwise_append.mp hapart
  by_cases hbehind : now - last.start ≥ kind.millis
  · have hfound : found (lastRow (front ++ [last])) kind now = ⟨now, 0⟩ := by
      have hne : last.start ≠ now := by omega
      simp only [hrow, found, windowStart, windowCount, hbehind, if_true, hne, if_false]
    refine ⟨front ++ [last] ++ [.opened now hlimit], ?_, ?_, ?_⟩
    · apply pairwise_append.mpr
      refine ⟨hapart, pairwise_singleton _ _, ?_⟩
      intro v hv u hu
      rw [mem_singleton.mp hu, Window.start_opened]
      rcases mem_append.mp hv with hearlier | hlast
      · have hgap := hgaps v hearlier last (mem_singleton_self _)
        omega
      · rw [mem_singleton.mp hlast]
        omega
    · simp [allEvents]
    · rw [hfound]
      simp [lastRow]
  · have hfound : found (lastRow (front ++ [last])) kind now =
        ⟨last.start, last.events.length⟩ := by
      simp only [hrow, found, windowStart, windowCount, hbehind, if_false, if_true]
    have hstart : last.start ≤ now :=
      hnow last.start (by simp [allEvents, Window.events])
    have hlast : last.later.length + 1 < limit := by
      rw [hfound] at hroom
      exact hroom
    refine ⟨front ++ [last.push now ⟨hstart, by omega⟩ hlast], ?_, ?_, ?_⟩
    · apply pairwise_append.mpr
      refine ⟨hfront, pairwise_singleton _ _, ?_⟩
      intro v hv u hu
      rw [mem_singleton.mp hu, Window.start_push]
      exact hgaps v hv last (mem_singleton_self _)
    · simp [allEvents]
    · rw [hfound]
      simp [lastRow]

theorem Tracks.countIn_le (h : Tracks kind limit row times) (t : Int) :
    countIn kind.millis times t ≤ 2 * limit - 1 ∧
      (countIn kind.millis times (t - kind.millis) = 0 → countIn kind.millis times t ≤ limit) := by
  obtain ⟨ws, hapart, rfl, -⟩ := h
  exact ⟨Windows.countIn_le kind.millis_pos hapart t, countIn_le_of_quiet kind.millis_pos hapart⟩

end Tracks

section Runs

variable {limits : String → RateLimitConfig} {calls : List RateCall}

@[simp] theorem run_snoc_outcomes (calls : List RateCall) (c : RateCall) :
    (Limiter.run limits (calls ++ [c])).outcomes = (Limiter.run limits calls).outcomes ++
      [(c, (consume (Limiter.run limits calls).buckets c.key (limits c.key) c.now).2)] := by
  rw [Limiter.run, Run.run_snoc]
  rfl

@[simp] theorem run_snoc_buckets (calls : List RateCall) (c : RateCall) :
    (Limiter.run limits (calls ++ [c])).buckets =
      (consume (Limiter.run limits calls).buckets c.key (limits c.key) c.now).1 := by
  rw [Limiter.run, Run.run_snoc]
  rfl

@[simp] theorem outcomesOf_append (key : String) (xs ys : List (RateCall × Bool)) :
    outcomesOf key (xs ++ ys) = outcomesOf key xs ++ outcomesOf key ys :=
  filter_append ..

theorem allowedTimes_snoc (key : String) (outcomes : List (RateCall × Bool)) (c : RateCall)
    (allowed : Bool) :
    allowedTimes key (outcomes ++ [(c, allowed)]) =
      allowedTimes key outcomes ++ if c.key = key ∧ allowed = true then [c.now] else [] := by
  simp only [allowedTimes, outcomesOf_append, filter_append, map_append]
  by_cases hkey : c.key = key <;> cases allowed <;> simp [outcomesOf, hkey]

theorem allowedTimes_mem {key : String} {t : Int}
    (ht : t ∈ allowedTimes key (Limiter.run limits calls).outcomes) : ∃ c ∈ calls, c.now = t := by
  induction calls using List.reverseRecOn with
  | nil => cases ht
  | append_singleton calls c ih =>
    rw [run_snoc_outcomes, allowedTimes_snoc] at ht
    rcases mem_append.mp ht with hold | hnew
    · obtain ⟨d, hd, hdt⟩ := ih hold
      exact ⟨d, mem_append_left _ hd, hdt⟩
    · refine ⟨c, mem_append_right _ (mem_singleton_self _), ?_⟩
      split_ifs at hnew
      · exact (mem_singleton.mp hnew).symm
      · cases hnew

theorem tracks_run (hmono : calls.Pairwise fun a b => a.now ≤ b.now) (key : String)
    {kind : WindowKind} {limit : Nat} (hlimit : (limits key).limitOf kind = some limit) :
    Tracks kind limit ((Limiter.run limits calls).buckets key kind)
      (allowedTimes key (Limiter.run limits calls).outcomes) := by
  induction calls using List.reverseRecOn with
  | nil => exact tracks_empty kind limit
  | append_singleton calls c ih =>
    obtain ⟨hcalls, -, hlast⟩ := pairwise_append.mp hmono
    have hbefore := ih hcalls
    rw [run_snoc_outcomes, run_snoc_buckets, allowedTimes_snoc]
    by_cases hkey : c.key = key
    · subst hkey
      rcases consume_cases (Limiter.run limits calls).buckets c.key (limits c.key) c.now with
        hdenied | ⟨written, hallowed, -, hwritten⟩
      · rw [hdenied]
        simpa using hbefore
      · obtain ⟨hroom, hrow⟩ := hwritten kind limit hlimit
        rw [hallowed]
        dsimp only
        rw [hrow, if_pos ⟨rfl, rfl⟩]
        apply hbefore.push _ hroom
        intro t ht
        obtain ⟨d, hd, rfl⟩ := allowedTimes_mem ht
        exact hlast d hd c (mem_singleton_self _)
    · rw [if_neg fun h => hkey h.1, append_nil, consume_key (Ne.symm hkey)]
      exact hbefore

theorem run_filter (key : String) (calls : List RateCall) :
    (Limiter.run limits calls).buckets key =
        (Limiter.run limits (calls.filter fun c => c.key = key)).buckets key ∧
      outcomesOf key (Limiter.run limits calls).outcomes =
        (Limiter.run limits (calls.filter fun c => c.key = key)).outcomes := by
  induction calls using List.reverseRecOn with
  | nil => exact ⟨rfl, rfl⟩
  | append_singleton calls c ih =>
    obtain ⟨hbuckets, houtcomes⟩ := ih
    rw [filter_append]
    by_cases hkey : c.key = key
    · subst hkey
      obtain ⟨hresult, hwritten⟩ :=
        @consume_congr _ c.key (limits c.key) c.now _ hbuckets
      rw [filter_cons_of_pos (by simp), filter_nil]
      simp only [run_snoc_buckets, run_snoc_outcomes, outcomesOf_append, houtcomes, hresult,
        hwritten, true_and]
      simp [outcomesOf]
    · rw [filter_cons_of_neg (by simpa using hkey), filter_nil, append_nil]
      simp only [run_snoc_buckets, run_snoc_outcomes, outcomesOf_append, consume_key (Ne.symm hkey)]
      refine ⟨hbuckets, ?_⟩
      rw [houtcomes]
      simp [outcomesOf, hkey]

/-- What the limiter promises for every sequence of calls in clock order. For each window
kind with a limit, the calls of a key that are allowed are fewer than twice the limit in any
interval of the window's width, and at most the limit when the interval before it saw none
of them. A denied call changes no bucket, and the outcomes of a key are those of its own
calls alone. -/
theorem consume_bounds (limits : String → RateLimitConfig) (calls : List RateCall)
    (hmono : calls.Pairwise fun a b => a.now ≤ b.now) (key : String) :
    (∀ kind limit, (limits key).limitOf kind = some limit → ∀ t,
      countIn kind.millis (allowedTimes key (Limiter.run limits calls).outcomes) t ≤
          2 * limit - 1 ∧
        (countIn kind.millis (allowedTimes key (Limiter.run limits calls).outcomes)
            (t - kind.millis) = 0 →
          countIn kind.millis (allowedTimes key (Limiter.run limits calls).outcomes) t ≤ limit)) ∧
      (∀ buckets config now, (consume buckets key config now).2 = false →
        (consume buckets key config now).1 = buckets) ∧
      outcomesOf key (Limiter.run limits calls).outcomes =
        (Limiter.run limits (calls.filter fun c => c.key = key)).outcomes :=
  ⟨fun _ _ hlimit t => (tracks_run hmono key hlimit).countIn_le t,
    fun _ _ _ hdenied => consume_denied hdenied, (run_filter key calls).2⟩

/-- Two calls at the end of one window and two at the start of the next, under a limit of
two: three of them lie within one minute. -/
theorem three_within_a_minute :
    ¬∀ (limits : String → RateLimitConfig) (calls : List RateCall),
      (calls.Pairwise fun a b => a.now ≤ b.now) → ∀ key t,
        countIn (WindowKind.millis .minute) (allowedTimes key (Limiter.run limits calls).outcomes)
          t ≤ (limits key).perMinute := by
  intro hbound
  have hthree := hbound (fun _ => ⟨2, none⟩)
    [⟨"k", 0⟩, ⟨"k", 59999⟩, ⟨"k", 60000⟩, ⟨"k", 60000⟩] (by decide) "k" 1
  exact absurd hthree (by decide)

/-- The two calls of the first window, one of them at its end, and the two of the second. -/
theorem consume_bounds_threeWithinAMinute :
    (∀ kind limit, RateLimitConfig.limitOf ⟨2, none⟩ kind = some limit → ∀ t,
      countIn kind.millis (allowedTimes "k" (Limiter.run (fun _ => ⟨2, none⟩)
          [⟨"k", 0⟩, ⟨"k", 59999⟩, ⟨"k", 60000⟩, ⟨"k", 60000⟩]).outcomes) t ≤ 2 * limit - 1 ∧
        (countIn kind.millis (allowedTimes "k" (Limiter.run (fun _ => ⟨2, none⟩)
            [⟨"k", 0⟩, ⟨"k", 59999⟩, ⟨"k", 60000⟩, ⟨"k", 60000⟩]).outcomes)
            (t - kind.millis) = 0 →
          countIn kind.millis (allowedTimes "k" (Limiter.run (fun _ => ⟨2, none⟩)
            [⟨"k", 0⟩, ⟨"k", 59999⟩, ⟨"k", 60000⟩, ⟨"k", 60000⟩]).outcomes) t ≤ limit)) ∧
      (∀ buckets config now, (consume buckets "k" config now).2 = false →
        (consume buckets "k" config now).1 = buckets) ∧
      outcomesOf "k" (Limiter.run (fun _ => ⟨2, none⟩)
          [⟨"k", 0⟩, ⟨"k", 59999⟩, ⟨"k", 60000⟩, ⟨"k", 60000⟩]).outcomes =
        (Limiter.run (fun _ => ⟨2, none⟩)
          ([⟨"k", 0⟩, ⟨"k", 59999⟩, ⟨"k", 60000⟩, ⟨"k", 60000⟩].filter
            fun c => c.key = "k")).outcomes :=
  consume_bounds (fun _ => ⟨2, none⟩) _ (by decide) "k"

end Runs

end CrabbyKit.Channels
