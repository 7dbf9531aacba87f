import CrabbyKit.Token.Verify

/-!
# Nonces that are not consumed twice

A tracker under calls of `tryConsume` at times that do not decrease. What was accepted stays
tracked until its token expires, so that it is refused; who is refused without having been accepted
finds the tracker full of tokens that have not expired.
-/

namespace CrabbyKit.Token

open List

open CrabbyKit.Run (run run_induction)

/-- A call of `tryConsume` with the clock at the call. -/
structure ConsumeCall where
  now : Int
  nonce : String
  expiresAt : Int
  deriving DecidableEq, Repr

/-- What the tracker keeps of a call that it accepts. -/
def ConsumeCall.entry (call : ConsumeCall) : Option Json × Option Json :=
  (some (.str call.nonce), some (.num call.expiresAt))

def ConsumeCall.consume (call : ConsumeCall) (tracker : NonceTracker) : Bool × NonceTracker :=
  tracker.tryConsume call.now call.entry.1 call.entry.2

/-- A tracker with the calls it accepted. -/
structure Consumption where
  tracker : NonceTracker
  accepted : List ConsumeCall

def Consumption.step (s : Consumption) (call : ConsumeCall) : Consumption where
  tracker := (call.consume s.tracker).2
  accepted := if (call.consume s.tracker).1 then s.accepted ++ [call] else s.accepted

/-- A new tracker after some calls. -/
def consumed (maxSize : Nat) (calls : List ConsumeCall) : Consumption :=
  run Consumption.step ⟨{ maxSize := maxSize }, []⟩ calls

/-- The entries whose tokens have not expired. -/
def NonceTracker.unexpired (tracker : NonceTracker) (now : Int) :
    List (Option Json × Option Json) :=
  tracker.consumed.filter fun entry => !expired entry.2 now

def HasNonce (nonce : String) (entry : Option Json × Option Json) : Prop :=
  sameKey entry.1 (some (.str nonce)) = true

/-- What a call can do to a tracker: it refuses a nonce that is tracked, it refuses because all
places are taken by tokens that have not expired, or it adds its entry. -/
inductive Consumes (call : ConsumeCall) (tracker : NonceTracker) : Bool × NonceTracker → Prop
  | replayed {kept : NonceTracker}
    (evicted : kept = tracker ∨ kept = tracker.evictExpired call.now)
    (tracked : ∃ entry ∈ kept.consumed, HasNonce call.nonce entry) :
    Consumes call tracker (false, kept)
  | full (taken : tracker.maxSize ≤ (tracker.unexpired call.now).length) :
    Consumes call tracker (false, tracker.evictExpired call.now)
  | accepted {kept : NonceTracker}
    (evicted : kept = tracker ∨ kept = tracker.evictExpired call.now)
    (free : kept.consumed.length < tracker.maxSize)
    (fresh : ∀ entry ∈ kept.consumed, ¬ HasNonce call.nonce entry) :
    Consumes call tracker (true, { kept with consumed := kept.consumed ++ [call.entry] })

theorem evictExpired_idem (tracker : NonceTracker) (now : Int) :
    (tracker.evictExpired now).evictExpired now = tracker.evictExpired now := by
  simp [NonceTracker.evictExpired]

theorem consumes (call : ConsumeCall) (tracker : NonceTracker) :
    Consumes call tracker (call.consume tracker) := by
  unfold ConsumeCall.consume NonceTracker.tryConsume
  generalize near : (if 9 * tracker.maxSize ≤ 10 * tracker.consumed.length
    then tracker.evictExpired call.now else tracker) = kept
  have evicted : kept = tracker ∨ kept = tracker.evictExpired call.now := by
    rw [← near]
    split
    · exact .inr rfl
    · exact .inl rfl
  have again : kept.evictExpired call.now = tracker.evictExpired call.now := by
    rcases evicted with rfl | rfl
    · rfl
    · exact evictExpired_idem tracker call.now
  have size : kept.maxSize = tracker.maxSize := by
    rcases evicted with rfl | rfl <;> rfl
  simp only
  split
  · next tracked => exact .replayed evicted (by simpa [HasNonce, ConsumeCall.entry] using tracked)
  · next fresh =>
    have fresh : ∀ entry ∈ kept.consumed, ¬ HasNonce call.nonce entry := by
      simpa [HasNonce, ConsumeCall.entry] using fresh
    by_cases crowded : kept.maxSize ≤ kept.consumed.length
    · rw [if_pos crowded, again]
      split
      · next taken => exact .full taken
      · next room =>
        have cleaned : ∀ entry ∈ (tracker.evictExpired call.now).consumed,
            ¬ HasNonce call.nonce entry := by
          intro entry mem
          rw [← again] at mem
          exact fresh entry (mem_of_mem_filter mem)
        exact .accepted (.inr rfl) (Nat.lt_of_not_le room) cleaned
    · rw [if_neg crowded, if_neg crowded]
      exact .accepted evicted (size ▸ Nat.lt_of_not_le crowded) fresh

variable {call : ConsumeCall} {tracker : NonceTracker} {result : Bool × NonceTracker}
variable {entry : Option Json × Option Json}

theorem Consumes.keeps (h : Consumes call tracker result) (mem : entry ∈ tracker.consumed)
    (alive : expired entry.2 call.now = false) : entry ∈ result.2.consumed := by
  have inKept {kept : NonceTracker}
      (evicted : kept = tracker ∨ kept = tracker.evictExpired call.now) :
      entry ∈ kept.consumed := by
    rcases evicted with rfl | rfl
    · exact mem
    · exact mem_filter.mpr ⟨mem, by simp [alive]⟩
  cases h with
  | replayed evicted _ => exact inKept evicted
  | full _ => exact inKept (.inr rfl)
  | accepted evicted _ _ => exact mem_append_left _ (inKept evicted)

theorem Consumes.mem (h : Consumes call tracker result) (mem : entry ∈ result.2.consumed) :
    entry ∈ tracker.consumed ∨ (result.1 = true ∧ entry = call.entry) := by
  have ofKept {kept : NonceTracker}
      (evicted : kept = tracker ∨ kept = tracker.evictExpired call.now)
      (mem : entry ∈ kept.consumed) : entry ∈ tracker.consumed := by
    rcases evicted with rfl | rfl
    · exact mem
    · exact mem_of_mem_filter mem
  cases h with
  | replayed evicted _ => exact .inl (ofKept evicted mem)
  | full _ => exact .inl (ofKept (.inr rfl) mem)
  | accepted evicted _ _ =>
    rcases mem_append.mp mem with old | new
    · exact .inl (ofKept evicted old)
    · exact .inr ⟨rfl, mem_singleton.mp new⟩

theorem Consumes.maxSize (h : Consumes call tracker result) :
    result.2.maxSize = tracker.maxSize := by
  cases h with
  | replayed evicted _ => rcases evicted with rfl | rfl <;> rfl
  | full _ => rfl
  | accepted evicted _ _ => rcases evicted with rfl | rfl <;> rfl

theorem Consumes.bounded (h : Consumes call tracker result)
    (before : tracker.consumed.length ≤ tracker.maxSize) :
    result.2.consumed.length ≤ result.2.maxSize := by
  have evictedLength : (tracker.evictExpired call.now).consumed.length ≤
      tracker.consumed.length := length_filter_le _ _
  rw [h.maxSize]
  cases h with
  | replayed evicted _ =>
    rcases evicted with rfl | rfl
    · exact before
    · exact Nat.le_trans evictedLength before
  | full _ => exact Nat.le_trans evictedLength before
  | accepted _ free _ =>
    rw [length_append]
    exact free

theorem Consumes.refused (h : Consumes call tracker result) (mem : entry ∈ tracker.consumed)
    (alive : expired entry.2 call.now = false) (same : HasNonce call.nonce entry) :
    result.1 = false := by
  cases h with
  | replayed _ _ => rfl
  | full _ => rfl
  | accepted evicted _ fresh =>
    rcases evicted with rfl | rfl
    · exact absurd same (fresh entry mem)
    · exact absurd same (fresh entry (mem_filter.mpr ⟨mem, by simp [alive]⟩))

theorem Consumes.own (h : Consumes call tracker result) (taken : result.1 = true) :
    call.entry ∈ result.2.consumed := by
  cases h with
  | replayed _ _ => cases taken
  | full _ => cases taken
  | accepted _ _ _ => exact mem_append_right _ (mem_singleton_self _)

theorem Consumes.full_of_refused (h : Consumes call tracker result) (refused : result.1 = false)
    (unknown : ∀ entry ∈ tracker.consumed, ¬ HasNonce call.nonce entry) :
    tracker.maxSize ≤ (tracker.unexpired call.now).length := by
  cases h with
  | replayed evicted tracked =>
    obtain ⟨entry, mem, same⟩ := tracked
    rcases evicted with rfl | rfl
    · exact absurd same (unknown entry mem)
    · exact absurd same (unknown entry (mem_of_mem_filter mem))
  | full taken => exact taken
  | accepted _ _ _ => cases refused

/-- After any calls what was accepted is tracked for as long as it has not expired, and nothing
else is tracked. -/
structure Tracks (maxSize : Nat) (calls : List ConsumeCall) (s : Consumption) : Prop where
  size : s.tracker.maxSize = maxSize
  bounded : s.tracker.consumed.length ≤ maxSize
  kept : ∀ now, (∀ c ∈ calls, c.now ≤ now) → ∀ c ∈ s.accepted, now < c.expiresAt →
    c.entry ∈ s.tracker.consumed
  accepted : ∀ entry ∈ s.tracker.consumed, ∃ c ∈ s.accepted, entry = c.entry

theorem expired_entry (call : ConsumeCall) (now : Int) :
    expired call.entry.2 now = decide (call.expiresAt ≤ now) := rfl

theorem hasNonce_entry {nonce : String} : HasNonce nonce call.entry ↔ call.nonce = nonce := by
  simp [HasNonce, ConsumeCall.entry, sameKey]

theorem consumed_tracks (maxSize : Nat) (calls : List ConsumeCall) :
    Tracks maxSize calls (consumed maxSize calls) := by
  apply run_induction
  · exact ⟨rfl, Nat.zero_le _, by simp, by simp⟩
  · intro calls call s h
    have step := consumes call s.tracker
    have bounded := step.bounded (h.size ▸ h.bounded)
    rw [step.maxSize, h.size] at bounded
    refine ⟨step.maxSize.trans h.size, bounded, ?_, ?_⟩
    · intro now later c mem alive
      have old : c ∈ s.accepted → c.entry ∈ (call.consume s.tracker).2.consumed := by
        intro before
        have tracked := h.kept now (fun a ha => later a (by simp [ha])) c before alive
        have callTime : call.now ≤ now := later call (by simp)
        apply step.keeps tracked
        rw [expired_entry, decide_eq_false_iff_not]
        omega
      simp only [Consumption.step] at mem
      split at mem
      · next taken =>
        rcases mem_append.mp mem with before | here
        · exact old before
        · cases mem_singleton.mp here
          exact step.own taken
      · exact old mem
    · intro entry mem
      simp only [Consumption.step]
      rcases step.mem mem with before | ⟨taken, rfl⟩
      · obtain ⟨c, among, same⟩ := h.accepted entry before
        refine ⟨c, ?_, same⟩
        split
        · exact mem_append_left _ among
        · exact among
      · rw [if_pos taken]
        exact ⟨call, by simp, rfl⟩

/-- The three laws of a tracker that was called some times. -/
structure NonceLaws (maxSize : Nat) (calls : List ConsumeCall) : Prop where
  /-- What was accepted is not accepted again before it expires. -/
  noReplay : ∀ before call after, calls = before ++ call :: after →
    ∀ c ∈ (consumed maxSize before).accepted, c.nonce = call.nonce → call.now < c.expiresAt →
      (call.consume (consumed maxSize before).tracker).1 = false
  /-- No more nonces are tracked than there may be. -/
  bounded : ∀ before after, calls = before ++ after →
    (consumed maxSize before).tracker.consumed.length ≤ maxSize
  /-- A fresh nonce is refused only when there is no room among those that have not expired. -/
  refusedWhenFull : ∀ before call after, calls = before ++ call :: after →
    (∀ c ∈ (consumed maxSize before).accepted, c.nonce ≠ call.nonce) →
      (call.consume (consumed maxSize before).tracker).1 = false →
        maxSize ≤ ((consumed maxSize before).tracker.unexpired call.now).length

/-- At times that do not decrease the laws hold for every capacity. -/
theorem nonceTracker_laws (maxSize : Nat) (calls : List ConsumeCall)
    (timed : calls.Pairwise fun a b => a.now ≤ b.now) : NonceLaws maxSize calls := by
  refine ⟨?_, ?_, ?_⟩
  · rintro before call after rfl c mem same alive
    have earlier : ∀ a ∈ before, a.now ≤ call.now := by
      intro a ha
      exact (pairwise_append.mp timed).2.2 a ha call mem_cons_self
    have tracked := (consumed_tracks maxSize before).kept call.now earlier c mem alive
    apply (consumes call _).refused tracked
    · rw [expired_entry, decide_eq_false_iff_not]
      omega
    · exact hasNonce_entry.mpr same
  · rintro before after rfl
    exact (consumed_tracks maxSize before).bounded
  · rintro before call after rfl fresh refused
    have tracks := consumed_tracks maxSize before
    have unknown : ∀ entry ∈ (consumed maxSize before).tracker.consumed,
        ¬ HasNonce call.nonce entry := by
      intro entry mem same
      obtain ⟨c, among, rfl⟩ := tracks.accepted entry mem
      exact fresh c among (hasNonce_entry.mp same)
    have full := (consumes call (consumed maxSize before).tracker).full_of_refused refused unknown
    rwa [tracks.size] at full

/-- Two places: a nonce, the same again, two others, and one after the first two expired. -/
theorem nonceTracker_two :
    NonceLaws 2 [⟨0, "a", 10⟩, ⟨1, "a", 10⟩, ⟨2, "b", 12⟩, ⟨3, "c", 13⟩, ⟨12, "c", 20⟩] ∧
      (consumed 2
        [⟨0, "a", 10⟩, ⟨1, "a", 10⟩, ⟨2, "b", 12⟩, ⟨3, "c", 13⟩, ⟨12, "c", 20⟩]).accepted =
          [⟨0, "a", 10⟩, ⟨2, "b", 12⟩, ⟨12, "c", 20⟩] :=
  ⟨nonceTracker_laws 2 _ (by decide), by decide⟩

end CrabbyKit.Token
