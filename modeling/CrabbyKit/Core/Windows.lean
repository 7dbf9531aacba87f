import Mathlib.Data.Int.Basic
import Mathlib.Data.List.Count

/-!
# Counting in windows opened by their first event

Events are counted in windows of a fixed width. A window opens with an event, holds at most
a given number of events, and the next one opens when it is over. An arbitrary interval of
that width meets at most two windows, and of the earlier one it misses the event that
opened it.
-/

namespace CrabbyKit.Windows

open List

/-- A window: the event that opened it and those after it, within its width and limit. -/
structure Window (width : Int) (limit : Nat) where
  start : Int
  later : List Int
  within : ∀ t ∈ later, start ≤ t ∧ t < start + width
  bounded : later.length < limit

namespace Window

variable {width : Int} {limit : Nat}

def events (w : Window width limit) : List Int := w.start :: w.later

/-- A window with its first event. -/
def opened (start : Int) (hlimit : 0 < limit) : Window width limit where
  start := start
  later := []
  within := by simp
  bounded := hlimit

/-- A window with a further event. -/
def push (w : Window width limit) (now : Int) (hnow : w.start ≤ now ∧ now < w.start + width)
    (hroom : w.later.length + 1 < limit) : Window width limit where
  start := w.start
  later := w.later ++ [now]
  within := by
    intro t ht
    rcases List.mem_append.mp ht with hold | hnew
    · exact w.within t hold
    · rwa [List.mem_singleton.mp hnew]
  bounded := by rwa [List.length_append, List.length_singleton]

@[simp] theorem events_opened (start : Int) (hlimit : 0 < limit) :
    (opened start hlimit : Window width limit).events = [start] := rfl

@[simp] theorem start_opened (start : Int) (hlimit : 0 < limit) :
    (opened start hlimit : Window width limit).start = start := rfl

variable (w : Window width limit)

@[simp] theorem start_push (now : Int)
    (hnow : w.start ≤ now ∧ now < w.start + width) (hroom : w.later.length + 1 < limit) :
    (w.push now hnow hroom).start = w.start := rfl

@[simp] theorem events_push (now : Int)
    (hnow : w.start ≤ now ∧ now < w.start + width) (hroom : w.later.length + 1 < limit) :
    (w.push now hnow hroom).events = w.events ++ [now] := rfl

theorem length_events_le : w.events.length ≤ limit :=
  w.bounded

theorem event_within (hwidth : 0 < width) (w : Window width limit) {t : Int} (ht : t ∈ w.events) :
    w.start ≤ t ∧ t < w.start + width := by
  rcases mem_cons.mp ht with rfl | hlater
  · omega
  · exact w.within t hlater

end Window

/-- The number of events in the half-open interval of a width from a time on. -/
def countIn (width : Int) (events : List Int) (t : Int) : Nat :=
  events.countP fun x => t ≤ x ∧ x < t + width

variable {width : Int} {limit : Nat}

def allEvents (ws : List (Window width limit)) : List Int := ws.flatMap Window.events

/-- Each window opens after those before it are over. -/
def Apart (ws : List (Window width limit)) : Prop :=
  ws.Pairwise fun a b => a.start + width ≤ b.start

@[simp] theorem countIn_append (xs ys : List Int) (t : Int) :
    countIn width (xs ++ ys) t = countIn width xs t + countIn width ys t :=
  countP_append ..

variable {t : Int}

theorem countIn_eq_zero {events : List Int}
    (h : ∀ x ∈ events, x < t ∨ t + width ≤ x) : countIn width events t = 0 := by
  apply countP_eq_zero.mpr
  intro x hx
  have hmiss := h x hx
  simp only [decide_eq_true_eq]
  omega

theorem countIn_events_le (w : Window width limit) (t : Int) : countIn width w.events t ≤ limit :=
  Nat.le_trans countP_le_length w.length_events_le

theorem countIn_events_lt (w : Window width limit) (ht : w.start < t) :
    countIn width w.events t < limit := by
  have hopened : countIn width w.events t = countIn width w.later t := by
    apply countP_cons_of_neg
    simp only [decide_eq_true_eq]
    omega
  rw [hopened]
  exact Nat.lt_of_le_of_lt countP_le_length w.bounded

variable {ws : List (Window width limit)}

theorem countIn_le_of_starts (hwidth : 0 < width)
    (hapart : Apart ws) (hstarts : ∀ w ∈ ws, t ≤ w.start) :
    countIn width (allEvents ws) t ≤ limit := by
  cases ws with
  | nil => exact Nat.zero_le _
  | cons w ws =>
    have hbehind : countIn width (allEvents ws) t = 0 := by
      apply countIn_eq_zero
      intro x hx
      obtain ⟨v, hv, hxv⟩ := mem_flatMap.mp hx
      have hw := hstarts w mem_cons_self
      have hgap := (pairwise_cons.mp hapart).1 v hv
      have hin := v.event_within hwidth hxv
      omega
    rw [allEvents, flatMap_cons, countIn_append, ← allEvents, hbehind]
    exact countIn_events_le w t

theorem countIn_events_eq_zero (hwidth : 0 < width) (w : Window width limit)
    (ht : w.start + width ≤ t) : countIn width w.events t = 0 := by
  apply countIn_eq_zero
  intro x hx
  have hin := w.event_within hwidth hx
  omega

theorem countIn_le (hwidth : 0 < width) (hapart : Apart ws)
    (t : Int) : countIn width (allEvents ws) t ≤ 2 * limit - 1 := by
  induction ws with
  | nil => exact Nat.zero_le _
  | cons w ws ih =>
    obtain ⟨hgaps, hrest⟩ := pairwise_cons.mp hapart
    rw [allEvents, flatMap_cons, countIn_append, ← allEvents]
    have hlimit := w.bounded
    by_cases hopens : t ≤ w.start
    · have hall := countIn_le_of_starts hwidth hapart (t := t) (by
        intro v hv
        rcases mem_cons.mp hv with rfl | hlater
        · exact hopens
        · have hgap := hgaps v hlater
          omega)
      rw [allEvents, flatMap_cons, countIn_append, ← allEvents] at hall
      omega
    · by_cases hover : w.start + width ≤ t
      · rw [countIn_events_eq_zero hwidth w hover, Nat.zero_add]
        exact ih hrest
      · -- The interval begins inside this window; the others open in or after it.
        have hfirst := countIn_events_lt w (t := t) (by omega)
        cases ws with
        | nil =>
          have hnone : countIn width (allEvents ([] : List (Window width limit))) t = 0 := rfl
          omega
        | cons v ws =>
          by_cases hnext : t ≤ v.start
          · have hothers := countIn_le_of_starts hwidth hrest (t := t) (by
              intro u hu
              rcases mem_cons.mp hu with rfl | hlater
              · exact hnext
              · have hgap := (pairwise_cons.mp hrest).1 u hlater
                omega)
            omega
          · have hgap := hgaps v mem_cons_self
            omega

theorem countIn_le_of_quiet (hwidth : 0 < width)
    (hapart : Apart ws) (hquiet : countIn width (allEvents ws) (t - width) = 0) :
    countIn width (allEvents ws) t ≤ limit := by
  induction ws with
  | nil => exact Nat.zero_le _
  | cons w ws ih =>
    by_cases hopens : t ≤ w.start
    · apply countIn_le_of_starts hwidth hapart
      intro v hv
      rcases mem_cons.mp hv with rfl | hlater
      · exact hopens
      · have hgap := (pairwise_cons.mp hapart).1 v hlater
        omega
    · rw [allEvents, flatMap_cons, countIn_append, ← allEvents] at hquiet ⊢
      obtain ⟨hfirst, hrest⟩ := Nat.add_eq_zero_iff.mp hquiet
      have hstart := countP_eq_zero.mp hfirst w.start mem_cons_self
      simp only [decide_eq_true_eq] at hstart
      rw [countIn_events_eq_zero hwidth w (by omega), Nat.zero_add]
      exact ih (pairwise_cons.mp hapart).2 hrest

end CrabbyKit.Windows
