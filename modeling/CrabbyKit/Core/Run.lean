import Mathlib.Data.List.Basic
import Mathlib.Data.List.Induction

/-!
# Runs of a deterministic system

A run folds a step function over a list of labels. An invariant that may speak of
the labels used so far is carried by one step lemma.
-/

namespace CrabbyKit.Run

variable {σ ε : Type*}

def run (step : σ → ε → σ) (start : σ) (labels : List ε) : σ := labels.foldl step start

@[simp] theorem run_nil (step : σ → ε → σ) (start : σ) : run step start [] = start := rfl

@[simp] theorem run_snoc (step : σ → ε → σ) (start : σ) (es : List ε) (e : ε) :
    run step start (es ++ [e]) = step (run step start es) e := by
  simp [run]

theorem run_append (step : σ → ε → σ) (start : σ) (es fs : List ε) :
    run step start (es ++ fs) = run step (run step start es) fs :=
  List.foldl_append ..

variable {step : σ → ε → σ} {start : σ}

theorem run_induction {P : List ε → σ → Prop}
    (hstart : P [] start) (hstep : ∀ es e s, P es s → P (es ++ [e]) (step s e)) (es : List ε) :
    P es (run step start es) := by
  induction es using List.reverseRecOn with
  | nil => exact hstart
  | append_singleton es e ih =>
    rw [run_snoc]
    exact hstep es e _ ih

/-- Every label of a list is allowed in the state in which it is used. -/
def Allowed (allowed : σ → ε → Prop) (step : σ → ε → σ) (start : σ) (labels : List ε) : Prop :=
  ∀ before e after, labels = before ++ e :: after → allowed (run step start before) e

theorem allowed_nil (allowed : σ → ε → Prop) (step : σ → ε → σ) (start : σ) :
    Allowed allowed step start [] := by
  intro before e after h
  cases before with
  | nil => cases h
  | cons _ _ => cases h

variable {allowed : σ → ε → Prop}

theorem allowed_cons {e : ε}
    {es : List ε} (he : allowed start e) (hes : Allowed allowed step (step start e) es) :
    Allowed allowed step start (e :: es) := by
  intro before e' after h
  cases before with
  | nil =>
    cases h
    exact he
  | cons b before =>
    obtain ⟨rfl, hrest⟩ := List.cons.inj h
    exact hes before e' after hrest

theorem allowed_append {front rest : List ε} (hfront : Allowed allowed step start front)
    (hrest : Allowed allowed step (run step start front) rest) :
    Allowed allowed step start (front ++ rest) := by
  induction front generalizing start with
  | nil => exact hrest
  | cons e front ih =>
    refine allowed_cons (hfront [] e front rfl) (ih ?_ hrest)
    intro before e' after hsplit
    exact hfront (e :: before) e' after (by rw [hsplit, List.cons_append])

theorem invariant_of_allowed
    {I : σ → Prop} (hstart : I start) (hstep : ∀ s e, I s → allowed s e → I (step s e))
    {labels : List ε} (h : Allowed allowed step start labels) :
    ∀ before after, labels = before ++ after → I (run step start before) := by
  intro before
  induction before using List.reverseRecOn with
  | nil => exact fun _ _ => hstart
  | append_singleton es e ih =>
    intro after hsplit
    rw [List.append_assoc, List.singleton_append] at hsplit
    rw [run_snoc]
    exact hstep _ e (ih (e :: after) hsplit) (h es e after hsplit)

/-- When every step keeps `I`, and a step from a good state leads to a good one exactly when it
is allowed, a run stays good exactly when all its labels are allowed. -/
theorem always_iff_allowed {I P : σ → Prop}
    (hstart : I start) (hgood : P start) (hkeep : ∀ s e, I s → I (step s e))
    (hstep : ∀ s e, I s → P s → (P (step s e) ↔ allowed s e)) (labels : List ε) :
    (∀ before after, labels = before ++ after → P (run step start before)) ↔
      Allowed allowed step start labels := by
  have hI : ∀ before, I (run step start before) :=
    run_induction (P := fun _ s => I s) hstart fun _ e s hs => hkeep s e hs
  constructor
  · intro h before e after hsplit
    have hafter := h (before ++ [e]) after (by rw [List.append_assoc]; exact hsplit)
    rw [run_snoc] at hafter
    exact (hstep _ e (hI before) (h before (e :: after) hsplit)).mp hafter
  · intro hallowed before after hsplit
    refine (invariant_of_allowed (I := fun s => I s ∧ P s) ⟨hstart, hgood⟩ ?_ hallowed before after
      hsplit).2
    intro s e hs he
    exact ⟨hkeep s e hs.1, (hstep s e hs.1 hs.2).mpr he⟩

theorem allowed_cons_iff {e : ε}
    {es : List ε} : Allowed allowed step start (e :: es) ↔
      allowed start e ∧ Allowed allowed step (step start e) es := by
  refine ⟨fun h => ⟨h [] e es rfl, ?_⟩, fun h => allowed_cons h.1 h.2⟩
  intro before e' after hsplit
  exact h (e :: before) e' after (by rw [hsplit, List.cons_append])

/-- A given run is checked label by label. -/
instance decidableAllowed [∀ s e, Decidable (allowed s e)] :
    ∀ (start : σ) (labels : List ε), Decidable (Allowed allowed step start labels)
  | start, [] => isTrue (allowed_nil allowed step start)
  | start, e :: es =>
    haveI := decidableAllowed (step start e) es
    decidable_of_iff _ allowed_cons_iff.symm

theorem allowed_congr {P Q : σ → ε → Prop} {I : σ → Prop}
    (hstart : I start) (hiff : ∀ s e, I s → (P s e ↔ Q s e))
    (hkeep : ∀ s e, I s → Q s e → I (step s e)) (labels : List ε) :
    Allowed P step start labels ↔ Allowed Q step start labels := by
  induction labels generalizing start with
  | nil => exact ⟨fun _ => allowed_nil _ _ _, fun _ => allowed_nil _ _ _⟩
  | cons e es ih =>
    rw [allowed_cons_iff, allowed_cons_iff, hiff start e hstart]
    refine and_congr_right fun he => ?_
    exact ih (hkeep start e hstart he)

end CrabbyKit.Run
