import Mathlib.Tactic.TypeStar

/-!
# Noninterference

What one party sees of a state, and what the other parties own in it. A computation is confined
when states that look the same to the party give the same result and look the same afterwards, and
when nothing of the others has changed.
-/

namespace CrabbyKit.Noninterference

variable {σ ρ ρ' : Type*}

/-- Two states look the same to a party; a step from one state to another keeps what the other
parties own. -/
structure View (σ : Type*) where
  same : σ → σ → Prop
  kept : σ → σ → Prop
  kept_refl : ∀ s, kept s s
  kept_trans : ∀ {s t u}, kept s t → kept t u → kept s u

/-- A computation at a state, and at all states that look the same. -/
def Confined (view : View σ) (f : σ → ρ × σ) (s : σ) : Prop :=
  ∀ s', view.same s s' →
    (f s').1 = (f s).1 ∧ view.same (f s).2 (f s').2 ∧ view.kept s' (f s').2

variable {view : View σ} {s : σ}

theorem confined_read {g : σ → ρ} (h : ∀ s', view.same s s' → g s' = g s) :
    Confined view (fun s => (g s, s)) s :=
  fun s' hs => ⟨h s' hs, hs, view.kept_refl s'⟩

theorem confined_write {result : ρ} {g : σ → σ}
    (hsame : ∀ s', view.same s s' → view.same (g s) (g s'))
    (hkept : ∀ s', view.same s s' → view.kept s' (g s')) :
    Confined view (fun s => (result, g s)) s :=
  fun s' hs => ⟨rfl, hsame s' hs, hkept s' hs⟩

theorem confined_bind {f : σ → ρ × σ} {g : ρ → σ → ρ' × σ} (hf : Confined view f s)
    (hg : Confined view (g (f s).1) (f s).2) : Confined view (fun s => g (f s).1 (f s).2) s := by
  intro s' hs
  obtain ⟨hresult, hsame, hkept⟩ := hf s' hs
  obtain ⟨hresult', hsame', hkept'⟩ := hg _ hsame
  simp only [hresult]
  exact ⟨hresult', hsame', view.kept_trans hkept hkept'⟩

theorem confined_map {f : σ → ρ × σ} (g : ρ → ρ') (hf : Confined view f s) :
    Confined view (fun s => (g (f s).1, (f s).2)) s := by
  intro s' hs
  obtain ⟨hresult, hsame, hkept⟩ := hf s' hs
  exact ⟨congrArg g hresult, hsame, hkept⟩

theorem confined_ite {c : σ → Prop} [DecidablePred c] {f g : σ → ρ × σ}
    (hc : ∀ s', view.same s s' → (c s' ↔ c s)) (hf : c s → Confined view f s)
    (hg : ¬c s → Confined view g s) : Confined view (fun s => if c s then f s else g s) s := by
  intro s' hs
  by_cases h : c s
  · simp only [if_pos h, if_pos ((hc s' hs).mpr h)]
    exact hf h s' hs
  · simp only [if_neg h, if_neg (mt (hc s' hs).mp h)]
    exact hg h s' hs

theorem confined_congr {f g : σ → ρ × σ} (hs : view.same s s)
    (h : ∀ s', view.same s s' → f s' = g s') : Confined view f s ↔ Confined view g s := by
  apply forall_congr'
  intro s'
  apply forall_congr'
  intro hsame
  rw [h s' hsame, h s hs]

end CrabbyKit.Noninterference
