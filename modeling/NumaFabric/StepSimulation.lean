import Mathlib

/-! A machine whose every step is some steps of another one, or none: its runs are runs of
the other, and what the steps of the other keep holds of them. -/
namespace NumaFabric.StepSimulation
open Relation

variable {σ τ ι : Type*} {step : σ → ι → σ} {next : τ → τ → Prop} {R : σ → τ → Prop}
  {inv : τ → Prop}

/-- What every step keeps holds at the end of a run. -/
theorem steps_invariant (keep : ∀ t u, inv t → next t u → inv u) {t u : τ} (init : inv t)
    (steps : ReflTransGen next t u) : inv u := by
  induction steps with
  | refl => exact init
  | tail _ last ih => exact keep _ _ ih last

/-- Related states stay related along a run. -/
theorem simulates (each : ∀ s t i, R s t → ∃ u, ReflTransGen next t u ∧ R (step s i) u) {s : σ}
    {t : τ} (init : R s t) (is : List ι) :
    ∃ u, ReflTransGen next t u ∧ R (is.foldl step s) u := by
  induction is generalizing s t with
  | nil => exact ⟨t, .refl, init⟩
  | cons i is ih =>
    obtain ⟨u, first, related⟩ := each s t i init
    obtain ⟨v, rest, ended⟩ := ih related
    exact ⟨v, first.trans rest, ended⟩

/-- A run ends in a state related to one that the invariant holds of. -/
theorem simulates_invariant
    (each : ∀ s t i, R s t → ∃ u, ReflTransGen next t u ∧ R (step s i) u)
    (keep : ∀ t u, inv t → next t u → inv u) {s : σ} {t : τ} (related : R s t) (init : inv t)
    (is : List ι) : ∃ u, R (is.foldl step s) u ∧ inv u := by
  obtain ⟨u, steps, ended⟩ := simulates each related is
  exact ⟨u, ended, steps_invariant keep init steps⟩

end NumaFabric.StepSimulation
