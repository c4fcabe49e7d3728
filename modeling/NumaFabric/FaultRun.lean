import NumaFabric.FaultState

/-! Runs of a step function over a list of inputs, and the induction that carries
an invariant from the first state to every state reached. -/
namespace NumaFabric.FaultRun
open FaultState

variable {σ ι : Type*}

/-- Every step of the run meets the condition in the state it starts from. -/
def Meets (step : σ → ι → σ) (cond : σ → ι → Prop) : σ → List ι → Prop
  | _, [] => True
  | s, i :: is => cond s i ∧ Meets step cond (step s i) is

instance Meets.decidable (step : σ → ι → σ) (cond : σ → ι → Prop) [∀ s i, Decidable (cond s i)] :
    ∀ s is, Decidable (Meets step cond s is)
  | _, [] => inferInstanceAs (Decidable True)
  | s, i :: is =>
    have := Meets.decidable step cond (step s i) is
    inferInstanceAs (Decidable (cond s i ∧ Meets step cond (step s i) is))

@[simp] theorem meets_nil (step : σ → ι → σ) (cond : σ → ι → Prop) (s : σ) :
    Meets step cond s [] := trivial

theorem meets_append {step : σ → ι → σ} {cond : σ → ι → Prop} {s : σ} {xs ys : List ι} :
    Meets step cond s (xs ++ ys) ↔
      Meets step cond s xs ∧ Meets step cond (xs.foldl step s) ys := by
  induction xs generalizing s with
  | nil => simp [Meets]
  | cons x xs ih => simp only [List.cons_append, Meets, ih, List.foldl_cons, and_assoc]

/-- Holds initially and is kept by every step that meets the condition, so it
holds in the state every such run ends in. -/
theorem foldl_invariant {step : σ → ι → σ} {cond : σ → ι → Prop} {inv : σ → Prop}
    (keep : ∀ s i, inv s → cond s i → inv (step s i)) {s : σ} {is : List ι}
    (init : inv s) (meets : Meets step cond s is) : inv (is.foldl step s) := by
  induction is generalizing s with
  | nil => exact init
  | cons i is ih => exact ih (keep s i init meets.1) meets.2

/-- Where the condition says exactly which steps keep a property, the runs that meet it are
exactly those in which the property never fails. -/
theorem forall_prefix_iff {step : σ → ι → σ} {cond : σ → ι → Prop} {P Q : σ → Prop}
    {is : List ι} (exactly : ∀ s, ∀ i ∈ is, P s → Q s →
      P (step s i) ∧ (Q (step s i) ↔ cond s i)) {s : σ} (init : P s) (start : Q s) :
    (∀ pre, pre <+: is → Q (pre.foldl step s)) ↔ Meets step cond s is := by
  induction is generalizing s with
  | nil =>
    refine ⟨fun _ => trivial, fun _ pre before => ?_⟩
    rw [List.prefix_nil.mp before]
    exact start
  | cons i is ih =>
    obtain ⟨next, kept⟩ := exactly s i (by simp) init start
    have rest := fun holds => ih (fun t j hj => exactly t j (by simp [hj])) (s := step s i) next holds
    constructor
    · intro all
      have first := all [i] (by simp)
      refine ⟨kept.mp first, (rest first).mp fun pre before => ?_⟩
      exact all (i :: pre) (List.cons_prefix_cons.mpr ⟨rfl, before⟩)
    · rintro ⟨holds, meets⟩ pre before
      cases pre with
      | nil => exact start
      | cons j pre =>
        obtain ⟨rfl, later⟩ := List.cons_prefix_cons.mp before
        exact (rest (kept.mpr holds)).mpr meets pre later

/-- A run that fails the condition somewhere has a first step that fails it. -/
theorem meets_or_stops (step : σ → ι → σ) (cond : σ → ι → Prop) (s : σ) (is : List ι) :
    Meets step cond s is ∨ ∃ pre i post, is = pre ++ i :: post ∧ Meets step cond s pre ∧
      ¬cond (pre.foldl step s) i := by
  induction is generalizing s with
  | nil => exact .inl trivial
  | cons i is ih =>
    by_cases hi : cond s i
    · rcases ih (step s i) with all | ⟨pre, j, post, rfl, meets, stops⟩
      · exact .inl ⟨hi, all⟩
      · exact .inr ⟨i :: pre, j, post, rfl, ⟨hi, meets⟩, stops⟩
    · exact .inr ⟨[], i, is, rfl, trivial, hi⟩

/-- The condition of a run is a condition on each of its steps. -/
theorem meets_iff {step : σ → ι → σ} {cond : σ → ι → Prop} {s : σ} {is : List ι} :
    Meets step cond s is ↔ ∀ pre i, pre ++ [i] <+: is → cond (pre.foldl step s) i := by
  constructor
  · rintro meets pre i ⟨post, rfl⟩
    rw [List.append_assoc, meets_append] at meets
    exact meets.2.1
  · intro all
    rcases meets_or_stops step cond s is with meets | ⟨pre, i, post, rfl, -, stops⟩
    · exact meets
    · exact absurd (all pre i ⟨post, by simp⟩) stops

theorem meets_of_forall {step : σ → ι → σ} {cond : σ → ι → Prop} {s : σ} {is : List ι}
    (h : ∀ i ∈ is, ∀ s, cond s i) : Meets step cond s is := by
  induction is generalizing s with
  | nil => trivial
  | cons i is ih => exact ⟨h i (by simp) s, ih fun j hj => h j (by simp [hj])⟩

theorem Meets.mono {step : σ → ι → σ} {cond cond' : σ → ι → Prop} {s : σ} {is : List ι}
    (h : Meets step cond s is) (weaker : ∀ s i, cond s i → cond' s i) :
    Meets step cond' s is := by
  induction is generalizing s with
  | nil => trivial
  | cons i is ih => exact ⟨weaker s i h.1, ih h.2⟩

section Loop
variable {ε τ κ : Type} {f : κ → Fault ε τ Unit} {g : τ → κ → τ} {s : τ}

/-- The passes of a loop that return. -/
theorem run_forM_append {pre rest : List κ}
    (h : Meets g (fun s k => (f k).run s = .ok () (g s k)) s pre) :
    ((pre ++ rest).forM f).run s = (rest.forM f).run (pre.foldl g s) := by
  induction pre generalizing s with
  | nil => rfl
  | cons k pre ih =>
    change (f k >>= fun _ => (pre ++ rest).forM f).run s = _
    rw [run_bind_of_ok h.1, ih h.2, List.foldl_cons]

theorem run_forM {ks : List κ} (h : Meets g (fun s k => (f k).run s = .ok () (g s k)) s ks) :
    (ks.forM f).run s = .ok () (ks.foldl g s) := by
  have all : ((ks ++ []).forM f).run s = _ := run_forM_append h
  rw [List.append_nil] at all
  exact all

/-- A loop ends at the first pass that raises. -/
theorem run_forM_stops {pre post : List κ} {k : κ} {e : ε} {t : τ}
    (h : Meets g (fun s k => (f k).run s = .ok () (g s k)) s pre)
    (stops : (f k).run (pre.foldl g s) = .error e t) :
    ((pre ++ k :: post).forM f).run s = .error e t := by
  rw [run_forM_append h]
  exact run_bind_of_error stops

end Loop

end NumaFabric.FaultRun
