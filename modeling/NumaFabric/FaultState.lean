import Mathlib

/-! Computations that update a state and may raise. A raised error keeps every
write made before it, so nothing is rolled back unless the program does it. -/
namespace NumaFabric.FaultState

abbrev Fault (ε σ α : Type) := EStateM ε σ α

variable {ε σ τ α β : Type}

/-- The state left behind, whether the computation returned or raised. -/
def stateAfter (x : Fault ε σ α) (s : σ) : σ :=
  match x.run s with
  | .ok _ t => t
  | .error _ t => t

def throwIf (c : Bool) (e : ε) : Fault ε σ Unit := if c then throw e else pure ()

/-- Run a computation on one component of a larger state. -/
def zoom (get : σ → τ) (put : σ → τ → σ) (x : Fault ε τ α) : Fault ε σ α := fun s =>
  match x.run (get s) with
  | .ok a t => .ok a (put s t)
  | .error e t => .error e (put s t)

@[simp] theorem run_throw_any (e : ε) (s : σ) : (throw e : Fault ε σ α).run s = .error e s := rfl

theorem run_throwIf (c : Bool) (e : ε) (s : σ) :
    (throwIf c e : Fault ε σ Unit).run s = if c then .error e s else .ok () s := by
  cases c <;> rfl

@[simp] theorem run_throwIf_true (e : ε) (s : σ) :
    (throwIf true e : Fault ε σ Unit).run s = .error e s := rfl

@[simp] theorem run_throwIf_false (e : ε) (s : σ) :
    (throwIf false e : Fault ε σ Unit).run s = .ok () s := rfl

@[simp] theorem run_ofExcept_ok (a : α) (s : σ) :
    (MonadExcept.ofExcept (.ok a : Except ε α) : Fault ε σ α).run s = .ok a s := rfl

@[simp] theorem run_ofExcept_error (e : ε) (s : σ) :
    (MonadExcept.ofExcept (.error e : Except ε α) : Fault ε σ α).run s = .error e s := rfl

theorem run_tryCatch (x : Fault ε σ α) (handle : ε → Fault ε σ α) (s : σ) :
    (tryCatch x handle).run s =
      match x.run s with
      | .ok a t => .ok a t
      | .error e t => (handle e).run t := by
  change EStateM.tryCatch x handle s = _
  unfold EStateM.tryCatch EStateM.run
  cases x s <;> rfl

theorem run_zoom (get : σ → τ) (put : σ → τ → σ) (x : Fault ε τ α) (s : σ) :
    (zoom get put x).run s =
      match x.run (get s) with
      | .ok a t => .ok a (put s t)
      | .error e t => .error e (put s t) := rfl

theorem run_bind_of_ok {x : Fault ε σ α} {f : α → Fault ε σ β} {s t : σ} {a : α}
    (h : x.run s = .ok a t) : (x >>= f).run s = (f a).run t := by
  rw [EStateM.run_bind, h]

theorem run_bind_of_error {x : Fault ε σ α} {f : α → Fault ε σ β} {s t : σ} {e : ε}
    (h : x.run s = .error e t) : (x >>= f).run s = .error e t := by
  rw [EStateM.run_bind, h]

/-- A composition returns exactly when both parts do. -/
theorem run_bind_eq_ok {x : Fault ε σ α} {f : α → Fault ε σ β} {s t : σ} {b : β} :
    (x >>= f).run s = .ok b t ↔ ∃ a u, x.run s = .ok a u ∧ (f a).run u = .ok b t := by
  constructor
  · intro h
    cases hx : x.run s with
    | ok a u => exact ⟨a, u, rfl, by rwa [run_bind_of_ok hx] at h⟩
    | error e u =>
      rw [run_bind_of_error hx] at h
      cases h
  · rintro ⟨a, u, hx, hf⟩
    rw [run_bind_of_ok hx, hf]

theorem run_throwIf_eq_ok {c : Bool} {e : ε} {s t : σ} {u : Unit} :
    (throwIf c e : Fault ε σ Unit).run s = .ok u t ↔ c = false ∧ s = t := by
  cases c
  · simp
  · simp

theorem run_pure_eq_ok {a b : α} {s t : σ} :
    (pure a : Fault ε σ α).run s = .ok b t ↔ a = b ∧ s = t := by
  simp

theorem stateAfter_of_ok {x : Fault ε σ α} {s t : σ} {a : α} (h : x.run s = .ok a t) :
    stateAfter x s = t := by
  rw [stateAfter, h]

theorem stateAfter_of_error {x : Fault ε σ α} {s t : σ} {e : ε} (h : x.run s = .error e t) :
    stateAfter x s = t := by
  rw [stateAfter, h]

theorem stateAfter_zoom (get : σ → τ) (put : σ → τ → σ) (x : Fault ε τ α) (s : σ) :
    stateAfter (zoom get put x) s = put s (stateAfter x (get s)) := by
  rw [stateAfter, run_zoom, stateAfter]
  cases x.run (get s) <;> rfl

section Quiet

/-- The computation may return or raise, but writes nothing. -/
def Quiet (x : Fault ε σ α) : Prop := ∀ s, stateAfter x s = s

theorem quiet_ofExcept (x : Except ε α) : Quiet (MonadExcept.ofExcept x : Fault ε σ α) := by
  intro s
  cases x <;> rfl

/-- What follows without writing does not show in the state. -/
theorem stateAfter_bind_quiet {x : Fault ε σ α} {f : α → Fault ε σ β} (h : ∀ a, Quiet (f a)) (s : σ) :
    stateAfter (x >>= f) s = stateAfter x s := by
  cases hx : x.run s with
  | ok a t =>
    rw [stateAfter_of_ok hx, stateAfter, run_bind_of_ok hx]
    exact h a t
  | error e t => rw [stateAfter_of_error hx, stateAfter_of_error (run_bind_of_error hx)]

theorem stateAfter_tryCatch_quiet {x : Fault ε σ α} {handle : ε → Fault ε σ α}
    (h : ∀ e, Quiet (handle e)) (s : σ) : stateAfter (tryCatch x handle) s = stateAfter x s := by
  rw [stateAfter, run_tryCatch]
  cases hx : x.run s with
  | ok a t => rw [stateAfter_of_ok hx]
  | error e t =>
    rw [stateAfter_of_error hx]
    exact h e t

end Quiet

section Preserves
variable {R : σ → σ → Prop}

/-- Whether it returns or raises, the computation relates its first state to its last. -/
def Preserves (R : σ → σ → Prop) (x : Fault ε σ α) : Prop := ∀ s, R s (stateAfter x s)

theorem Preserves.pure [Std.Refl R] (a : α) : Preserves R (pure a : Fault ε σ α) :=
  fun s => Std.Refl.refl s

theorem Preserves.throw [Std.Refl R] (e : ε) : Preserves R (throw e : Fault ε σ α) :=
  fun s => Std.Refl.refl s

theorem Preserves.get [Std.Refl R] : Preserves R (get : Fault ε σ σ) := fun s => Std.Refl.refl s

theorem Preserves.throwIf [Std.Refl R] (c : Bool) (e : ε) :
    Preserves R (throwIf c e : Fault ε σ Unit) := by
  cases c
  · exact Preserves.pure ()
  · exact Preserves.throw e

theorem Preserves.ofExcept [Std.Refl R] (x : Except ε α) :
    Preserves R (MonadExcept.ofExcept x : Fault ε σ α) := by
  cases x
  · exact Preserves.throw _
  · exact Preserves.pure _

theorem Preserves.modify {f : σ → σ} (h : ∀ s, R s (f s)) :
    Preserves R (modify f : Fault ε σ Unit) := h

theorem Preserves.bind [IsTrans σ R] {x : Fault ε σ α} {f : α → Fault ε σ β} (hx : Preserves R x)
    (hf : ∀ a, Preserves R (f a)) : Preserves R (x >>= f) := by
  intro s
  have first := hx s
  cases h : x.run s with
  | ok a t =>
    rw [stateAfter_of_ok h] at first
    have second := hf a t
    rw [stateAfter, run_bind_of_ok h]
    exact IsTrans.trans _ _ _ first second
  | error e t =>
    rw [stateAfter_of_error h] at first
    rw [stateAfter_of_error (run_bind_of_error h)]
    exact first

theorem Preserves.tryCatch [IsTrans σ R] {x : Fault ε σ α} {handle : ε → Fault ε σ α}
    (hx : Preserves R x) (hh : ∀ e, Preserves R (handle e)) :
    Preserves R (tryCatch x handle) := by
  intro s
  have first := hx s
  rw [stateAfter, run_tryCatch]
  cases h : x.run s with
  | ok a t => rw [stateAfter_of_ok h] at first; exact first
  | error e t =>
    rw [stateAfter_of_error h] at first
    exact IsTrans.trans _ _ _ first (hh e t)

theorem Preserves.zoom {Q : τ → τ → Prop} {get : σ → τ} {put : σ → τ → σ} {x : Fault ε τ α}
    (hx : Preserves Q x) (h : ∀ s t, Q (get s) t → R s (put s t)) :
    Preserves R (zoom get put x) := by
  intro s
  rw [stateAfter_zoom]
  exact h s _ (hx (get s))

end Preserves

end NumaFabric.FaultState
