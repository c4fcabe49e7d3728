import Mathlib

/-! Tokens that are issued in order, held by one owner at a time and spent at most once. -/
namespace NumaFabric.TokenOwnership

variable {ι : Type*} {own own' : ι → Option ℕ} {spent : List ℕ} {issued : ℕ}

/-- No two owners hold the same token, and no token is held and spent, or spent twice. -/
structure Sole (own : ι → Option ℕ) (spent : List ℕ) (issued : ℕ) : Prop where
  single : ∀ o p t, own o = some t → own p = some t → o = p
  unspent : ∀ o t, own o = some t → t ∉ spent
  once : spent.Nodup
  heldIssued : ∀ o t, own o = some t → t ≤ issued
  spentIssued : ∀ t ∈ spent, t ≤ issued

theorem Sole.empty : Sole (fun _ : ι => none) [] issued := by
  constructor <;> simp

/-- Tokens that were issued and lost change nothing. -/
theorem Sole.mono (h : Sole own spent issued) {k : ℕ} (le : issued ≤ k) : Sole own spent k :=
  ⟨h.single, h.unspent, h.once, fun o t ho => (h.heldIssued o t ho).trans le,
    fun t ht => (h.spentIssued t ht).trans le⟩

/-- Owners that are renamed one to one, or let go, keep what they hold. -/
theorem Sole.reindex {κ : Type*} {own' : κ → Option ℕ} (h : Sole own spent issued) (f : κ → ι)
    (inj : ∀ o p t, own' o = some t → own' p = some t → f o = f p → o = p)
    (held : ∀ o t, own' o = some t → own (f o) = some t) : Sole own' spent issued where
  single o p t ho hp := inj o p t ho hp (h.single _ _ t (held o t ho) (held p t hp))
  unspent o t ho := h.unspent _ t (held o t ho)
  once := h.once
  heldIssued o t ho := h.heldIssued _ t (held o t ho)
  spentIssued := h.spentIssued

theorem Sole.subset (h : Sole own spent issued) (held : ∀ o t, own' o = some t → own o = some t) :
    Sole own' spent issued :=
  h.reindex id (fun _ _ _ _ _ same => same) held

variable [DecidableEq ι]

theorem Sole.drop (h : Sole own spent issued) (o : ι) :
    Sole (Function.update own o none) spent issued := by
  apply h.subset
  intro p t hp
  by_cases hpo : p = o
  · simp [hpo] at hp
  · simpa [hpo] using hp

/-- The owner of a token spends it. -/
theorem Sole.spend (h : Sole own spent issued) {o : ι} {t : ℕ} (held : own o = some t) :
    Sole (Function.update own o none) (spent ++ [t]) issued where
  single := (h.drop o).single
  unspent p u hp := by
    by_cases hpo : p = o
    · simp [hpo] at hp
    · rw [Function.update_of_ne hpo] at hp
      have other : u ≠ t := by
        rintro rfl
        exact hpo (h.single p o u hp held)
      simpa [other] using h.unspent p u hp
  once := by
    refine List.nodup_append.mpr ⟨h.once, List.nodup_singleton t, ?_⟩
    intro u hu v hv
    rw [List.mem_singleton.mp hv]
    rintro rfl
    exact h.unspent o u held hu
  heldIssued := (h.drop o).heldIssued
  spentIssued u hu := by
    rcases List.mem_append.mp hu with old | new
    · exact h.spentIssued u old
    · rw [List.mem_singleton.mp new]
      exact h.heldIssued o t held

/-- A token is issued to an owner that had none, or lets its own go. -/
theorem Sole.issue (h : Sole own spent issued) (o : ι) :
    Sole (Function.update own o (some (issued + 1))) spent (issued + 1) where
  single p q t hp hq := by
    by_cases hpo : p = o <;> by_cases hqo : q = o
    · rw [hpo, hqo]
    · simp only [hpo, Function.update_self, Option.some.injEq] at hp
      rw [Function.update_of_ne hqo] at hq
      have := h.heldIssued q t hq
      omega
    · simp only [hqo, Function.update_self, Option.some.injEq] at hq
      rw [Function.update_of_ne hpo] at hp
      have := h.heldIssued p t hp
      omega
    · rw [Function.update_of_ne hpo] at hp
      rw [Function.update_of_ne hqo] at hq
      exact h.single p q t hp hq
  unspent p t hp ht := by
    by_cases hpo : p = o
    · simp only [hpo, Function.update_self, Option.some.injEq] at hp
      have := h.spentIssued t ht
      omega
    · rw [Function.update_of_ne hpo] at hp
      exact h.unspent p t hp ht
  once := h.once
  heldIssued p t hp := by
    by_cases hpo : p = o
    · simp only [hpo, Function.update_self, Option.some.injEq] at hp
      omega
    · rw [Function.update_of_ne hpo] at hp
      have := h.heldIssued p t hp
      omega
  spentIssued t ht := by
    have := h.spentIssued t ht
    omega

/-- A token passes from its owner to another that had none, or lets its own go. -/
theorem Sole.pass (h : Sole own spent issued) {o p : ι} {t : ℕ} (held : own o = some t) :
    Sole (Function.update (Function.update own o none) p (some t)) spent issued := by
  -- the new owner stands where the old one stood, every other owner where it was
  refine h.reindex (fun q => if q = p then o else q) ?_ ?_
  · intro q q' u hq hq' same
    by_cases hqp : q = p <;> by_cases hqp' : q' = p
    · rw [hqp, hqp']
    · simp only [hqp, hqp', if_true, if_false] at same
      rw [Function.update_of_ne hqp', ← same, Function.update_self] at hq'
      cases hq'
    · simp only [hqp, hqp', if_true, if_false] at same
      rw [Function.update_of_ne hqp, same, Function.update_self] at hq
      cases hq
    · simpa [hqp, hqp'] using same
  · intro q u hq
    by_cases hqp : q = p
    · subst hqp
      simp only [Function.update_self, Option.some.injEq] at hq
      rw [if_pos rfl, held, hq]
    · rw [Function.update_of_ne hqp] at hq
      by_cases hqo : q = o
      · simp [hqo] at hq
      · rw [Function.update_of_ne hqo] at hq
        simpa [hqp] using hq

end NumaFabric.TokenOwnership
