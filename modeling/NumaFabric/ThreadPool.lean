import NumaFabric.FaultRun

/-! Any number of threads that take turns on a shared state. A thread is where it stands
between two of its atomic actions; what it knows of the shared state has to survive the
turns of the others. -/
namespace NumaFabric.ThreadPool
open FaultRun

variable {ι σ τ κ : Type*}

structure Pool (ι σ τ : Type*) where
  shared : σ
  threads : ι → τ

namespace Pool
variable [DecidableEq ι]

/-- One thread has moved. -/
def put (s : Pool ι σ τ) (i : ι) (t : τ) (shared : σ) : Pool ι σ τ :=
  { shared, threads := Function.update s.threads i t }

variable (s : Pool ι σ τ) (i : ι) (t u : τ) (a b : σ)

@[simp] theorem put_shared : (s.put i t a).shared = a := rfl

@[simp] theorem put_threads_self : (s.put i t a).threads i = t := by simp [put]

theorem put_threads_of_ne {j : ι} (other : j ≠ i) : (s.put i t a).threads j = s.threads j := by
  simp [put, other]

@[simp] theorem put_put : (s.put i t a).put i u b = s.put i u b := by simp [put]

@[simp] theorem put_self : s.put i (s.threads i) s.shared = s := by simp [put]

/-- A property of one thread and the shared state that the moving thread establishes and
the others keep. -/
theorem put_forall {P : τ → σ → Prop} {s : Pool ι σ τ} {i : ι} {t : τ} {a : σ} (own : P t a)
    (others : ∀ j, j ≠ i → P (s.threads j) a) (j : ι) : P ((s.put i t a).threads j) a := by
  by_cases same : j = i
  · simpa [same] using own
  · simpa [put_threads_of_ne s i t a same] using others j same

end Pool

variable [DecidableEq ι]

section Turns
variable (advance : τ → σ → τ × σ)

/-- The next action of one thread. -/
def turn (s : Pool ι σ τ) (i : ι) : Pool ι σ τ :=
  s.put i (advance (s.threads i) s.shared).1 (advance (s.threads i) s.shared).2

/-- The pool after the threads have acted in the order of the schedule. -/
def run (s : Pool ι σ τ) (schedule : List ι) : Pool ι σ τ := schedule.foldl (turn advance) s

theorem run_append (s : Pool ι σ τ) (xs ys : List ι) :
    run advance s (xs ++ ys) = run advance (run advance s xs) ys := List.foldl_append

/-- Some actions of one thread with nothing in between. -/
def solo : ℕ → τ × σ → τ × σ
  | 0, p => p
  | n + 1, p => solo n (advance p.1 p.2)

/-- A thread that is not interrupted moves nothing but itself and the shared state. -/
theorem run_replicate (n : ℕ) (s : Pool ι σ τ) (i : ι) :
    run advance s (List.replicate n i) =
      s.put i (solo advance n (s.threads i, s.shared)).1
        (solo advance n (s.threads i, s.shared)).2 := by
  induction n generalizing s with
  | zero => simp [run, solo]
  | succ n ih =>
    change run advance (turn advance s i) (List.replicate n i) = _
    simp [ih, turn, solo]

/-- A quantity of a thread that each of its own actions lowers is used up by its turns,
whatever the other threads do. -/
theorem measure_run {f : τ → ℕ} (lowers : ∀ t a, f (advance t a).1 ≤ f t - 1) (s : Pool ι σ τ)
    (i : ι) (schedule : List ι) :
    f ((run advance s schedule).threads i) ≤ f (s.threads i) - schedule.count i := by
  induction schedule generalizing s with
  | nil => simp [run]
  | cons j rest ih =>
    have later := ih (turn advance s j)
    change f ((run advance (turn advance s j) rest).threads i) ≤ _
    by_cases same : j = i
    · subst same
      have moved : (turn advance s j).threads j = (advance (s.threads j) s.shared).1 :=
        Pool.put_threads_self s j _ _
      have now := lowers (s.threads j) s.shared
      rw [moved] at later
      simp only [List.count_cons_self]
      omega
    · have kept : (turn advance s j).threads i = s.threads i :=
        Pool.put_threads_of_ne s j _ _ (Ne.symm same)
      rw [kept] at later
      simpa [List.count_cons_of_ne same] using later

end Turns

/-- No two threads claim the same thing. -/
def Exclusive (claim : ι → Option κ) : Prop :=
  ∀ i j k, claim i = some k → claim j = some k → i = j

/-- A thread may keep its claim, drop it, or claim what no thread does. -/
theorem Exclusive.put {f : τ → Option κ} {s : Pool ι σ τ} (h : Exclusive fun j => f (s.threads j))
    {i : ι} {t : τ} {a : σ}
    (new : ∀ k, f t = some k → f (s.threads i) = some k ∨ ∀ j, f (s.threads j) ≠ some k) :
    Exclusive fun j => f ((s.put i t a).threads j) := by
  have others : ∀ j k, j ≠ i → f t = some k → f (s.threads j) ≠ some k := by
    intro j k other claims both
    rcases new k claims with old | free
    · exact other (h j i k both old)
    · exact free j both
  intro p q k hp hq
  by_cases hpi : p = i <;> by_cases hqi : q = i
  · rw [hpi, hqi]
  · simp only [hpi, Pool.put_threads_self] at hp
    simp only [Pool.put_threads_of_ne s i t a hqi] at hq
    exact absurd hq (others q k hqi hp)
  · simp only [hqi, Pool.put_threads_self] at hq
    simp only [Pool.put_threads_of_ne s i t a hpi] at hp
    exact absurd hp (others p k hpi hq)
  · simp only [Pool.put_threads_of_ne s i t a hpi] at hp
    simp only [Pool.put_threads_of_ne s i t a hqi] at hq
    exact h p q k hp hq

end NumaFabric.ThreadPool
