import NumaFabric.FaultRun
import NumaFabric.WorkerRegistry

/-! Boots of a registry that is also restored into. As long as the boot counter has not
wrapped and no dead worker is brought back to life under an issued boot, an incarnation
that has lost its authority never has it again. -/
namespace NumaFabric.RegistryFencing
open Std FaultState FaultRun WorkerRegistry

inductive Call
  | register (id : WorkerId) (pid : ProcessId)
  | restart (id : WorkerId) (pid : ProcessId)
  | markDead (id : WorkerId) (boot : WorkerBootId)
  | restore (w : Worker)
  deriving DecidableEq, Repr

def step (s : WorkerRegistry) : Call → WorkerRegistry
  | .register id pid => stateAfter (registerWorker id pid) s
  | .restart id pid => stateAfter (restartWorker id pid) s
  | .markDead id boot => s.markDead id boot
  | .restore w => stateAfter (WorkerRegistry.restore w) s

def run (calls : List Call) : WorkerRegistry := calls.foldl step {}

/-- The record passes the checks of `restore`, and no live worker is in its place. -/
def Restorable (s : WorkerRegistry) (w : Worker) : Prop :=
  w.id.isValid = true ∧ w.bootId.isValid = true ∧ (s.workers[w.id]?.any (·.alive)) = false

instance (s : WorkerRegistry) (w : Worker) : Decidable (Restorable s w) :=
  inferInstanceAs (Decidable (_ ∧ _))

/-- A call that issues or records a boot finds a counter that has not wrapped to zero, and
a restore that brings a known worker back to life does so under a boot not issued yet. -/
def Sound (s : WorkerRegistry) : Call → Prop
  | .register id _ => id.isValid = true → s.workers[id]? = none → s.nextBoot ≠ 0
  | .restart id _ => id.isValid = true → s.workers[id]? ≠ none → s.nextBoot ≠ 0
  | .markDead _ _ => True
  | .restore w => Restorable s w → s.nextBoot ≠ 0 ∧
      (w.alive = true → s.workers[w.id]? ≠ none → s.nextBoot ≤ w.bootId.value)

instance (s : WorkerRegistry) (c : Call) : Decidable (Sound s c) :=
  match c with
  | .register _ _ => inferInstanceAs (Decidable (_ → _))
  | .restart _ _ => inferInstanceAs (Decidable (_ → _))
  | .markDead _ _ => inferInstanceAs (Decidable True)
  | .restore _ => inferInstanceAs (Decidable (_ → _))

/-- The number was issued or recorded before now, or the counter has wrapped. -/
def Spent (s : WorkerRegistry) (boot : WorkerBootId) : Prop :=
  boot.value.toNat < s.nextBoot.toNat ∨ s.nextBoot = 0

/-- A record enters the registry: the counter moves past its boot, and if it brings a known
worker to life its boot is a new one. -/
structure Enters (s t : WorkerRegistry) (id : WorkerId) (w : Worker) : Prop where
  workers : t.workers = s.workers.insert id w
  running : s.nextBoot ≠ 0
  moved : t.nextBoot = 0 ∨ s.nextBoot.toNat ≤ t.nextBoot.toNat
  spent : Spent t w.bootId
  fresh : w.alive = true → s.workers[id]? ≠ none → s.nextBoot.toNat ≤ w.bootId.value.toNat

theorem succ_cases (n : U64) : n + 1 = 0 ∨ (n + 1).toNat = n.toNat + 1 := by
  by_cases h : n = u64Max
  · exact .inl (by rw [h]; rfl)
  · exact .inr (u64_succ (Nat.le_refl _) (value_lt_max h))

theorem enters_issued {s : WorkerRegistry} (running : s.nextBoot ≠ 0) (id : WorkerId) {w : Worker}
    (boot : w.bootId = ⟨s.nextBoot⟩) :
    Enters s { workers := s.workers.insert id w, nextBoot := s.nextBoot + 1 } id w where
  workers := rfl
  running := running
  moved := (succ_cases s.nextBoot).imp_right fun h => by dsimp only; omega
  spent := by
    rw [Spent, boot]
    rcases succ_cases s.nextBoot with wrapped | next
    · exact .inr wrapped
    · exact .inl (by dsimp only; omega)
  fresh _ _ := by rw [boot]

theorem moved_reinstated (w : Worker) (s : WorkerRegistry) :
    (reinstated w s).nextBoot = 0 ∨ s.nextBoot.toNat ≤ (reinstated w s).nextBoot.toNat := by
  by_cases behind : s.nextBoot ≤ w.bootId.value
  · rw [reinstated, if_pos behind]
    exact (succ_cases w.bootId.value).imp_right fun h => by
      have := BitVec.le_def.mp behind
      dsimp only
      omega
  · rw [reinstated, if_neg behind]
    exact .inr (Nat.le_refl _)

theorem spent_reinstated (w : Worker) (s : WorkerRegistry) : Spent (reinstated w s) w.bootId := by
  by_cases behind : s.nextBoot ≤ w.bootId.value
  · rw [Spent, reinstated, if_pos behind]
    rcases succ_cases w.bootId.value with wrapped | next
    · exact .inr wrapped
    · exact .inl (by dsimp only; omega)
  · rw [Spent, reinstated, if_neg behind]
    exact .inl (BitVec.lt_def.mp (BitVec.not_le.mp behind))

theorem enters_reinstated {s : WorkerRegistry} (running : s.nextBoot ≠ 0) {w : Worker}
    (fresh : w.alive = true → s.workers[w.id]? ≠ none → s.nextBoot ≤ w.bootId.value) :
    Enters s (reinstated w s) w.id w where
  workers := rfl
  running := running
  moved := moved_reinstated w s
  spent := spent_reinstated w s
  fresh alive known := BitVec.le_def.mp (fresh alive known)

/-- What a call that meets the condition can do: nothing, let a worker die, or enter a
record. -/
theorem step_cases {s : WorkerRegistry} {c : Call} (sound : Sound s c) :
    step s c = s ∨
    (∃ id w, s.workers[id]? = some w ∧
      step s c = { s with workers := s.workers.insert id { w with alive := false } }) ∨
    ∃ id w, Enters s (step s c) id w := by
  cases c with
  | register id pid =>
    rcases registerWorker_cases id pid s with same | ⟨valid, absent, issued⟩
    · exact .inl same
    · rw [step, issued]
      exact .inr (.inr ⟨id, _, enters_issued (sound valid absent) id rfl⟩)
  | restart id pid =>
    rcases restartWorker_cases id pid s with same | ⟨w, valid, found, issued⟩
    · exact .inl same
    · rw [step, issued]
      exact .inr (.inr ⟨id, _, enters_issued (sound valid (by rw [found]; simp)) id rfl⟩)
  | markDead id boot =>
    rw [step, WorkerRegistry.markDead]
    cases found : s.workers[id]? with
    | none => exact .inl rfl
    | some w =>
      dsimp only
      split_ifs
      · exact .inr (.inl ⟨id, w, found, rfl⟩)
      · exact .inl rfl
  | restore w =>
    rw [step, stateAfter, restore_run]
    by_cases invalid : (!w.id.isValid || !w.bootId.isValid) = true
    · rw [if_pos invalid]
      exact .inl rfl
    · rw [if_neg invalid]
      by_cases live : s.workers[w.id]?.any (·.alive) = true
      · rw [if_pos live]
        exact .inl rfl
      · rw [if_neg live]
        simp only [Bool.or_eq_true, Bool.not_eq_true', not_or, Bool.not_eq_false] at invalid
        obtain ⟨running, fresh⟩ := sound ⟨invalid.1, invalid.2, Bool.eq_false_iff.mpr live⟩
        exact .inr (.inr ⟨w.id, w, enters_reinstated running fresh⟩)

theorem validateBoot_insert {s t : WorkerRegistry} {id : WorkerId} {w : Worker}
    (h : t.workers = s.workers.insert id w) (v : WorkerId) (boot : WorkerBootId) :
    t.validateBoot v boot = if v = id then w.alive && w.bootId == boot else s.validateBoot v boot := by
  rw [validateBoot, h]
  by_cases hv : v = id
  · rw [if_pos hv, hv, ExtTreeMap.getElem?_insert_self]
  · rw [if_neg hv, ExtTreeMap.getElem?_insert,
      if_neg fun hc => hv (Std.compare_eq_iff_eq.mp hc).symm, validateBoot]

/-- A worker that is known, and a boot that is spent. -/
structure Known (s : WorkerRegistry) (w : WorkerId) (boot : WorkerBootId) : Prop where
  known : s.workers[w]? ≠ none
  spent : Spent s boot

/-- Known, and without authority. -/
structure Fenced (s : WorkerRegistry) (w : WorkerId) (boot : WorkerBootId) : Prop
    extends Known s w boot where
  refused : s.validateBoot w boot = false

/-- Every live incarnation has a spent boot. -/
def BootsSpent (s : WorkerRegistry) : Prop :=
  ∀ (id : WorkerId) (w : Worker), s.workers[id]? = some w → w.alive = true → Spent s w.bootId

theorem known_insert {s : WorkerRegistry} {v : WorkerId} (known : s.workers[v]? ≠ none)
    (id : WorkerId) (w : Worker) : (s.workers.insert id w)[v]? ≠ none := by
  rw [ExtTreeMap.getElem?_insert]
  split_ifs
  · simp
  · exact known

theorem Enters.keeps {s t : WorkerRegistry} {id : WorkerId} {w : Worker} (h : Enters s t id w)
    {boot : WorkerBootId} (spent : Spent s boot) : Spent t boot := by
  rcases h.moved with wrapped | further
  · exact .inr wrapped
  · exact .inl (Nat.lt_of_lt_of_le (spent.resolve_right h.running) further)

theorem BootsSpent.step {s : WorkerRegistry} {c : Call} (h : BootsSpent s) (sound : Sound s c) :
    BootsSpent (step s c) := by
  rcases step_cases sound with same | ⟨id, w, -, died⟩ | ⟨id, w, enters⟩
  · rw [same]
    exact h
  · rw [died]
    intro v x found alive
    rw [ExtTreeMap.getElem?_insert] at found
    split_ifs at found
    · cases found
      cases alive
    · exact h v x found alive
  · intro v x found alive
    rw [enters.workers, ExtTreeMap.getElem?_insert] at found
    split_ifs at found
    · cases found
      exact enters.spent
    · exact enters.keeps (h v x found alive)

theorem Known.step {s : WorkerRegistry} {c : Call} {v : WorkerId} {boot : WorkerBootId}
    (h : Known s v boot) (sound : Sound s c) : Known (step s c) v boot := by
  rcases step_cases sound with same | ⟨id, w, -, died⟩ | ⟨id, w, enters⟩
  · rw [same]
    exact h
  · rw [died]
    exact ⟨known_insert h.known id _, h.spent⟩
  · refine ⟨?_, enters.keeps h.spent⟩
    rw [enters.workers]
    exact known_insert h.known id w

/-- A fenced boot stays fenced, since only unspent boots come to life. -/
theorem Fenced.step {s : WorkerRegistry} {c : Call} {v : WorkerId} {boot : WorkerBootId}
    (h : Fenced s v boot) (sound : Sound s c) : Fenced (step s c) v boot where
  toKnown := h.toKnown.step sound
  refused := by
    rcases step_cases sound with same | ⟨id, w, -, died⟩ | ⟨id, w, enters⟩
    · rw [same]
      exact h.refused
    · rw [validateBoot_insert (by rw [died]) v boot]
      split_ifs
      · rfl
      · exact h.refused
    · rw [validateBoot_insert enters.workers v boot]
      split_ifs with hv
      · subst hv
        cases alive : w.alive with
        | false => rfl
        | true =>
          have fresh := enters.fresh alive h.known
          have spent := h.spent.resolve_right enters.running
          rw [Bool.true_and, beq_eq_false_iff_ne]
          rintro rfl
          omega
      · exact h.refused

theorem bootsSpent_run {calls : List Call} (meets : Meets step Sound {} calls) :
    BootsSpent (run calls) := by
  have start : BootsSpent {} := by
    intro id w found
    rw [ExtTreeMap.getElem?_empty] at found
    cases found
  exact @foldl_invariant _ _ step Sound BootsSpent (fun _ _ h sound => h.step sound) _ _ start meets

/-- What a registry validates is known and spent. -/
theorem known_of_validateBoot {s : WorkerRegistry} (h : BootsSpent s) {v : WorkerId}
    {boot : WorkerBootId} (valid : s.validateBoot v boot = true) : Known s v boot := by
  rw [validateBoot] at valid
  cases found : s.workers[v]? with
  | none =>
    rw [found] at valid
    cases valid
  | some w =>
    simp only [found, Bool.and_eq_true, beq_iff_eq] at valid
    obtain ⟨alive, rfl⟩ := valid
    exact ⟨by rw [found]; simp, h v w found alive⟩

/-- In a run that meets the condition, a pair that was validated and then refused is refused
ever after. -/
theorem refused_stays_refused {before between after : List Call}
    (meets : Meets step Sound {} (before ++ between ++ after)) {w : WorkerId} {boot : WorkerBootId}
    (live : (run before).validateBoot w boot = true)
    (lost : (run (before ++ between)).validateBoot w boot = false) :
    (run (before ++ between ++ after)).validateBoot w boot = false := by
  obtain ⟨early, late⟩ := meets_append.mp meets
  obtain ⟨first, second⟩ := meets_append.mp early
  have known := known_of_validateBoot (bootsSpent_run first) live
  have still : Known (run (before ++ between)) w boot := by
    rw [run, List.foldl_append]
    exact @foldl_invariant _ _ step Sound (fun s => Known s w boot) (fun _ _ h sound => h.step sound)
      _ _ known second
  have fenced : Fenced (run (before ++ between ++ after)) w boot := by
    rw [run, List.foldl_append]
    exact @foldl_invariant _ _ step Sound (fun s => Fenced s w boot) (fun _ _ h sound => h.step sound)
      _ _ ⟨still, lost⟩ late
  exact fenced.refused

theorem refused_stays_refused_after_restart :
    (run ([.register ⟨1⟩ ⟨7⟩] ++ [.restart ⟨1⟩ ⟨8⟩] ++
      [.markDead ⟨1⟩ ⟨2⟩, .restore { id := ⟨1⟩, bootId := ⟨9⟩ }])).validateBoot ⟨1⟩ ⟨1⟩ = false :=
  refused_stays_refused (by decide) (by decide) (by decide)

/-- A restored record brings back a boot that was marked dead. -/
theorem restore_revives_dead_boot :
    ¬ ∀ (before between after : List Call) (w : WorkerId) (boot : WorkerBootId),
      (run before).validateBoot w boot = true →
      (run (before ++ between)).validateBoot w boot = false →
      (run (before ++ between ++ after)).validateBoot w boot = false := by
  intro fenced
  have refused := fenced [.register ⟨1⟩ ⟨7⟩] [.markDead ⟨1⟩ ⟨1⟩]
    [.restore { id := ⟨1⟩, bootId := ⟨1⟩, incarnation := 1, alive := true }] ⟨1⟩ ⟨1⟩ (by decide)
    (by decide)
  revert refused
  decide

end NumaFabric.RegistryFencing
