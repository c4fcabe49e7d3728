import NumaFabric.BindingCoverage
import NumaFabric.CounterHistory

/-! The identities of bindings over a run. The counter they are taken from never moves, so
every binding has the same one; the generations of an incarnation do rise, as long as no
file takes them back. -/
namespace NumaFabric.BindingIdentities
open Std FaultState FaultRun RuntimeFrames BindingCoverage CounterHistory
open NumaFabric.Runtime

variable {β : Type}

/-- What a successful call of `bind_worker` was asked for and returned. -/
structure Binding where
  worker : WorkerId
  boot : WorkerBootId
  result : BindResult
  deriving DecidableEq, Repr

/-- The binding a call makes, if it is one and returns. -/
def binding (b : Backend β) (s : Runtime β) : Op → Option Binding
  | .bindWorker id boot node applyAffinity =>
    match (bindWorker b id boot node applyAffinity).run s with
    | .ok r _ => some ⟨id, boot, r⟩
    | .error _ _ => none
  | _ => none

/-- The call binds: the boot is that of a live worker, the node is known and its affinity set can be
built, and the worker has a binding generation left. -/
def Accepts (s : Runtime β) : Op → Prop
  | .bindWorker id boot node _ =>
    s.registry.validateBoot id boot = true ∧ (s.topo.findNode node).isSome = true ∧
      (∃ set, nodeAffinity s.topo node = .ok set) ∧
      ∀ w, s.registry.find id = some w → w.bindingGeneration.value ≠ u64Max
  | _ => False

section Call
variable {s : Runtime β} {id : WorkerId} {boot : WorkerBootId} {node : NumaNodeId}

theorem find_of_validateBoot {s : WorkerRegistry} (live : s.validateBoot id boot = true) :
    ∃ w, s.find id = some w ∧ w.bootId = boot := by
  unfold WorkerRegistry.validateBoot at live
  unfold WorkerRegistry.find
  cases found : s.workers[id]? with
  | none =>
    rw [found] at live
    cases live
  | some w =>
    rw [found] at live
    exact ⟨w, rfl, by simpa using (Bool.and_eq_true_iff.mp live).2⟩

/-- What a call that returned found, and what it left. -/
structure Made (s t : Runtime β) (id : WorkerId) (boot : WorkerBootId) (r : BindResult) : Prop where
  named : r.bindingId = ⟨s.nextPlacement⟩
  worker : ∃ w, s.registry.find id = some w ∧ w.bootId = boot ∧
    w.bindingGeneration.next = .ok r.generation
  recorded : ∃ w, t.registry.find id = some w ∧ w.bootId = boot ∧ w.bindingGeneration = r.generation

/-- A call is refused, or it is accepted and makes a binding. -/
theorem bindWorker_cases (b : Backend β) (s : Runtime β) (id : WorkerId) (boot : WorkerBootId)
    (node : NumaNodeId) (applyAffinity : Bool) :
    (¬ Accepts s (.bindWorker id boot node applyAffinity) ∧
        ∃ e t, (bindWorker b id boot node applyAffinity).run s = .error e t) ∨
      Accepts s (.bindWorker id boot node applyAffinity) ∧
        ∃ r t, (bindWorker b id boot node applyAffinity).run s = .ok r t ∧ Made s t id boot r := by
  cases live : s.registry.validateBoot id boot with
  | false =>
    refine .inl ⟨fun accepts => ?_, .runtime (.staleBinding id), s, ?_⟩
    · rw [Accepts, live] at accepts
      exact Bool.false_ne_true accepts.1
    · simp only [bindWorker, EStateM.run_bind, EStateM.run_get, live, Bool.not_false, run_throwIf_true]
  | true =>
    obtain ⟨w, found, current⟩ := find_of_validateBoot live
    cases known : (s.topo.findNode node).isNone with
    | true =>
      refine .inl ⟨fun accepts => ?_, .runtime (.unknownNode node), s, ?_⟩
      · rw [← Option.not_isSome, accepts.2.1] at known
        cases known
      · simp only [bindWorker, EStateM.run_bind, EStateM.run_get, live, Bool.not_true,
          run_throwIf_false, known, run_throwIf_true]
    | false =>
      have outcome := bindWorker_outcome b applyAffinity live found known
      generalize (bindWorker b id boot node applyAffinity).run s = result at outcome ⊢
      cases outcome with
      | noSet e failed =>
        refine .inl ⟨?_, e, s, rfl⟩
        rintro ⟨-, -, ⟨set, built⟩, -⟩
        cases built.symm.trans failed
      | exhausted e t last => exact .inl ⟨fun accepts => accepts.2.2.2 w found last, e, t, rfl⟩
      | bound set r t built next named recorded =>
        have more := Generation.ne_max_of_next next
        refine .inr ⟨⟨live, by simpa using known, ⟨set, built⟩, ?_⟩, r, t, rfl, named,
          ⟨w, found, current, next⟩, _, recorded, current, rfl⟩
        intro w' found'
        rw [found, Option.some.injEq] at found'
        rwa [← found']

/-- A call makes a binding exactly when it is accepted. -/
theorem isSome_binding {b : Backend β} {op : Op} : (binding b s op).isSome = true ↔ Accepts s op := by
  cases op with
  | bindWorker id boot node applyAffinity =>
    rw [binding]
    rcases bindWorker_cases b s id boot node applyAffinity with ⟨refused, e, t, ran⟩ | ⟨accepts, r, t, ran, -⟩
    · simp [ran, refused]
    · simp [ran, accepts]
  | _ => simp [binding, Accepts]

theorem made_of_binding {b : Backend β} {probe : HostProbe β} {op : Op} {x : Binding}
    (bound : binding b s op = some x) : Made s (step b probe s op) x.worker x.boot x.result := by
  cases op with
  | bindWorker id boot node applyAffinity =>
    rw [binding] at bound
    rcases bindWorker_cases b s id boot node applyAffinity with ⟨-, e, t, ran⟩ | ⟨-, r, t, ran, made⟩
    · rw [ran] at bound
      cases bound
    · rw [ran] at bound
      cases bound
      rw [step, stateAfter_of_ok ran]
      exact made
  | _ => cases bound

end Call

section Counter

def SamePlacement (s t : Runtime β) : Prop := t.nextPlacement = s.nextPlacement

instance : Std.Refl (SamePlacement (β := β)) := ⟨fun _ => rfl⟩

instance : IsTrans (Runtime β) SamePlacement := ⟨fun _ _ _ h g => g.trans h⟩

theorem ignoresMemory_samePlacement : IgnoresMemory (SamePlacement (β := β)) := fun _ _ => rfl

theorem ignoresRegistry_samePlacement : IgnoresRegistry (SamePlacement (β := β)) := fun _ _ => rfl

theorem ignoresReservations_samePlacement : IgnoresReservations (SamePlacement (β := β)) :=
  fun _ _ => rfl

theorem samePlacement_recover (disk : Persistence.Disk) (path : ByteString) :
    Preserves (SamePlacement (β := β)) (recover disk path) := by
  refine (Preserves.ofExcept _).bind fun _ => (Preserves.modify fun s => ?_).bind fun _ =>
    (ignoresRegistry_samePlacement.onRegistry _).bind fun _ => Preserves.get.bind fun _ =>
    (ignoresReservations_samePlacement.onReservations _).bind fun _ => Preserves.modify fun s => ?_
  · exact Eq.refl s.nextPlacement
  · exact Eq.refl s.nextPlacement

/-- No call advances the counter of the binding identifiers. -/
theorem samePlacement_step (b : Backend β) (probe : HostProbe β) (s : Runtime β) (op : Op) :
    SamePlacement s (step b probe s op) := by
  cases op with
  | discover => exact ignoresMemory_samePlacement.discover (fun _ _ => rfl) probe s
  | refreshAccelerators =>
    exact ignoresMemory_samePlacement.refreshAccelerators (fun _ _ => rfl) probe s
  | registerAccelerators accelerators => rfl
  | allocate req => exact ignoresMemory_samePlacement.onMigrator _ s
  | release id => exact ignoresMemory_samePlacement.onMigrator _ s
  | allocateOnNode bytes node kind => exact ignoresMemory_samePlacement.onMigrator _ s
  | execute d opts => exact ignoresMemory_samePlacement.execute b d opts s
  | reserve req => exact ignoresReservations_samePlacement.reserve req s
  | releaseReservation id => exact ignoresReservations_samePlacement.onReservations _ s
  | registerWorker id pid => exact ignoresRegistry_samePlacement.onRegistry _ s
  | restartWorker id pid => exact ignoresRegistry_samePlacement.onRegistry _ s
  | markWorkerDead id boot => rfl
  | bindWorker id boot node applyAffinity =>
    exact ignoresMemory_samePlacement.bindWorker b id boot node applyAffinity
      (ignoresRegistry_samePlacement.recordBinding id node) s
  | observe id boot => exact ignoresRegistry_samePlacement.observe (fun _ _ => rfl) id boot s
  | migrate region target worker auth reason =>
    exact ignoresMemory_samePlacement.migrate b region target worker auth reason s
  | advanceEpoch => exact preserves_advanceEpoch (R := SamePlacement) (fun _ _ => rfl) s
  | advancePolicyGeneration => rfl
  | recover disk path => exact samePlacement_recover disk path s

theorem samePlacement_run (b : Backend β) (probe : HostProbe β) (s : Runtime β) (ops : List Op) :
    SamePlacement s (run b probe s ops) := by
  induction ops generalizing s with
  | nil => rfl
  | cons op ops ih => exact (ih (step b probe s op)).trans (samePlacement_step b probe s op)

end Counter

section Runs
variable (b : Backend β) (probe : HostProbe β) (s : Runtime β)

/-- Of any two bindings of the run the identifiers differ, and the later one of the same
incarnation has the higher generation. -/
def Distinct (ops : List Op) : Prop :=
  ∀ before op between op' behind, ops = before ++ op :: (between ++ op' :: behind) →
    ∀ x ∈ binding b (run b probe s before) op,
    ∀ y ∈ binding b (run b probe s (before ++ op :: between)) op',
      x.result.bindingId ≠ y.result.bindingId ∧
        (x.worker = y.worker → x.boot = y.boot → x.result.generation.value < y.result.generation.value)

/-- No two calls of the run are accepted. -/
def AtMostOne (ops : List Op) : Prop :=
  ∀ before op between op' behind, ops = before ++ op :: (between ++ op' :: behind) →
    ¬ (Accepts (run b probe s before) op ∧ Accepts (run b probe s (before ++ op :: between)) op')

variable {b probe s}

/-- All bindings of a run have one identifier. -/
theorem bindingId_eq {ops : List Op} {op : Op} {x : Binding}
    (bound : binding b (run b probe s ops) op = some x) : x.result.bindingId = ⟨s.nextPlacement⟩ := by
  have made : Made _ (step b probe _ op) x.worker x.boot x.result := made_of_binding bound
  rw [made.named, samePlacement_run b probe s ops]

theorem distinct_iff_atMostOne (b : Backend β) (probe : HostProbe β) (s : Runtime β) (ops : List Op) :
    Distinct b probe s ops ↔ AtMostOne b probe s ops := by
  constructor
  · rintro distinct before op between op' behind rfl ⟨first, second⟩
    obtain ⟨x, made⟩ := Option.isSome_iff_exists.mp (isSome_binding.mpr first)
    obtain ⟨y, made'⟩ := Option.isSome_iff_exists.mp (isSome_binding.mpr second)
    apply (distinct before op between op' behind rfl x made y made').1
    rw [bindingId_eq made, bindingId_eq made']
  · rintro once before op between op' behind rfl x made y made'
    refine absurd ⟨?_, ?_⟩ (once before op between op' behind rfl)
    · exact isSome_binding.mp (by rw [Option.mem_def.mp made]; rfl)
    · exact isSome_binding.mp (by rw [Option.mem_def.mp made']; rfl)

/-- Where no file takes the counters back, the generations of an incarnation rise. -/
theorem generation_lt {before between : List Op} {op op' : Op} {x y : Binding}
    (spent : AllSpent s.registry)
    (meets : Meets (step b probe) Sound s (before ++ op :: between))
    (first : binding b (run b probe s before) op = some x)
    (second : binding b (run b probe s (before ++ op :: between)) op' = some y)
    (worker : x.worker = y.worker) (boot : x.boot = y.boot) :
    x.result.generation.value.toNat < y.result.generation.value.toNat := by
  obtain ⟨early, later⟩ := meets_append.mp meets
  obtain ⟨sound, later⟩ := later
  have made : Made _ (step b probe _ op) x.worker x.boot x.result := made_of_binding first
  have made' : Made _ (step b probe _ op') y.worker y.boot y.result := made_of_binding second
  obtain ⟨w, found, bootW, generation⟩ := made.recorded
  obtain ⟨w', found', bootW', next⟩ := made'.worker
  have reached : AllSpent (step b probe (run b probe s before) op).registry :=
    (advances_step b probe sound).registry.spent ((advances_run b probe early).registry.spent spent)
  have back := (advances_run b probe later).neverBack reached
  have split : run b probe s (before ++ op :: between) =
      run b probe (step b probe (run b probe s before) op) between := by
    simp [run]
  rw [split] at found'
  rw [← worker] at found'
  have onward := back.workers x.worker w w' found found' (by rw [bootW, bootW', boot])
  have rises := BitVec.le_def.mp onward.binding
  have advanced := Generation.next_ok next
  rw [generation] at rises
  omega

/-- A worker is bound twice to the one node of a host. -/
theorem bound_twice :
    let probe : HostProbe Unit := ⟨pure { nodes := [{ id := ⟨1⟩ }] }, pure []⟩
    let s := Runtime.create () fun _ => 0
    let before := [Op.discover, Op.registerWorker ⟨1⟩ ⟨7⟩]
    let call := Op.bindWorker ⟨1⟩ ⟨1⟩ ⟨1⟩ false
    ¬ Distinct (MemoryAccounting.budgeted 64) probe s (before ++ [call, call]) ∧
      (binding (MemoryAccounting.budgeted 64) (run (MemoryAccounting.budgeted 64) probe s before) call).map
          (·.result.bindingId) = some ⟨1⟩ ∧
      (binding (MemoryAccounting.budgeted 64)
          (run (MemoryAccounting.budgeted 64) probe s (before ++ [call])) call).map
          (·.result.bindingId) = some ⟨1⟩ := by
  intro probe s before call
  have first : (binding (MemoryAccounting.budgeted 64) (run (MemoryAccounting.budgeted 64) probe s before)
      call).map (·.result.bindingId) = some ⟨1⟩ := by decide
  have second : (binding (MemoryAccounting.budgeted 64)
      (run (MemoryAccounting.budgeted 64) probe s (before ++ [call])) call).map
      (·.result.bindingId) = some ⟨1⟩ := by decide
  refine ⟨?_, first, second⟩
  intro distinct
  obtain ⟨x, made, named⟩ := Option.map_eq_some_iff.mp first
  obtain ⟨y, made', named'⟩ := Option.map_eq_some_iff.mp second
  exact (distinct before call [] call [] rfl x made y made').1 (named.trans named'.symm)

end Runs

end NumaFabric.BindingIdentities
