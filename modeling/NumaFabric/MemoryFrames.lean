import NumaFabric.MigrationOutcome
import NumaFabric.RuntimeFrames

/-! What a runtime does to the regions it governs, once for every relation that the calls of
the memory manager keep. -/
namespace NumaFabric.MemoryFrames
open Std FaultState RuntimeFrames NumaFabric.Runtime

variable {β α ε : Type} {b : Backend β} {Q : MemoryManager β → MemoryManager β → Prop}

/-- Every call of the memory manager keeps the relation, and so does whatever the backend and the
process do on their own. -/
structure Followed (b : Backend β) (Q : MemoryManager β → MemoryManager β → Prop) : Prop where
  allocate : ∀ req, Preserves Q (MemoryManager.allocate b req)
  release : ∀ id expected, Preserves Q (MemoryManager.release b id expected)
  transition : ∀ id next, Preserves Q (MemoryManager.transition id next)
  governedReallocate : ∀ id target copyData,
    Preserves Q (MemoryManager.governedReallocate b id target copyData)
  invalidate : ∀ s, Q s s.invalidateLocalityStale
  aside : ∀ s backend heap, Q s { s with world := { s.world with backend, heap } }

/-- The relation between two runtimes that is one between their regions. -/
def OnRegions (Q : MemoryManager β → MemoryManager β → Prop) (s t : Runtime β) : Prop :=
  Q s.migrator.mem t.migrator.mem

instance [Std.Refl Q] : Std.Refl (OnRegions Q) := ⟨fun s => Std.Refl.refl s.migrator.mem⟩

instance [IsTrans (MemoryManager β) Q] : IsTrans (Runtime β) (OnRegions Q) :=
  ⟨fun s t u => IsTrans.trans s.migrator.mem t.migrator.mem u.migrator.mem⟩

theorem onRegions_onMemory {x : Exec (MemoryManager β) α} (h : Preserves Q x) :
    Preserves (OnRegions Q) (onMemory x) := by
  intro s
  rw [Runtime.onMemory, Runtime.onMigrator, stateAfter_zoom, MigrationManager.stateAfter_onMemory]
  exact h s.migrator.mem

variable [Std.Refl Q]

theorem ignoresRegistry_onRegions : IgnoresRegistry (OnRegions Q) :=
  fun s _ => Std.Refl.refl s.migrator.mem

theorem ignoresReservations_onRegions : IgnoresReservations (OnRegions Q) :=
  fun s _ => Std.Refl.refl s.migrator.mem

namespace Followed
variable (h : Followed b Q)
include h

omit [Std.Refl Q] in
theorem onBackend (x : Fault ε β α) : Preserves (OnRegions Q) (onBackend x) := by
  intro s
  rw [Runtime.onBackend, stateAfter_zoom]
  exact h.aside s.migrator.mem _ _

theorem begin (req : MigrateRequest) :
    Preserves (OnRegions Q) (onMigrator (β := β) (MigrationManager.begin req)) := by
  intro s
  rw [Runtime.onMigrator, stateAfter_zoom]
  exact MigrationManager.begin_memory (P := Q s.migrator.mem) (Std.Refl.refl _) req
    (h.transition _ _ s.migrator.mem)

theorem executeAttempt (id : AttemptId) :
    Preserves (OnRegions Q) (onMigrator (MigrationManager.execute b id)) := by
  intro s
  rw [Runtime.onMigrator, stateAfter_zoom]
  exact MigrationManager.execute_memory (P := Q s.migrator.mem) (Std.Refl.refl _) id
    fun m _ _ => h.governedReallocate _ _ _ s.migrator.mem

variable [IsTrans (MemoryManager β) Q]

theorem discover (probe : HostProbe β) : Preserves (OnRegions Q) (discover probe) := by
  refine (h.onBackend _).bind fun found => (Preserves.modify fun s => ?_).bind fun _ =>
    Preserves.get.bind fun _ => Preserves.pure _
  exact Std.Refl.refl s.migrator.mem

theorem refreshAccelerators (probe : HostProbe β) :
    Preserves (OnRegions Q) (refreshAccelerators probe) := by
  refine (h.onBackend _).bind fun found => (Preserves.modify fun s => ?_).bind fun _ =>
    Preserves.get.bind fun _ => Preserves.pure _
  exact Std.Refl.refl s.migrator.mem

theorem migrate (region : MemoryRegionId) (target : NumaNodeId) (worker : WorkerId) (auth : Auth)
    (reason : ByteString) :
    Preserves (OnRegions Q) (migrate b region target worker auth reason) :=
  Preserves.get.bind fun _ => (Preserves.throwIf _ _).bind fun _ => Preserves.get.bind fun _ =>
    (h.begin _).bind fun _ => (h.executeAttempt _).bind fun _ =>
    Preserves.get.bind fun _ => Preserves.pure _

theorem execute (d : PlacementDecision) (opts : ExecuteOptions) :
    Preserves (OnRegions Q) (execute b d opts) := by
  have memory : Preserves (OnRegions Q) (executeMemory b d opts) := by
    refine (onRegions_onMemory (h.allocate _)).bind fun region => ?_
    have verifies : Preserves (OnRegions Q) (verifyRegion region) :=
      fun s => h.aside s.migrator.mem _ _
    split_ifs
    · exact verifies.bind fun _ => Preserves.pure _
    · exact Preserves.pure _
  unfold Runtime.execute
  split
  · exact Preserves.pure _
  · cases opts.allocateMemory with
    | true => exact memory.bind fun _ => Preserves.pure _
    | false => exact (Preserves.pure []).bind fun _ => Preserves.pure _

theorem bindWorker (id : WorkerId) (boot : WorkerBootId) (node : NumaNodeId) (applyAffinity : Bool) :
    Preserves (OnRegions Q) (bindWorker b id boot node applyAffinity) := by
  refine Preserves.get.bind fun _ => (Preserves.throwIf _ _).bind fun _ =>
    Preserves.get.bind fun _ => (Preserves.throwIf _ _).bind fun _ =>
    Preserves.get.bind fun _ => (Preserves.ofExcept _).bind fun set => ?_
  have applies : Preserves (OnRegions Q) (applyThreadAffinity b set) :=
    fun s => h.aside s.migrator.mem _ _
  have records := fun applied => ignoresRegistry_onRegions (Q := Q).recordBinding id node set applied
  dsimp only
  split_ifs
  · exact applies.bind records
  · exact (Preserves.pure false).bind records

theorem recover (disk : Persistence.Disk) (path : ByteString) :
    Preserves (OnRegions Q) (recover disk path) := by
  refine (Preserves.ofExcept _).bind fun _ => (Preserves.modify fun s => ?_).bind fun _ =>
    (ignoresRegistry_onRegions.onRegistry _).bind fun _ => Preserves.get.bind fun _ =>
    (ignoresReservations_onRegions.onReservations _).bind fun _ => Preserves.modify fun s => ?_
  · exact Std.Refl.refl s.migrator.mem
  · exact h.invalidate s.migrator.mem

/-- Every call of the runtime follows. -/
theorem step (probe : HostProbe β) (op : Op) (s : Runtime β) :
    OnRegions Q s (step b probe s op) := by
  cases op with
  | discover => exact h.discover probe s
  | refreshAccelerators => exact h.refreshAccelerators probe s
  | registerAccelerators accelerators => exact Std.Refl.refl s.migrator.mem
  | allocate req => exact onRegions_onMemory (h.allocate req) s
  | release id => exact onRegions_onMemory (h.release id none) s
  | allocateOnNode bytes node kind => exact onRegions_onMemory (h.allocate _) s
  | execute d opts => exact h.execute d opts s
  | reserve req => exact ignoresReservations_onRegions.reserve req s
  | releaseReservation id => exact ignoresReservations_onRegions.onReservations _ s
  | registerWorker id pid => exact ignoresRegistry_onRegions.onRegistry _ s
  | restartWorker id pid => exact ignoresRegistry_onRegions.onRegistry _ s
  | markWorkerDead id boot => exact Std.Refl.refl s.migrator.mem
  | bindWorker id boot node applyAffinity => exact h.bindWorker id boot node applyAffinity s
  | observe id boot =>
    exact ignoresRegistry_onRegions.observe (fun s _ => Std.Refl.refl s.migrator.mem) id boot s
  | migrate region target worker auth reason => exact h.migrate region target worker auth reason s
  | advanceEpoch =>
    exact preserves_advanceEpoch (R := OnRegions Q) (fun s _ => Std.Refl.refl s.migrator.mem) s
  | advancePolicyGeneration => exact Std.Refl.refl s.migrator.mem
  | recover disk path => exact h.recover disk path s

end Followed

end NumaFabric.MemoryFrames
