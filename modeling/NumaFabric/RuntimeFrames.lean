import NumaFabric.RuntimeOperations

/-! What the operations of the runtime leave alone, once for every relation between the
state before and the state after that does not look at some of its parts. -/
namespace NumaFabric.RuntimeFrames
open FaultState NumaFabric.Runtime

variable {β ε α : Type} {R : Runtime β → Runtime β → Prop}

/-- The relation does not look at the regions, the migrations or the backend. -/
def IgnoresMemory (R : Runtime β → Runtime β → Prop) : Prop := ∀ s m, R s { s with migrator := m }

def IgnoresReservations (R : Runtime β → Runtime β → Prop) : Prop :=
  ∀ s r, R s { s with reservations := r }

def IgnoresRegistry (R : Runtime β → Runtime β → Prop) : Prop := ∀ s r, R s { s with registry := r }

theorem IgnoresMemory.onMigrator (h : IgnoresMemory R) (x : Exec (MigrationManager β) α) :
    Preserves R (onMigrator x) := by
  intro s
  rw [Runtime.onMigrator, stateAfter_zoom]
  exact h s _

theorem IgnoresMemory.onBackend (h : IgnoresMemory R) (x : Fault ε β α) :
    Preserves R (onBackend x) := by
  intro s
  rw [Runtime.onBackend, stateAfter_zoom]
  exact h s _

theorem IgnoresReservations.onReservations (h : IgnoresReservations R) (x : Exec ReservationStore α) :
    Preserves R (onReservations x) := by
  intro s
  rw [Runtime.onReservations, stateAfter_zoom]
  exact h s _

theorem IgnoresRegistry.onRegistry (h : IgnoresRegistry R) (x : Exec WorkerRegistry α) :
    Preserves R (onRegistry x) := by
  intro s
  rw [Runtime.onRegistry, stateAfter_zoom]
  exact h s _

/-- The same reservations. -/
def SameReservations (s t : Runtime β) : Prop := t.reservations = s.reservations

instance : Std.Refl (SameReservations (β := β)) := ⟨fun _ => rfl⟩

instance : IsTrans (Runtime β) SameReservations := ⟨fun _ _ _ h g => g.trans h⟩

theorem ignoresMemory_sameReservations : IgnoresMemory (SameReservations (β := β)) := fun _ _ => rfl

theorem ignoresRegistry_sameReservations : IgnoresRegistry (SameReservations (β := β)) := fun _ _ => rfl

variable [Std.Refl R] [IsTrans (Runtime β) R]

theorem preserves_plan (b : Backend β) (float : FloatCosts) (req : PlacementRequest) :
    Preserves R (plan b float req) :=
  Preserves.get.bind fun _ => (Preserves.ofExcept _).bind fun _ =>
    Preserves.get.bind fun _ => Preserves.pure _

theorem IgnoresReservations.reserve (h : IgnoresReservations R) (req : ReserveRequest) :
    Preserves R (reserve req) :=
  Preserves.get.bind fun _ => h.onReservations _

theorem IgnoresMemory.discover (h : IgnoresMemory R) (set : ∀ s topo, R s { s with topo })
    (probe : HostProbe β) : Preserves R (discover probe) := by
  refine (h.onBackend _).bind fun found => (Preserves.modify fun s => ?_).bind fun _ =>
    Preserves.get.bind fun _ => Preserves.pure _
  exact set s found

theorem IgnoresMemory.refreshAccelerators (h : IgnoresMemory R)
    (set : ∀ s accelerators, R s { s with accelerators }) (probe : HostProbe β) :
    Preserves R (refreshAccelerators probe) := by
  refine (h.onBackend _).bind fun found => (Preserves.modify fun s => ?_).bind fun _ =>
    Preserves.get.bind fun _ => Preserves.pure _
  exact set s found

theorem preserves_advanceEpoch (set : ∀ s epoch, R s { s with epoch }) :
    Preserves R (advanceEpoch (β := β)) := by
  refine Preserves.get.bind fun _ => (Preserves.ofExcept _).bind fun epoch => Preserves.modify fun s => ?_
  exact set s epoch

theorem IgnoresMemory.migrate (h : IgnoresMemory R) (b : Backend β) (region : MemoryRegionId)
    (target : NumaNodeId) (worker : WorkerId) (auth : Auth) (reason : ByteString) :
    Preserves R (migrate b region target worker auth reason) :=
  Preserves.get.bind fun _ => (Preserves.throwIf _ _).bind fun _ => Preserves.get.bind fun _ =>
    (h.onMigrator _).bind fun _ => (h.onMigrator _).bind fun _ =>
    Preserves.get.bind fun _ => Preserves.pure _

theorem IgnoresMemory.executeMemory (h : IgnoresMemory R) (b : Backend β) (d : PlacementDecision)
    (opts : ExecuteOptions) : Preserves R (executeMemory b d opts) := by
  refine (h.onMigrator _).bind fun region => ?_
  have verifies : Preserves R (verifyRegion region) := fun s => h s _
  split_ifs
  · exact verifies.bind fun _ => Preserves.pure _
  · exact Preserves.pure _

theorem IgnoresMemory.execute (h : IgnoresMemory R) (b : Backend β) (d : PlacementDecision)
    (opts : ExecuteOptions) : Preserves R (execute b d opts) := by
  unfold Runtime.execute
  split
  · exact Preserves.pure _
  · cases opts.allocateMemory with
    | true => exact (h.executeMemory b d opts).bind fun _ => Preserves.pure _
    | false => exact (Preserves.pure []).bind fun _ => Preserves.pure _

/-- A binding touches the backend, and then it is recorded. -/
theorem IgnoresMemory.bindWorker (h : IgnoresMemory R) (b : Backend β) (id : WorkerId)
    (boot : WorkerBootId) (node : NumaNodeId) (applyAffinity : Bool)
    (records : ∀ set applied, Preserves R (recordBinding id node set applied)) :
    Preserves R (bindWorker b id boot node applyAffinity) := by
  refine Preserves.get.bind fun _ => (Preserves.throwIf _ _).bind fun _ =>
    Preserves.get.bind fun _ => (Preserves.throwIf _ _).bind fun _ =>
    Preserves.get.bind fun _ => (Preserves.ofExcept _).bind fun set => ?_
  have applies : Preserves R (applyThreadAffinity b set) := fun s => h s _
  dsimp only
  split_ifs
  · exact applies.bind fun applied => records set applied
  · exact (Preserves.pure false).bind fun applied => records set applied

omit [IsTrans (Runtime β) R] in
/-- A binding of a known worker rewrites its record, unless its generation is exhausted. -/
theorem preserves_recordBinding {id : WorkerId} {node : NumaNodeId} {set : AffinitySet} {applied : Bool}
    (rewrites : ∀ (s : Runtime β) w r, s.registry.workers[id]? = some w →
      w.bindingGeneration.next = .ok r.generation →
      R s { s with registry := { s.registry with
        workers := s.registry.workers.insert id (boundTo w r node set) } }) :
    Preserves R (recordBinding id node set applied) := by
  intro s
  rw [stateAfter]
  simp only [Runtime.recordBinding, EStateM.run_bind, EStateM.run_get, WorkerRegistry.find]
  cases found : s.registry.workers[id]? with
  | none => exact Std.Refl.refl s
  | some w =>
    simp only [EStateM.run_bind]
    cases next : w.bindingGeneration.next with
    | error e => exact Std.Refl.refl s
    | ok g => exact rewrites s w { bindingId := ⟨s.nextPlacement⟩, generation := g, applied } found next

omit [IsTrans (Runtime β) R] in
/-- An observation under the current boot takes a number and rewrites the worker. -/
theorem preserves_observe {id : WorkerId} {boot : WorkerBootId}
    (rewrites : ∀ (s : Runtime β) w, s.registry.workers[id]? = some w → w.bootId = boot →
      R s { s with
        nextObservation := s.nextObservation + 1
        registry := { s.registry with
          workers := s.registry.workers.insert id
            { w with lastObservationGeneration := ⟨s.nextObservation⟩ } } }) :
    Preserves R (observe id boot) := by
  intro s
  rw [stateAfter]
  simp only [Runtime.observe, EStateM.run_bind, EStateM.run_get, WorkerRegistry.find]
  cases found : s.registry.workers[id]? with
  | none => exact Std.Refl.refl s
  | some w =>
    dsimp only
    split_ifs with current
    · exact rewrites s w found current
    · exact Std.Refl.refl s

omit [IsTrans (Runtime β) R] in
theorem IgnoresRegistry.recordBinding (h : IgnoresRegistry R) (id : WorkerId) (node : NumaNodeId)
    (set : AffinitySet) (applied : Bool) : Preserves R (recordBinding id node set applied) :=
  preserves_recordBinding fun s _ _ _ _ => h s _

theorem IgnoresRegistry.observe (h : IgnoresRegistry R)
    (numbers : ∀ s n, R s { s with nextObservation := n }) (id : WorkerId) (boot : WorkerBootId) :
    Preserves R (observe id boot) := by
  refine preserves_observe fun s w _ _ => ?_
  exact IsTrans.trans _ _ _ (numbers s (s.nextObservation + 1))
    (h { s with nextObservation := s.nextObservation + 1 } _)

end NumaFabric.RuntimeFrames
