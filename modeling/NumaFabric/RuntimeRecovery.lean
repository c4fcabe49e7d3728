import NumaFabric.FaultRun
import NumaFabric.PersistenceRoundtrip
import NumaFabric.ReservationOutcome
import NumaFabric.RuntimeFacade

/-! Writing a runtime to disk and reading it back. Recovery overwrites the epoch and the
policy generation first and then feeds the records one by one into the two stores, so
it stops at the first record a store refuses with the earlier writes in place. -/
namespace NumaFabric
open Std FaultState FaultRun Persistence

def Worker.persisted (w : Worker) : PersistedWorker where
  id := w.id
  boot := w.bootId
  incarnation := w.incarnation
  alive := w.alive
  node := w.node
  placementGeneration := w.placementGeneration
  bindingGeneration := w.bindingGeneration
  policyGeneration := w.policyGeneration
  liveGeneration := w.lastObservationGeneration.value

/-- Process, affinity and the identifiers of placement, binding and policy are not kept. -/
def PersistedWorker.recovered (x : PersistedWorker) : Worker where
  id := x.id
  bootId := x.boot
  incarnation := x.incarnation
  alive := x.alive
  node := x.node
  placementGeneration := x.placementGeneration
  bindingGeneration := x.bindingGeneration
  policyGeneration := x.policyGeneration
  lastObservationGeneration := ⟨x.liveGeneration⟩

def Reservation.persisted (r : Reservation) : PersistedReservation where
  id := r.id
  node := r.node
  bytes := r.bytes.value
  cpuSlots := r.cpuSlots
  accelerator := r.accelerator
  acceleratorCapacity := r.acceleratorCapacity
  generation := r.generation
  active := r.active

def PersistedReservation.recovered (x : PersistedReservation) : Reservation where
  id := x.id
  node := x.node
  bytes := ⟨x.bytes⟩
  cpuSlots := x.cpuSlots
  accelerator := x.accelerator
  acceleratorCapacity := x.acceleratorCapacity
  generation := x.generation
  active := x.active

/-- The first loop of `recover`. What `restore` answers is dropped. -/
def restoreWorkers (xs : List PersistedWorker) : Exec WorkerRegistry Unit :=
  xs.forM fun x => discard (WorkerRegistry.restore x.recovered)

/-- The second loop: a reservation that no longer fits is dropped in silence. -/
def restoreReservations (cap : CapacityFn) (xs : List PersistedReservation) :
    Exec ReservationStore Unit :=
  xs.forM fun x => discard (ReservationStore.restore cap x.recovered)

/-- The check `restore` makes on a worker. -/
def Worker.identified (w : Worker) : Bool := w.id.isValid && w.bootId.isValid

/-- The registry after a worker record with a valid identity: a live worker stays. -/
def WorkerRegistry.takeBack (s : WorkerRegistry) (x : PersistedWorker) : WorkerRegistry :=
  if s.workers[x.id]?.any (·.alive) then s else s.reinstated x.recovered

theorem restoreWorker_run (x : PersistedWorker) (s : WorkerRegistry) :
    (discard (WorkerRegistry.restore x.recovered)).run s =
      if x.recovered.identified then .ok () (s.takeBack x)
      else .error (.worker .restoreInvalid) s := by
  have lookup : s.workers[x.recovered.id]? = s.workers[x.id]? := rfl
  change (WorkerRegistry.restore x.recovered >>= fun _ => pure ()).run s = _
  rw [EStateM.run_bind, WorkerRegistry.restore_run, WorkerRegistry.takeBack, Worker.identified, lookup]
  cases x.recovered.id.isValid with
  | false => rfl
  | true =>
    cases x.recovered.bootId.isValid with
    | false => rfl
    | true => cases s.workers[x.id]?.any (·.alive) <;> rfl

theorem meets_takeBack {xs : List PersistedWorker} (h : ∀ x ∈ xs, x.recovered.identified = true)
    (s : WorkerRegistry) :
    Meets WorkerRegistry.takeBack
      (fun s x => (discard (WorkerRegistry.restore x.recovered)).run s = .ok () (s.takeBack x)) s xs :=
  meets_of_forall fun x hx s => (restoreWorker_run x s).trans (if_pos (h x hx))

theorem restoreWorkers_run {xs : List PersistedWorker} (s : WorkerRegistry)
    (h : ∀ x ∈ xs, x.recovered.identified = true) :
    (restoreWorkers xs).run s = .ok () (xs.foldl WorkerRegistry.takeBack s) :=
  run_forM (meets_takeBack h s)

/-- The loop over the workers stops at the first record without a valid identity. -/
theorem restoreWorkers_stops {pre post : List PersistedWorker} {x : PersistedWorker}
    (s : WorkerRegistry) (h : ∀ y ∈ pre, y.recovered.identified = true)
    (bad : x.recovered.identified = false) :
    (restoreWorkers (pre ++ x :: post)).run s =
      .error (.worker .restoreInvalid) (pre.foldl WorkerRegistry.takeBack s) := by
  refine run_forM_stops (meets_takeBack h s) ?_
  rw [restoreWorker_run, bad]
  rfl

section Reservations
variable {cap : CapacityFn} {s : ReservationStore} {x : PersistedReservation}

/-- The check `restore` makes on a reservation. -/
def ReservationStore.Fresh (s : ReservationStore) (x : PersistedReservation) : Prop :=
  x.id.isValid = true ∧ s.reservations.contains x.id = false

instance (s : ReservationStore) (x : PersistedReservation) : Decidable (s.Fresh x) :=
  inferInstanceAs (Decidable (_ ∧ _))

/-- The store after a reservation record that is not refused. -/
def ReservationStore.takeBack (cap : CapacityFn) (s : ReservationStore) (x : PersistedReservation) :
    ReservationStore := s.step cap (.restore x.recovered)

theorem restoreReservation_run (cap : CapacityFn) (fresh : s.Fresh x) :
    (discard (ReservationStore.restore cap x.recovered)).run s = .ok () (s.takeBack cap x) := by
  obtain ⟨valid, absent⟩ := fresh
  change (ReservationStore.restore cap x.recovered >>= fun _ => pure ()).run s =
    .ok () (stateAfter (ReservationStore.restore cap x.recovered) s)
  rw [stateAfter, EStateM.run_bind]
  have outcome := ReservationStore.restore_outcome cap x.recovered s
  generalize (ReservationStore.restore cap x.recovered).run s = res at outcome
  cases outcome with
  | invalid bad => exact absurd (valid.symm.trans bad) (by decide)
  | duplicate present => exact absurd (absent.symm.trans present) (by decide)
  | inactive => rfl
  | refused => rfl
  | readmitted => rfl

theorem restoreReservation_stops (cap : CapacityFn) (stale : ¬s.Fresh x) :
    ∃ e, (discard (ReservationStore.restore cap x.recovered)).run s = .error e s := by
  change ∃ e, (ReservationStore.restore cap x.recovered >>= fun _ => pure ()).run s = _
  have outcome := ReservationStore.restore_outcome cap x.recovered s
  cases h : (ReservationStore.restore cap x.recovered).run s with
  | error e t =>
    rw [h] at outcome
    refine ⟨e, ?_⟩
    rw [run_bind_of_error h]
    cases outcome <;> rfl
  | ok a t =>
    rw [h] at outcome
    exfalso
    cases outcome with
    | inactive valid fresh => exact stale ⟨valid, fresh⟩
    | refused valid fresh => exact stale ⟨valid, fresh⟩
    | readmitted valid fresh => exact stale ⟨valid, fresh⟩

theorem restoreReservations_run {xs : List PersistedReservation}
    (h : Meets (ReservationStore.takeBack cap) ReservationStore.Fresh s xs) :
    (restoreReservations cap xs).run s = .ok () (xs.foldl (ReservationStore.takeBack cap) s) :=
  run_forM (h.mono fun _ _ fresh => restoreReservation_run cap fresh)

/-- The loop over the reservations stops at the first identifier that is invalid or taken. -/
theorem restoreReservations_stops {pre : List PersistedReservation}
    (post : List PersistedReservation)
    (h : Meets (ReservationStore.takeBack cap) ReservationStore.Fresh s pre)
    (stale : ¬(pre.foldl (ReservationStore.takeBack cap) s).Fresh x) :
    ∃ e, (restoreReservations cap (pre ++ x :: post)).run s =
      .error e (pre.foldl (ReservationStore.takeBack cap) s) := by
  obtain ⟨e, stops⟩ := restoreReservation_stops cap stale
  exact ⟨e, run_forM_stops (h.mono fun _ _ fresh => restoreReservation_run cap fresh) stops⟩

end Reservations

namespace Runtime
variable {β : Type}

/-- Only active reservations are written; placements and observations never are. -/
def persistedState (s : Runtime β) : PersistedState where
  coordinatorEpoch := s.epoch.value
  hostGeneration := s.topo.generation.value
  policyGeneration := s.policyGeneration
  workers := s.registry.all.map Worker.persisted
  reservations := (s.reservations.all.filter (·.active)).map Reservation.persisted

def persist (s : Runtime β) (fault : Option SaveFault) (path : ByteString) : Exec Disk Unit :=
  save fault s.persistedState path

/-- What `load` returns or throws; it leaves the disk alone. -/
def loaded (disk : Disk) (path : ByteString) : Except Exn PersistedState :=
  match (load path).run disk with
  | .ok state _ => .ok state
  | .error e _ => .error e

def recover (disk : Disk) (path : ByteString) : Exec (Runtime β) Unit := do
  let state ← ofExcept (loaded disk path)
  modify fun s =>
    { s with epoch := ⟨state.coordinatorEpoch⟩, policyGeneration := state.policyGeneration }
  onRegistry (restoreWorkers state.workers)
  onReservations (restoreReservations (nodeCapacityProvider (← get)) state.reservations)
  modify fun s =>
    { s with migrator := { s.migrator with mem := s.migrator.mem.invalidateLocalityStale } }

/-- A storable state that was saved without a fault is loaded as it was. -/
theorem loaded_of_saved {p : PersistedState} (h : Storable p) (disk : Disk) (path : ByteString) :
    ∃ disk', (save none p path).run disk = .ok () disk' ∧ loaded disk' path = .ok p := by
  obtain ⟨disk', saved, content⟩ := save_run h.counted path disk
  have read := load_run content (openContainer_container (length_payloadOf_le h.counted))
    (deserialize_payloadOf h)
  exact ⟨disk', saved, by rw [loaded, read]⟩

/-- The runtime when the loops over a file's records begin. -/
def adopt (s : Runtime β) (p : PersistedState) : Runtime β :=
  { s with epoch := ⟨p.coordinatorEpoch⟩, policyGeneration := p.policyGeneration }

theorem recover_unread {disk : Disk} {path : ByteString} {e : Exn}
    (h : loaded disk path = .error e) (s : Runtime β) :
    (recover disk path).run s = .error e s := by
  rw [recover, h]
  rfl

theorem recover_run {disk : Disk} {path : ByteString} {p : PersistedState}
    (h : loaded disk path = .ok p) (s : Runtime β) :
    (recover disk path).run s =
      match (restoreWorkers p.workers).run s.registry with
      | .error e r => .error e { s.adopt p with registry := r }
      | .ok _ r =>
        match (restoreReservations s.nodeCapacityProvider p.reservations).run s.reservations with
        | .error e q => .error e { s.adopt p with registry := r, reservations := q }
        | .ok _ q =>
          .ok () { s.adopt p with
            registry := r, reservations := q
            migrator := { s.migrator with mem := s.migrator.mem.invalidateLocalityStale } } := by
  rw [recover, h, EStateM.run_bind, run_ofExcept_ok]
  simp only [EStateM.run_bind, EStateM.run_modify, EStateM.run_get, onRegistry, onReservations,
    run_zoom]
  cases (restoreWorkers p.workers).run s.registry with
  | error e r => rfl
  | ok u r =>
    dsimp only
    simp only [nodeCapacityProvider]
    generalize EStateM.run (restoreReservations _ p.reservations) s.reservations = res
    cases res <;> rfl

end Runtime

end NumaFabric
