import NumaFabric.MigrationManager
import NumaFabric.PlacementEngine
import NumaFabric.ReservationStore
import NumaFabric.WorkerRegistry

/-! The composition root: one backend, and the managers wired around it. -/
namespace NumaFabric
open Std FaultState

structure Runtime (β : Type) where
  topo : HostTopology := {}
  accelerators : List AcceleratorInfo := []
  registry : WorkerRegistry := {}
  reservations : ReservationStore := {}
  migrator : MigrationManager β
  epoch : CoordinatorEpoch := ⟨1⟩
  policyGeneration : U64 := 1
  nextPlacement : U64 := 1
  nextObservation : U64 := 1

structure BindResult where
  bindingId : BindingId := .invalid
  generation : BindingGeneration := .initial
  applied : Bool := false
  deriving DecidableEq, Repr

/-- `Runtime::Auth`: the authority a migration is asked for under. -/
structure Auth where
  epoch : CoordinatorEpoch
  boot : WorkerBootId
  deriving DecidableEq, Repr

namespace Runtime
variable {β : Type}

def onRegistry {α : Type} (x : Exec WorkerRegistry α) : Exec (Runtime β) α :=
  zoom Runtime.registry (fun s r => { s with registry := r }) x

def onReservations {α : Type} (x : Exec ReservationStore α) : Exec (Runtime β) α :=
  zoom Runtime.reservations (fun s r => { s with reservations := r }) x

def onMigrator {α : Type} (x : Exec (MigrationManager β) α) : Exec (Runtime β) α :=
  zoom Runtime.migrator (fun s m => { s with migrator := m }) x

/-- A node the topology does not have is not limited. -/
def nodeCapacityProvider (s : Runtime β) : CapacityFn :=
  some fun n => ((s.topo.findNode n).map (·.memoryCapacity)).getD .zero

/-- The distances the engine is given: only a synthetic backend has any. -/
def distance (kind : BackendKind) (a b : NumaNodeId) : LocalityCost :=
  if a = b then .zero
  else
    match kind with
    | .synthetic =>
      let diff := if b.value < a.value then a.value - b.value else b.value - a.value
      ⟨40 * diff + 60⟩
    | .windows => ⟨100⟩

/-- Active bytes per node, added up with checked sums. -/
def reservedCapacity (s : Runtime β) : Except Exn (ExtTreeMap NumaNodeId Bytes) :=
  (s.reservations.all.filter (·.active)).foldlM (fun m r => do
    return m.insert r.node (← (m[r.node]?.getD .zero).add r.bytes)) ∅

def buildPlacementModel (b : Backend β) (float : FloatCosts) (s : Runtime β) :
    Except Exn PlacementModel := do
  let reservedCapacity ← s.reservedCapacity
  return { distance := distance b.kind
           float
           nodeCapacity := s.topo.nodes.foldl (fun m n => m.insert n.id n.memoryCapacity) ∅
           nodeFree := s.topo.nodes.foldl (fun m n =>
             m.insert n.id (if n.memoryInfoAvailable then n.freeMemory else .zero)) ∅
           acceleratorLocality := s.accelerators.foldl (fun m a => m.insert a.id a.locality) ∅
           reservedCapacity }

def plan (b : Backend β) (float : FloatCosts) (req : PlacementRequest) :
    Exec (Runtime β) PlacementDecision := do
  let model ← ofExcept (buildPlacementModel b float (← get))
  return PlacementEngine.plan (← get).topo req model

def reserve (req : ReserveRequest) : Exec (Runtime β) Reservation := do
  onReservations (ReservationStore.reserve (nodeCapacityProvider (← get)) req)

def releaseReservation (id : ReservationId) : Exec (Runtime β) Unit :=
  onReservations (ReservationStore.release id none)

def worker (s : Runtime β) (id : WorkerId) : Option Worker := s.registry.find id

def registerWorker (id : WorkerId) (pid : ProcessId) : Exec (Runtime β) Worker :=
  onRegistry (WorkerRegistry.registerWorker id pid)

def restartWorker (id : WorkerId) (pid : ProcessId) : Exec (Runtime β) Worker :=
  onRegistry (WorkerRegistry.restartWorker id pid)

def markWorkerDead (id : WorkerId) (boot : WorkerBootId) (s : Runtime β) : Runtime β :=
  { s with registry := s.registry.markDead id boot }

/-- The processors of a node, added one by one. -/
def nodeAffinity (topo : HostTopology) (node : NumaNodeId) : Except Exn AffinitySet :=
  (topo.processors.filter (·.node == node)).foldlM
    (fun set p => set.addProcessor p.group p.indexInGroup.value) {}

def applyThreadAffinity (b : Backend β) (set : AffinitySet) : Exec (Runtime β) Bool := fun s =>
  let world := s.migrator.mem.world
  let (applied, backend) := b.applyThreadAffinity set world.backend
  let mem := { s.migrator.mem with world := { world with backend } }
  .ok applied { s with migrator := { s.migrator with mem } }

/-- The worker as a binding leaves it. -/
def boundTo (w : Worker) (r : BindResult) (node : NumaNodeId) (set : AffinitySet) : Worker :=
  { w with
    bindingId := r.bindingId, bindingGeneration := r.generation, node, bound := true
    requestedAffinity := set, currentAffinity := set }

/-- The last part of a binding: a new generation, unless the counter is exhausted. -/
def recordBinding (id : WorkerId) (node : NumaNodeId) (set : AffinitySet) (applied : Bool) :
    Exec (Runtime β) BindResult := do
  let bindingId : BindingId := ⟨(← get).nextPlacement⟩
  match (← get).registry.find id with
  | none => return { bindingId, generation := ⟨1⟩, applied }
  | some w =>
    let generation ← ofExcept w.bindingGeneration.next
    let r : BindResult := { bindingId, generation, applied }
    onRegistry (WorkerRegistry.putWorker id (boundTo w r node set))
    return r

/-- The affinity is applied before the binding generation is advanced. -/
def bindWorker (b : Backend β) (id : WorkerId) (boot : WorkerBootId) (node : NumaNodeId)
    (applyAffinity : Bool) : Exec (Runtime β) BindResult := do
  throwIf (!(← get).registry.validateBoot id boot) (.runtime (.staleBinding id))
  throwIf ((← get).topo.findNode node).isNone (.runtime (.unknownNode node))
  let set ← ofExcept (nodeAffinity (← get).topo node)
  let applied ← if applyAffinity then applyThreadAffinity b set else pure false
  recordBinding id node set applied

/-- Only the current incarnation takes a number; node, source and staleness are ignored. -/
def observe (id : WorkerId) (boot : WorkerBootId) : Exec (Runtime β) Unit := do
  if let some w := (← get).registry.find id then
    if w.bootId = boot then
      let n := (← get).nextObservation
      modify fun s => { s with nextObservation := n + 1 }
      onRegistry (WorkerRegistry.putWorker id { w with lastObservationGeneration := ⟨n⟩ })

/-- Of the authority only the boot is looked at. -/
def migrate (b : Backend β) (region : MemoryRegionId) (target : NumaNodeId) (worker : WorkerId)
    (auth : Auth) (reason : ByteString) : Exec (Runtime β) Bool := do
  throwIf (!(← get).registry.validateBoot worker auth.boot) (.runtime .staleMigration)
  let req : MigrateRequest :=
    { worker, workerBoot := auth.boot, epoch := (← get).epoch, memoryRegion := region
      targetNode := target, reason }
  let attempt ← onMigrator (MigrationManager.begin req)
  onMigrator (MigrationManager.execute b attempt)
  return (← get).migrator.attempts[attempt]?.any (·.committed)

def advanceEpoch : Exec (Runtime β) Unit := do
  let epoch ← ofExcept (← get).epoch.next
  modify fun s => { s with epoch }

/-- `++policy_generation_`, unlike the epoch without a check. -/
def advancePolicyGeneration (s : Runtime β) : Runtime β :=
  { s with policyGeneration := s.policyGeneration + 1 }

end Runtime

end NumaFabric
