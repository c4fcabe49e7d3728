import NumaFabric.SyntheticBackend
import NumaFabric.PlacementChoice
import NumaFabric.MemoryOutcome
import NumaFabric.RuntimeFrames

/-! The planner against the allocator. The planner judges a node by the discovered capacity
and the reservations on it, the synthetic backend by the bytes it has handed out there; a
planned placement can be executed exactly when the second has room. -/
namespace NumaFabric.PlannedExecution
open Std FaultState FaultRun LedgerCounter PlacementChoice RuntimeFrames SyntheticBackend
open NumaFabric.Runtime

section Topology
variable {β : Type}

/-- The same topology. -/
def SameTopology (s t : Runtime β) : Prop := t.topo = s.topo

instance : Std.Refl (SameTopology (β := β)) := ⟨fun _ => rfl⟩

instance : IsTrans (Runtime β) SameTopology := ⟨fun _ _ _ h g => g.trans h⟩

theorem ignoresMemory_sameTopology : IgnoresMemory (SameTopology (β := β)) := fun _ _ => rfl

theorem ignoresRegistry_sameTopology : IgnoresRegistry (SameTopology (β := β)) := fun _ _ => rfl

theorem ignoresReservations_sameTopology : IgnoresReservations (SameTopology (β := β)) := fun _ _ => rfl

theorem sameTopology_recover (disk : Persistence.Disk) (path : ByteString) :
    Preserves (SameTopology (β := β)) (recover disk path) := by
  refine (Preserves.ofExcept _).bind fun _ => (Preserves.modify fun s => ?_).bind fun _ =>
    (ignoresRegistry_sameTopology.onRegistry _).bind fun _ => Preserves.get.bind fun _ =>
    (ignoresReservations_sameTopology.onReservations _).bind fun _ => Preserves.modify fun s => ?_
  · exact Eq.refl s.topo
  · exact Eq.refl s.topo

/-- Only a discovery replaces the topology. -/
theorem sameTopology_step (b : Backend β) (probe : HostProbe β) (s : Runtime β) {op : Op}
    (other : op ≠ .discover) : SameTopology s (step b probe s op) := by
  cases op with
  | discover => exact absurd rfl other
  | refreshAccelerators =>
    exact ignoresMemory_sameTopology.refreshAccelerators (fun _ _ => rfl) probe s
  | registerAccelerators accelerators => rfl
  | allocate req => exact ignoresMemory_sameTopology.onMigrator _ s
  | release id => exact ignoresMemory_sameTopology.onMigrator _ s
  | allocateOnNode bytes node kind => exact ignoresMemory_sameTopology.onMigrator _ s
  | execute d opts => exact ignoresMemory_sameTopology.execute b d opts s
  | reserve req => exact ignoresReservations_sameTopology.reserve req s
  | releaseReservation id => exact ignoresReservations_sameTopology.onReservations _ s
  | registerWorker id pid => exact ignoresRegistry_sameTopology.onRegistry _ s
  | restartWorker id pid => exact ignoresRegistry_sameTopology.onRegistry _ s
  | markWorkerDead id boot => rfl
  | bindWorker id boot node applyAffinity =>
    exact ignoresMemory_sameTopology.bindWorker b id boot node applyAffinity
      (ignoresRegistry_sameTopology.recordBinding id node) s
  | observe id boot => exact ignoresRegistry_sameTopology.observe (fun _ _ => rfl) id boot s
  | migrate region target worker auth reason =>
    exact ignoresMemory_sameTopology.migrate b region target worker auth reason s
  | advanceEpoch => exact preserves_advanceEpoch (R := SameTopology) (fun _ _ => rfl) s
  | advancePolicyGeneration => rfl
  | recover disk path => exact sameTopology_recover disk path s

/-- Every node of the topology has a valid number. -/
def Numbered (s : Runtime β) : Prop := ∀ n ∈ s.topo.nodes, n.id.isValid = true

/-- What is discovered has been validated. -/
theorem numbered_discover {cfg : SyntheticConfig} {s : Runtime SyntheticBackend} (h : Numbered s) :
    Numbered (stateAfter (discover (probe cfg)) s) := by
  rw [stateAfter, discover, EStateM.run_bind, onBackend, run_zoom, probe]
  cases accepted : cfg.host.validate with
  | error e => exact h
  | ok u => exact HostTopology.isValid_of_validate accepted

theorem numbered_step {cfg : SyntheticConfig} {s : Runtime SyntheticBackend} (h : Numbered s) (op : Op) :
    Numbered (step (backend cfg) (probe cfg) s op) := by
  by_cases discovers : op = .discover
  · subst discovers
    exact numbered_discover h
  · have same := sameTopology_step (backend cfg) (probe cfg) s discovers
    rw [Numbered, same]
    exact h

theorem numbered_run {cfg : SyntheticConfig} {s : Runtime SyntheticBackend} (h : Numbered s)
    (ops : List Op) : Numbered (run (backend cfg) (probe cfg) s ops) := by
  induction ops generalizing s with
  | nil => exact h
  | cons op ops ih => exact ih (numbered_step h op)

end Topology

section Execute
variable {cfg : SyntheticConfig} {d : PlacementDecision} {opts : ExecuteOptions}
  {s : Runtime SyntheticBackend}

/-- The room the backend has on a node. -/
def room (cfg : SyntheticConfig) (s : Runtime SyntheticBackend) (n : NumaNodeId) : U64 :=
  s.migrator.mem.world.backend.remaining cfg n

/-- The call leaves a region under the number the manager was about to give, and it is not a
failed one. -/
def Creates (s : Runtime SyntheticBackend)
    (result : EStateM.Result Exn (Runtime SyntheticBackend) ByteString) : Prop :=
  ∃ text t r, result = .ok text t ∧
    t.migrator.mem.regions[(⟨s.migrator.mem.nextId⟩ : MemoryRegionId)]? = some r ∧ r.state ≠ .failed

section Call
variable (nonzero : opts.memoryFootprint.isZero = false) (valid : d.selectedNode.isValid = true)
  {w : World SyntheticBackend}
include nonzero valid

theorem call_granted (fits : opts.memoryFootprint.value ≤ w.backend.remaining cfg d.selectedNode) :
    ∃ r w', (World.allocate (backend cfg) (executeRequest d opts).spec).run w = .ok r w' ∧
      r.kind = .synthetic := by
  have strict : (executeRequest d opts).spec.mode = .requiredNode := rfl
  obtain ⟨w', granted⟩ := worldAllocate_ok
    ((allocate_required cfg strict nonzero valid (s := w.backend)).trans (if_pos fits))
  exact ⟨_, w', granted, rfl⟩

theorem call_refused (full : ¬ opts.memoryFootprint.value ≤ w.backend.remaining cfg d.selectedNode) :
    ∃ e w', (World.allocate (backend cfg) (executeRequest d opts).spec).run w = .error e w' := by
  have strict : (executeRequest d opts).spec.mode = .requiredNode := rfl
  exact ⟨_, worldAllocate_error
    ((allocate_required cfg strict nonzero valid (s := w.backend)).trans (if_neg full))⟩

end Call

variable {β : Type} {b : Backend β} {t : Runtime β}

theorem allocate_run (req : AllocateRequest) :
    (Runtime.allocate b req).run t =
      match (MemoryManager.allocate b req).run t.migrator.mem with
      | .ok r m => .ok r { t with migrator := { t.migrator with mem := m } }
      | .error e m => .error e { t with migrator := { t.migrator with mem := m } } := by
  rw [Runtime.allocate, onMemory, Runtime.onMigrator, run_zoom, MigrationManager.onMemory, run_zoom]
  cases (MemoryManager.allocate b req).run t.migrator.mem <;> rfl

section Report
variable (places : d.kind.places = true) (allocates : opts.allocateMemory = true)
include places allocates

/-- An execution that allocates is its memory part and a report. -/
theorem execute_eq : execute b d opts = executeMemory b d opts >>= fun memory =>
    pure (d.kind.text ++ ascii " -> node " ++ d.selectedNode.text ++ ascii " (penalty " ++
      decimal d.expectedPenalty.value ++ ascii ")" ++ memory ++
      if opts.bindWorker then ascii " (binding delegated to bind_worker)" else []) := by
  unfold execute
  simp only [places, allocates, Bool.not_true, Bool.false_eq_true, if_false, if_true]

/-- The manager throws and so does the call. -/
theorem execute_throws {e : Exn} {m : MemoryManager β}
    (threw : (MemoryManager.allocate b (executeRequest d opts)).run t.migrator.mem = .error e m) :
    ∃ u, (execute b d opts).run t = .error e u := by
  have asked : (Runtime.allocate b (executeRequest d opts)).run t =
      .error e { t with migrator := { t.migrator with mem := m } } := by
    rw [allocate_run, threw]
  rw [execute_eq places allocates]
  exact ⟨_, run_bind_of_error (run_bind_of_error asked)⟩

/-- A region without a buffer is reported as it is created. -/
theorem execute_returns {r : MemoryRegion} {m : MemoryManager β}
    (created : (MemoryManager.allocate b (executeRequest d opts)).run t.migrator.mem = .ok r m)
    (plain : (r.kind != .synthetic && r.backendResult.hasBuffer) = false) :
    ∃ text, (execute b d opts).run t =
      .ok text { t with migrator := { t.migrator with mem := m } } := by
  have asked : (Runtime.allocate b (executeRequest d opts)).run t =
      .ok r { t with migrator := { t.migrator with mem := m } } := by
    rw [allocate_run, created]
  have reported : ∃ text, (executeMemory b d opts).run t =
      .ok text { t with migrator := { t.migrator with mem := m } } := by
    rw [executeMemory, run_bind_of_ok asked, Bool.and_assoc, plain, Bool.and_false]
    exact ⟨_, rfl⟩
  obtain ⟨memory, reported⟩ := reported
  rw [execute_eq places allocates, run_bind_of_ok reported]
  exact ⟨_, rfl⟩

end Report

/-- An execution creates a region that has not failed exactly when the backend has room on
the node and the memory generations are not exhausted. -/
theorem execute_creates_iff (places : d.kind.places = true) (allocates : opts.allocateMemory = true)
    (nonzero : opts.memoryFootprint.isZero = false) (valid : d.selectedNode.isValid = true) :
    Creates s ((execute (backend cfg) d opts).run s) ↔
      opts.memoryFootprint.value ≤ room cfg s d.selectedNode ∧
        s.migrator.mem.watermark.value ≠ u64Max := by
  have outcome := MemoryManager.allocate_outcome (backend cfg) (executeRequest d opts) s.migrator.mem
  generalize allocated : (MemoryManager.allocate (backend cfg) (executeRequest d opts)).run
    s.migrator.mem = result at outcome
  cases outcome with
  | zero bad => exact absurd bad (by rw [executeRequest, nonzero]; simp)
  | exhausted last =>
    obtain ⟨u, threw⟩ := execute_throws places allocates allocated
    constructor
    · rintro ⟨text, t, r, returned, -⟩
      rw [threw] at returned
      cases returned
    · rintro ⟨-, more⟩
      exact absurd last more
  | failed g e w _ next call =>
    obtain ⟨text, returned⟩ := execute_returns places allocates allocated rfl
    constructor
    · rintro ⟨text', t, r, same, found, alive⟩
      rw [returned] at same
      cases same
      simp only [ExtTreeMap.getElem?_insert_self, Option.some.injEq] at found
      exact absurd (congrArg MemoryRegion.state found).symm alive
    · rintro ⟨fits, -⟩
      obtain ⟨r, w', granted, -⟩ := call_granted nonzero valid fits
      rw [granted] at call
      cases call
  | granted g result w _ next call r region_eq =>
    have fits : opts.memoryFootprint.value ≤ room cfg s d.selectedNode := by
      by_contra full
      obtain ⟨e, w', refused⟩ := call_refused nonzero valid full
      rw [refused] at call
      cases call
    obtain ⟨r', w', granted, synthetic⟩ := call_granted nonzero valid fits
    rw [granted] at call
    cases call
    have plain : (r.kind != .synthetic && r.backendResult.hasBuffer) = false := by
      have kind : r.kind = result.kind := by rw [region_eq]; rfl
      simp [kind, synthetic]
    obtain ⟨text, returned⟩ := execute_returns places allocates allocated plain
    simp only [fits, Generation.ne_max_of_next next, ne_eq, not_false_eq_true, and_self, iff_true]
    refine ⟨text, _, r, returned, ExtTreeMap.getElem?_insert_self, ?_⟩
    rw [region_eq]
    simp [MemoryManager.grantedRegion, MemoryRegion.granted, executeRequest]

end Execute

section Planned
variable (cfg : SyntheticConfig) (float : FloatCosts)

/-- If the planner places the request now, executing its decision creates a region that has
not failed. -/
def Executable (s : Runtime SyntheticBackend) (req : PlacementRequest) (opts : ExecuteOptions) : Prop :=
  ∀ d t, (Runtime.plan (backend cfg) float req).run s = .ok d t → d.kind.places = true →
    Creates t ((execute (backend cfg) d opts).run t)

/-- The backend has room for the request on its cheapest node, should the request take that
node, and there is a memory generation left. -/
def HasRoom (s : Runtime SyntheticBackend) (req : PlacementRequest) : Prop :=
  ∀ model n, buildPlacementModel (backend cfg) float s = .ok model → req.revalidationPending = false →
    Cheapest s.topo req model n → Accepts req model n →
    req.memoryFootprint.value ≤ room cfg s n ∧ s.migrator.mem.watermark.value ≠ u64Max

theorem plan_run (req : PlacementRequest) (s : Runtime SyntheticBackend) :
    (Runtime.plan (backend cfg) float req).run s =
      match buildPlacementModel (backend cfg) float s with
      | .ok model => .ok (PlacementEngine.plan s.topo req model) s
      | .error e => .error e s := by
  rw [Runtime.plan, run_bind_of_ok (EStateM.run_get s)]
  cases buildPlacementModel (backend cfg) float s <;> rfl

/-- In every state a runtime on the synthetic backend can reach, what is planned can be
executed exactly when the backend has room for it where it is planned. -/
theorem planned_executable_iff (heap : Heap) (ops : List Op) {req : PlacementRequest}
    {opts : ExecuteOptions} (positive : req.memoryFootprint.isZero = false)
    (allocates : opts.allocateMemory = true) (same : opts.memoryFootprint = req.memoryFootprint) :
    let s := run (backend cfg) (probe cfg) (.create {} heap) ops
    Executable cfg float s req opts ↔ HasRoom cfg float s req := by
  intro s
  have initial : Numbered (create ({} : SyntheticBackend) heap) := by
    intro n mem
    cases mem
  have numbered : Numbered s := numbered_run initial ops
  have nonzero : opts.memoryFootprint.isZero = false := by rw [same, positive]
  unfold Executable HasRoom
  rw [plan_run]
  cases built : buildPlacementModel (backend cfg) float s with
  | error e => simp
  | ok model =>
    -- The planner and the executor meet in the cheapest node of the request.
    have meet {n : NumaNodeId} (fresh : req.revalidationPending = false)
        (cheapest : Cheapest s.topo req model n) (accepts : Accepts req model n) :
        Creates s ((execute (backend cfg) (PlacementEngine.plan s.topo req model) opts).run s) ↔
          req.memoryFootprint.value ≤ room cfg s n ∧ s.migrator.mem.watermark.value ≠ u64Max := by
      have selected := plan_selected fresh cheapest
      obtain ⟨x, mem, rfl, -⟩ := cheapest.eligible
      rw [← selected, ← same]
      refine execute_creates_iff (plan_places.mpr ⟨fresh, _, cheapest, accepts⟩) allocates nonzero ?_
      rw [selected]
      exact numbered x mem
    constructor
    · intro executable model' n hm fresh cheapest accepts
      cases hm
      exact (meet fresh cheapest accepts).mp
        (executable _ s rfl (plan_places.mpr ⟨fresh, n, cheapest, accepts⟩))
    · intro room d t planned places
      cases planned
      obtain ⟨fresh, n, cheapest, accepts⟩ := plan_places.mp places
      exact (meet fresh cheapest accepts).mpr (room model n rfl fresh cheapest accepts)

end Planned

/-- A host of one node with 64 bytes. -/
def tinyHost : SyntheticConfig := { nodeCount := 1, processorsPerNode := 1, nodeCapacities := [⟨64⟩] }

def tinyRun (ops : List Op) : Runtime SyntheticBackend :=
  run (backend tinyHost) (probe tinyHost) (.create {} fun _ => 0) ops

/-- A region takes some of the node, and a reservation the same bytes. -/
def halfSpent : List Op :=
  [.discover, .allocate { bytes := ⟨32⟩, mode := .requiredNode, requiredNode := ⟨1⟩ },
    .reserve { node := ⟨1⟩, bytes := ⟨32⟩ }]

/-- What the reservation leaves is planned, and the backend still has it. -/
theorem planned_executable_iff_after_reserve :
    Executable tinyHost ⟨fun _ _ => 0, fun _ => 0⟩ (tinyRun halfSpent) { memoryFootprint := ⟨32⟩ }
      { allocateMemory := true, memoryFootprint := ⟨32⟩ } := by
  refine (planned_executable_iff tinyHost ⟨fun _ _ => 0, fun _ => 0⟩ (fun _ => 0) halfSpent
    (by decide) rfl rfl).mpr fun model n _ _ cheapest _ => ?_
  obtain ⟨x, mem, rfl, -⟩ := cheapest.eligible
  have only : ∀ y ∈ (tinyRun halfSpent).topo.nodes, y.id = ⟨1⟩ := by decide
  rw [only x mem]
  decide

/-- All bytes of the node are handed out without a reservation. -/
def spent : List Op :=
  [.discover, .allocate { bytes := ⟨64⟩, mode := .requiredNode, requiredNode := ⟨1⟩ }]

/-- The planner still finds the node empty; the region it asks for fails. -/
theorem planned_placement_fails :
    ¬ ∀ (cfg : SyntheticConfig) (float : FloatCosts) (heap : Heap) (ops : List Op)
      (req : PlacementRequest) (opts : ExecuteOptions), req.memoryFootprint.isZero = false →
      opts.allocateMemory = true → opts.memoryFootprint = req.memoryFootprint →
      Executable cfg float (run (backend cfg) (probe cfg) (.create {} heap) ops) req opts := by
  intro executable
  have creates := executable tinyHost ⟨fun _ _ => 0, fun _ => 0⟩ (fun _ => 0) spent
    { memoryFootprint := ⟨1⟩ } { allocateMemory := true, memoryFootprint := ⟨1⟩ } (by decide) rfl rfl
  have only : ∀ x ∈ (tinyRun spent).topo.nodes, x.id = ⟨1⟩ := by decide
  have passes : (buildPlacementModel (backend tinyHost) ⟨fun _ _ => 0, fun _ => 0⟩ (tinyRun spent)).map
      (fun model => (tinyRun spent).topo.nodes.map fun x =>
        PlacementEngine.evaluateEligibility x { memoryFootprint := ⟨1⟩ } model) = .ok [none] := by decide
  cases built : buildPlacementModel (backend tinyHost) ⟨fun _ _ => 0, fun _ => 0⟩ (tinyRun spent) with
  | error e =>
    rw [built] at passes
    cases passes
  | ok model =>
    rw [built] at passes
    simp only [Except.map, Except.ok.injEq, List.map_eq_singleton_iff] at passes
    obtain ⟨x, nodes, eligible⟩ := passes
    have mem : x ∈ (tinyRun spent).topo.nodes := by simp [nodes]
    have cheapest : Cheapest (tinyRun spent).topo { memoryFootprint := ⟨1⟩ } model ⟨1⟩ := by
      refine ⟨⟨x, mem, only x mem, eligible⟩, fun y hy _ => ?_⟩
      rw [only y hy]
    have selected := plan_selected rfl cheapest
    have accepts : Accepts { memoryFootprint := ⟨1⟩ } model ⟨1⟩ := ⟨nofun, .inr rfl⟩
    have places := plan_places.mpr ⟨rfl, _, cheapest, accepts⟩
    have created := creates _ (tinyRun spent) (by rw [← tinyRun, plan_run, built]) places
    have fits := ((execute_creates_iff places rfl (by decide) (by rw [selected]; decide)).mp created).1
    rw [selected] at fits
    revert fits
    decide

end NumaFabric.PlannedExecution
