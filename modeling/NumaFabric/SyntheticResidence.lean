import NumaFabric.FaultRun
import NumaFabric.RegionWrites
import NumaFabric.SyntheticBackend

/-! Where synthetic memory ends up. The backend has a capacity for every number, also for those that
no node of the host has, and the nodes of a request are taken as they come. -/
namespace NumaFabric.SyntheticResidence
open Std FaultState FaultRun LedgerCounter MigrationManager SyntheticBackend SyntheticConfig
open MemoryManager hiding allocate

variable {cfg : SyntheticConfig}

/-- The host has a node of this number. -/
def Reported (cfg : SyntheticConfig) (n : NumaNodeId) : Prop := ∃ node ∈ cfg.host.nodes, node.id = n

theorem reported_iff {n : NumaNodeId} : Reported cfg n ↔ cfg.InRange n := exists_host_node_iff

section Allocate
variable {s : SyntheticBackend} {spec : AllocationSpec} {bytes : U64} {aim : NumaNodeId}
  {fallback : Bool}

/-- The number can be taken: it is valid, and what counts as its capacity has the bytes left. -/
def Takes (cfg : SyntheticConfig) (s : SyntheticBackend) (bytes : U64) (n : NumaNodeId) : Prop :=
  n.isValid = true ∧ bytes ≤ s.remaining cfg n

theorem chooseNodeFor_takes (takes : Takes cfg s bytes aim) :
    s.chooseNodeFor cfg bytes aim fallback = aim := by
  simp [chooseNodeFor, takes.1, takes.2]

/-- Any other choice goes through the nodes of the host. -/
theorem chooseNodeFor_searched (full : ¬ Takes cfg s bytes aim)
    (valid : (s.chooseNodeFor cfg bytes aim fallback).isValid = true) :
    cfg.InRange (s.chooseNodeFor cfg bytes aim fallback) := by
  unfold chooseNodeFor at valid ⊢
  split_ifs at valid ⊢ with fits strict
  · simp only [Bool.and_eq_true, decide_eq_true_eq] at fits
    exact absurd fits full
  · cases valid
  · generalize found : List.find? _ _ = choice at valid ⊢
    cases choice with
    | none => cases valid
    | some n =>
      obtain ⟨i, below, rfl⟩ := List.mem_map.mp (List.mem_of_find?_eq_some found)
      exact inRange_nodeId (List.mem_range.mp below)

theorem observed_single_iff (validated : spec.validate = .ok ()) (single : spec.mode ≠ .interleaved)
    (aimed : target cfg spec = (aim, fallback)) :
    (∀ r t, (allocate cfg spec).run s = .ok r t → cfg.InRange r.observedNode) ↔
      (Takes cfg s spec.bytes.value aim → cfg.InRange aim) := by
  rw [allocate_single cfg validated single aimed]
  constructor
  · intro observed takes
    rw [chooseNodeFor_takes takes, if_neg (by simp [takes.1]),
      if_neg (BitVec.not_lt.mpr takes.2)] at observed
    exact observed _ _ rfl
  · intro inside r t granted
    split_ifs at granted with invalid short
    cases granted
    by_cases takes : Takes cfg s spec.bytes.value aim
    · change cfg.InRange (s.chooseNodeFor cfg spec.bytes.value aim fallback)
      rw [chooseNodeFor_takes takes]
      exact inside takes
    · exact chooseNodeFor_searched takes (by simpa using invalid)

theorem of_validate (validated : spec.validate = .ok ()) :
    spec.bytes.isZero = false ∧ (spec.mode = .requiredNode → spec.requiredNode.isValid = true) := by
  unfold AllocationSpec.validate at validated
  split_ifs at validated with zero unnamed _
  refine ⟨by simpa using zero, fun strict => ?_⟩
  simpa [strict] using unnamed

theorem run_interleaved (validated : spec.validate = .ok ()) (spread : spec.mode = .interleaved) :
    ∃ t, (allocate cfg spec).run s =
      .ok (result spec s ((interleaveNodes cfg spec).head?.getD .invalid)) t := by
  rw [allocate, validated, EStateM.run_bind, run_ofExcept_ok, if_pos spread]
  exact ⟨_, rfl⟩

theorem run_invalid {e : BackendError} (invalid : spec.validate = .error e) :
    (allocate cfg spec).run s = .error e s := by
  rw [allocate, invalid, EStateM.run_bind, run_ofExcept_error]

theorem not_inRange_invalid : ¬ cfg.InRange .invalid := by
  rintro ⟨positive, -⟩
  exact absurd positive (by decide)

theorem observed_interleaved_iff (validated : spec.validate = .ok ())
    (spread : spec.mode = .interleaved) :
    (∀ r t, (allocate cfg spec).run s = .ok r t → cfg.InRange r.observedNode) ↔
      ∃ n, (interleaveNodes cfg spec).head? = some n ∧ cfg.InRange n := by
  obtain ⟨t, granted⟩ := run_interleaved validated spread
  have observed : (∀ r t, (allocate cfg spec).run s = .ok r t → cfg.InRange r.observedNode) ↔
      cfg.InRange ((interleaveNodes cfg spec).head?.getD .invalid) := by
    rw [granted]
    constructor
    · intro inside
      exact inside _ _ rfl
    · intro inside r t' same
      cases same
      exact inside
  rw [observed]
  cases (interleaveNodes cfg spec).head? with
  | none => simp [not_inRange_invalid]
  | some n => simp

end Allocate

section Migrate
variable {β : Type} {b : Backend β} {s : Runtime β} {region : MemoryRegionId} {aim : NumaNodeId}
  {worker : WorkerId} {auth : Auth} {reason : ByteString}

/-- The region once its attempt is recorded. -/
theorem commits_started_iff {m : MigrationManager β} {req : MigrateRequest} {r : MemoryRegion} :
    RegionWrites.Commits b (started req r m).mem req.memoryRegion req.targetNode ↔
      ¬ Declines b r req.targetNode m.mem.world ∧ underflows r m.mem.nodeUsage = false ∧
        r.generation.value ≠ u64Max := by
  have region : (started req r m).mem.regions[req.memoryRegion]? =
      some { r with state := .migrationPending } := ExtTreeMap.getElem?_insert_self
  constructor
  · rintro ⟨q, found, -, rest⟩
    cases region.symm.trans found
    exact rest
  · intro rest
    exact ⟨_, region, rfl, rest⟩

/-- An attempt that was just begun is committed by its execution exactly when the reallocation goes
through. -/
theorem execute_started_iff (b : Backend β) (m : MigrationManager β) (req : MigrateRequest)
    (r : MemoryRegion) :
    (∃ t, (execute b m.nextAttemptId).run (started req r m) = .ok () t ∧
        t.attempts[m.nextAttemptId]?.any (·.committed) = true) ↔
      RegionWrites.Commits b (started req r m).mem req.memoryRegion req.targetNode := by
  have attempt : (started req r m).attempts[m.nextAttemptId]? = some (req.attempt m.nextAttemptId) :=
    ExtTreeMap.getElem?_insert_self
  rw [← RegionWrites.governed_committed_iff _ _ req.copyData]
  have ho := execute_outcome b m.nextAttemptId (started req r m)
  generalize (execute b m.nextAttemptId).run (started req r m) = res at ho
  cases ho with
  | unknown absent =>
    rw [attempt] at absent
    cases absent
  | refused q e found bad =>
    cases attempt.symm.trans found
    cases bad
  | threw q e mem found good call =>
    cases attempt.symm.trans found
    constructor
    · rintro ⟨t, returned, -⟩
      cases returned
    · rintro ⟨view, t, returned, -⟩
      cases call.symm.trans returned
  | finished q view mem found good call =>
    cases attempt.symm.trans found
    constructor
    · rintro ⟨t, returned, committed⟩
      cases returned
      rw [ExtTreeMap.getElem?_insert_self] at committed
      exact ⟨view, mem, call, committed⟩
    · rintro ⟨view', t, returned, committed⟩
      cases call.symm.trans returned
      refine ⟨_, rfl, ?_⟩
      rw [ExtTreeMap.getElem?_insert_self]
      exact committed

/-- The request of a migration through the runtime. -/
def request (s : Runtime β) (region : MemoryRegionId) (aim : NumaNodeId) (worker : WorkerId)
    (auth : Auth) (reason : ByteString) : MigrateRequest where
  worker := worker
  workerBoot := auth.boot
  epoch := s.epoch
  memoryRegion := region
  targetNode := aim
  reason := reason

theorem malformed_eq_none_iff {req : MigrateRequest} :
    req.malformed = none ↔ req.memoryRegion.isValid = true ∧ req.targetNode.isValid = true := by
  unfold MigrateRequest.malformed
  cases req.memoryRegion.isValid <;> cases req.targetNode.isValid <;> simp

theorem onMigrator_eq_ok {α : Type} {x : Exec (MigrationManager β) α} {a : α} {t : Runtime β} :
    (Runtime.onMigrator x).run s = .ok a t ↔
      ∃ m, x.run s.migrator = .ok a m ∧ { s with migrator := m } = t := by
  rw [Runtime.onMigrator, run_zoom]
  cases x.run s.migrator with
  | error e m => simp
  | ok c m => simp

/-- A migration returns exactly when its two calls of the manager do. -/
theorem migrate_eq_ok {committed : Bool} {t : Runtime β} :
    (Runtime.migrate b region aim worker auth reason).run s = .ok committed t ↔
      s.registry.validateBoot worker auth.boot = true ∧
        ∃ id m, (MigrationManager.begin (request s region aim worker auth reason)).run s.migrator =
            .ok id m ∧
          ∃ m', (execute b id).run m = .ok () m' ∧ { s with migrator := m' } = t ∧
            m'.attempts[id]?.any (·.committed) = committed := by
  rw [Runtime.migrate]
  simp only [run_bind_eq_ok, EStateM.run_get, run_throwIf_eq_ok, onMigrator_eq_ok, run_pure_eq_ok]
  constructor
  · rintro ⟨_, _, ⟨⟩, _, _, ⟨live, rfl⟩, _, _, ⟨⟩, id, _, ⟨m, begun, rfl⟩, _, _, ⟨m', executed, rfl⟩,
      _, _, ⟨⟩, committed, rfl⟩
    exact ⟨by simpa using live, id, m, begun, m', executed, rfl, committed⟩
  · rintro ⟨live, id, m, begun, m', executed, rfl, committed⟩
    exact ⟨s, s, rfl, (), s, ⟨by simp [live], rfl⟩, s, s, rfl, id, _, ⟨m, begun, rfl⟩, (), _,
      ⟨m', executed, rfl⟩, _, _, rfl, committed, rfl⟩

/-- A migration is committed exactly when a live worker asks for it, its region may become pending,
and the reallocation then goes through. -/
theorem migrate_committed_iff :
    (∃ t, (Runtime.migrate b region aim worker auth reason).run s = .ok true t) ↔
      s.registry.validateBoot worker auth.boot = true ∧ region.isValid = true ∧ aim.isValid = true ∧
        ∃ r, s.migrator.mem.regions[region]? = some r ∧
          canTransition r.state .migrationPending = true ∧
          ¬ Declines b r aim s.migrator.mem.world ∧ underflows r s.migrator.mem.nodeUsage = false ∧
          r.generation.value ≠ u64Max := by
  have started_iff := execute_started_iff b s.migrator (request s region aim worker auth reason)
  simp only [migrate_eq_ok]
  constructor
  · rintro ⟨t, live, id, m, begun, m', executed, -, committed⟩
    have ho := begin_outcome (request s region aim worker auth reason) s.migrator
    rw [begun] at ho
    cases ho with
    | started r wellFormed found good =>
      obtain ⟨hr, ha⟩ := malformed_eq_none_iff.mp wellFormed
      have rest := commits_started_iff.mp ((started_iff r).mp ⟨m', executed, committed⟩)
      exact ⟨live, hr, ha, r, found, good, rest⟩
  · rintro ⟨live, hr, ha, r, found, good, rest⟩
    have wellFormed : (request s region aim worker auth reason).malformed = none :=
      malformed_eq_none_iff.mpr ⟨hr, ha⟩
    have begun := begin_run wellFormed found good
    obtain ⟨m', executed, committed⟩ := (started_iff r).mpr (commits_started_iff.mpr rest)
    exact ⟨_, live, _, _, begun, m', executed, rfl, committed⟩

end Migrate

/-- The synthetic backend hands out a buffer for a move exactly when the number can be taken. -/
theorem not_declines_iff {r : MemoryRegion} {aim : NumaNodeId} {w : World SyntheticBackend}
    (valid : aim.isValid = true) :
    ¬ Declines (backend cfg) r aim w ↔
      r.grantedBytes.isZero = false ∧ r.grantedBytes.value ≤ w.backend.remaining cfg aim := by
  cases zero : r.grantedBytes.isZero with
  | true =>
    have invalid : (migrationSpec r.grantedBytes aim).validate =
        .error ⟨ascii "allocation of zero bytes"⟩ := by
      simp [AllocationSpec.validate, migrationSpec, zero]
    have thrown : (allocate cfg (migrationSpec r.grantedBytes aim)).run w.backend = _ :=
      run_invalid invalid
    obtain ⟨w', refused⟩ := worldAllocate_error thrown
    simp [Declines, migrationCall, refused]
  | false =>
    have strict : (migrationSpec r.grantedBytes aim).mode = .requiredNode := rfl
    have asked := allocate_required cfg strict zero valid (s := w.backend)
    simp only [true_and]
    constructor
    · intro grants
      by_contra full
      obtain ⟨w', refused⟩ := worldAllocate_error (asked.trans (if_neg full))
      refine grants fun result w'' answer => ?_
      rw [migrationCall, refused] at answer
      cases answer
    · intro fits declines
      obtain ⟨w', granted⟩ := worldAllocate_ok (asked.trans (if_pos fits))
      have unusable := declines _ _ granted
      rw [AllocationResult.ok] at unusable
      simp [result, migrationSpec, zero] at unusable

/-- A call that can place synthetic memory, or give it back. -/
inductive Call
  | allocate (spec : AllocationSpec)
  | free (alloc : AllocationResult)
  | migrate (region : MemoryRegionId) (aim : NumaNodeId) (worker : WorkerId) (auth : Auth)
      (reason : ByteString)

def step (cfg : SyntheticConfig) (s : Runtime SyntheticBackend) : Call → Runtime SyntheticBackend
  | .allocate spec => stateAfter (Runtime.onBackend (allocate cfg spec)) s
  | .free alloc =>
    stateAfter (Runtime.onBackend (modify (free alloc) : Fault BackendError SyntheticBackend Unit)) s
  | .migrate region aim worker auth reason =>
    stateAfter (Runtime.migrate (backend cfg) region aim worker auth reason) s

/-- All the nodes the allocation may go to are ones that the host does not have. -/
def AimedOutside (cfg : SyntheticConfig) (spec : AllocationSpec) : Prop :=
  match spec.mode with
  | .requiredNode => ¬ Reported cfg spec.requiredNode
  | .interleaved => spec.interleaveNodes ≠ [] ∧ ∀ n ∈ spec.interleaveNodes, ¬ Reported cfg n
  | .preferredNode | .local | .any | .synthetic => False

/-- What is granted is on a node of the host, and what is aimed at no such node is not granted. A
migration fails when it is not committed. -/
def Lands (cfg : SyntheticConfig) (s : Runtime SyntheticBackend) : Call → Prop
  | .allocate spec =>
    (∀ r t, (Runtime.onBackend (allocate cfg spec)).run s = .ok r t → Reported cfg r.observedNode) ∧
      (AimedOutside cfg spec → ∃ e t, (Runtime.onBackend (allocate cfg spec)).run s = .error e t)
  | .free _ => True
  | .migrate region aim worker auth reason =>
    ∀ t, (Runtime.migrate (backend cfg) region aim worker auth reason).run s = .ok true t →
      Reported cfg aim

/-- Nothing but the number of the node is in the way of the migration. -/
def Moves (cfg : SyntheticConfig) (s : Runtime SyntheticBackend) (region : MemoryRegionId)
    (aim : NumaNodeId) (worker : WorkerId) (auth : Auth) : Prop :=
  s.registry.validateBoot worker auth.boot = true ∧ region.isValid = true ∧
    ∃ r, s.migrator.mem.regions[region]? = some r ∧ canTransition r.state .migrationPending = true ∧
      r.grantedBytes.isZero = false ∧
      Takes cfg s.migrator.mem.world.backend r.grantedBytes.value aim ∧
      underflows r s.migrator.mem.nodeUsage = false ∧ r.generation.value ≠ u64Max

/-- A node that is asked for and can be taken is one of the host, as is the first node an allocation
is spread over. -/
def StaysInside (cfg : SyntheticConfig) (s : Runtime SyntheticBackend) : Call → Prop
  | .allocate spec => spec.validate = .ok () →
    if spec.mode = .interleaved then ∃ n, (interleaveNodes cfg spec).head? = some n ∧ cfg.InRange n
    else Takes cfg s.migrator.mem.world.backend spec.bytes.value (target cfg spec).1 →
      cfg.InRange (target cfg spec).1
  | .free _ => True
  | .migrate region aim worker auth _ => Moves cfg s region aim worker auth → cfg.InRange aim

section Lands
variable {s : Runtime SyntheticBackend}

/-- An allocation that is aimed outside and granted is observed outside. -/
theorem not_reported_of_aimedOutside {spec : AllocationSpec} {b t : SyntheticBackend}
    {r : AllocationResult} (aimed : AimedOutside cfg spec)
    (granted : (allocate cfg spec).run b = .ok r t) : ¬ Reported cfg r.observedNode := by
  cases validated : spec.validate with
  | error e =>
    rw [run_invalid validated] at granted
    cases granted
  | ok u =>
    cases mode : spec.mode with
    | requiredNode =>
      simp only [AimedOutside, mode] at aimed
      obtain ⟨nonzero, named⟩ := of_validate validated
      rw [allocate_required cfg mode nonzero (named mode)] at granted
      split_ifs at granted
      cases granted
      exact aimed
    | interleaved =>
      simp only [AimedOutside, mode] at aimed
      obtain ⟨some, outside⟩ := aimed
      obtain ⟨t', run⟩ := run_interleaved (s := b) validated mode
      rw [run] at granted
      cases granted
      have listed : interleaveNodes cfg spec = spec.interleaveNodes := by simp [interleaveNodes, some]
      have head : (interleaveNodes cfg spec).head?.getD .invalid ∈ spec.interleaveNodes := by
        rw [listed, List.head?_eq_some_head some]
        exact List.head_mem some
      exact outside _ head
    | preferredNode | «local» | any | synthetic =>
      simp only [AimedOutside, mode] at aimed

theorem onBackend_eq_ok {α ε : Type} {x : Fault ε SyntheticBackend α} {a : α} :
    (∃ t, (Runtime.onBackend x).run s = .ok a t) ↔
      ∃ t, x.run s.migrator.mem.world.backend = .ok a t := by
  rw [Runtime.onBackend, run_zoom]
  cases x.run s.migrator.mem.world.backend with
  | error e t => simp
  | ok c t => simp

/-- What is aimed outside fails as soon as all that is granted is observed inside. -/
theorem lands_allocate_iff (spec : AllocationSpec) :
    Lands cfg s (.allocate spec) ↔ ∀ r t,
      (allocate cfg spec).run s.migrator.mem.world.backend = .ok r t → cfg.InRange r.observedNode := by
  constructor
  · rintro ⟨observed, -⟩ r t granted
    obtain ⟨t', granted⟩ := onBackend_eq_ok.mpr ⟨t, granted⟩
    exact reported_iff.mp (observed r t' granted)
  · intro inside
    have observed : ∀ r t, (Runtime.onBackend (allocate cfg spec)).run s = .ok r t →
        Reported cfg r.observedNode := by
      intro r t granted
      obtain ⟨t', granted⟩ := onBackend_eq_ok.mp ⟨t, granted⟩
      exact reported_iff.mpr (inside r t' granted)
    refine ⟨observed, fun aimed => ?_⟩
    cases run : (Runtime.onBackend (allocate cfg spec)).run s with
    | error e t => exact ⟨e, t, rfl⟩
    | ok r t =>
      obtain ⟨t', granted⟩ := onBackend_eq_ok.mp ⟨t, run⟩
      exact absurd (observed r t run) (not_reported_of_aimedOutside aimed granted)

theorem migrate_moves_iff {region : MemoryRegionId} {aim : NumaNodeId} {worker : WorkerId} {auth : Auth}
    {reason : ByteString} :
    (∃ t, (Runtime.migrate (backend cfg) region aim worker auth reason).run s = .ok true t) ↔
      Moves cfg s region aim worker auth := by
  rw [migrate_committed_iff]
  constructor
  · rintro ⟨live, named, valid, r, found, good, grants, rest⟩
    obtain ⟨nonzero, fits⟩ := (not_declines_iff valid).mp grants
    exact ⟨live, named, r, found, good, nonzero, ⟨valid, fits⟩, rest⟩
  · rintro ⟨live, named, r, found, good, nonzero, ⟨valid, fits⟩, rest⟩
    exact ⟨live, named, valid, r, found, good, (not_declines_iff valid).mpr ⟨nonzero, fits⟩, rest⟩

theorem lands_iff (call : Call) : Lands cfg s call ↔ StaysInside cfg s call := by
  cases call with
  | allocate spec =>
    rw [lands_allocate_iff, StaysInside]
    cases validated : spec.validate with
    | error e => simp [run_invalid validated]
    | ok u =>
      simp only [forall_const]
      split_ifs with spread
      · exact observed_interleaved_iff validated spread
      · exact observed_single_iff validated spread rfl
  | free alloc => exact Iff.rfl
  | migrate region aim worker auth reason =>
    rw [Lands, StaysInside, ← @migrate_moves_iff cfg s region aim worker auth reason, forall_exists_index]
    simp only [reported_iff]

end Lands

/-- In a run of any calls memory only ever lands on nodes of the host exactly when every call
stays inside. -/
theorem always_lands_iff (cfg : SyntheticConfig) (s : Runtime SyntheticBackend) (calls : List Call) :
    (∀ pre call, pre ++ [call] <+: calls → Lands cfg (pre.foldl (step cfg) s) call) ↔
      Meets (step cfg) (StaysInside cfg) s calls := by
  simp only [meets_iff, lands_iff]

/-- On a host of two nodes an allocation for the ninety-ninth is granted. -/
theorem node_ninety_nine_granted :
    ¬ ∀ (cfg : SyntheticConfig) (s : Runtime SyntheticBackend) (calls : List Call) (pre : List Call)
      (call : Call), pre ++ [call] <+: calls → Lands cfg (pre.foldl (step cfg) s) call := by
  intro landed
  let spec : AllocationSpec := { bytes := ⟨64⟩, mode := .requiredNode, requiredNode := ⟨99⟩ }
  have lands := landed {} (.create {} fun _ => 0) [.allocate spec] [] (.allocate spec)
    (List.prefix_refl _)
  have takes : Takes {} ({} : SyntheticBackend) spec.bytes.value (target {} spec).1 :=
    ⟨by decide, by decide⟩
  obtain ⟨-, inside⟩ := (lands_iff _).mp lands rfl takes
  exact absurd inside (by decide)

end NumaFabric.SyntheticResidence
