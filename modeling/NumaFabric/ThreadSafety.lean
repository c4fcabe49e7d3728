import NumaFabric.MemoryThreads

/-! Any number of allocations, releases, migrations, transitions and refreshes at once are
safe in every order of their phases, as long as no release and no transition is accepted on a
region that is being moved, and the counters have room. -/
namespace NumaFabric.MemoryThreads
open Std FaultState FaultRun LedgerCounter MemoryManager MemoryLedger MemoryAccounting
  MigrationCommit TokenOwnership MemoryOwnership ThreadPool
open MigrationRace (Reallocation Migrator Releaser Ended Room phase)

variable {ι β : Type}

section Claims

/-- The allocation a thread has in its hands, and no region yet or no longer. -/
def Thread.buffer : Thread → Option ℕ
  | .allocating (.obtained _ result) => result.map (·.handle)
  | .releasing p => p.buffer
  | .migrating _ p => p.buffer
  | _ => none

/-- The region a migration has marked and not settled. -/
def Thread.moving : Thread → Option MemoryRegionId
  | .migrating m (.marked _) => some m.id
  | .migrating m .declined => some m.id
  | .migrating m (.allocated _ _) => some m.id
  | .migrating m (.freed _ _) => some m.id
  | _ => none

def Thread.snapshot : Thread → Option MemoryRegion
  | .migrating _ (.marked snapshot) => some snapshot
  | .migrating _ (.allocated snapshot _) => some snapshot
  | .migrating _ (.freed snapshot _) => some snapshot
  | _ => none

/-- The region whose old buffer a migration has given back, before it commits. -/
def Thread.gaveBack : Thread → Option MemoryRegionId
  | .migrating m (.freed _ _) => some m.id
  | _ => none

/-- The region a release has got hold of. -/
def Thread.taken : Thread → Option MemoryRegionId
  | .releasing p => p.taken
  | _ => none

/-- The region an allocation has recorded. -/
def Thread.named : Thread → Option MemoryRegionId
  | .allocating (.returned r) => some r.id
  | _ => none

end Claims

/-- The counter of the node a new region is charged to can take its bytes, whatever its
generation. -/
def Fresh (s : MemoryManager β) (req : AllocateRequest) (result : AllocationResult) : Prop :=
  let r := grantedRegion ⟨s.nextId⟩ .initial req result
  r.chooseObservedNode.isValid = true →
    (entry s.nodeUsage r.chooseObservedNode).toNat + r.grantedBytes.value.toNat < 2 ^ 64

instance (s : MemoryManager β) (req : AllocateRequest) (result : AllocationResult) :
    Decidable (Fresh s req result) := inferInstanceAs (Decidable (_ → _))

/-- No release and no transition is accepted on a region that is being moved, a transition
leads to a live state, and whatever is charged fits its counter. -/
def Thread.Permitted (s : MemoryManager β) : Thread → Prop
  | .allocating (.obtained req (some result)) => Fresh s req result
  | .releasing (.ready id expected) =>
    ∀ r ∈ s.regions[id]?, r.state = .migrating → releaseRefusal r id expected ≠ none
  | .migrating m (.freed snapshot result) =>
    snapshot.generation.value ≠ u64Max ∧ Room m s snapshot result
  | .editing (.ready (.transition id next)) =>
    ∀ r ∈ s.regions[id]?, canTransition r.state next = true →
      r.state ≠ .migrating ∧ next.isLive = true
  | _ => True

instance (s : MemoryManager β) : ∀ t : Thread, Decidable (t.Permitted s)
  | .allocating (.obtained req (some result)) => inferInstanceAs (Decidable (Fresh s req result))
  | .releasing (.ready id _) => inferInstanceAs (Decidable (∀ r ∈ s.regions[id]?, _ → _))
  | .migrating _ (.freed _ _) => inferInstanceAs (Decidable (_ ∧ _))
  | .editing (.ready (.transition id _)) =>
    inferInstanceAs (Decidable (∀ r ∈ s.regions[id]?, _ → _))
  | .allocating (.obtained _ none) | .allocating (.ready _) | .allocating (.returned _)
  | .allocating (.threw _) | .releasing (.marked _ _) | .releasing (.returned _)
  | .releasing (.threw _ _) | .migrating _ .ready | .migrating _ (.marked _)
  | .migrating _ .declined | .migrating _ (.allocated _ _) | .migrating _ (.returned _)
  | .migrating _ (.threw _) | .editing (.ready .invalidateLocalityStale) | .editing .returned
  | .editing (.threw _) => inferInstanceAs (Decidable True)

def Permitted (s : Pool ι (MemoryManager β) Thread) (i : ι) : Prop :=
  (s.threads i).Permitted s.shared

instance (s : Pool ι (MemoryManager β) Thread) (i : ι) : Decidable (Permitted s i) :=
  inferInstanceAs (Decidable ((s.threads i).Permitted s.shared))

/-- What holds at every moment, whatever the calls are in the middle of. -/
structure Safe (s : Pool ι (MemoryManager β) Thread) : Prop where
  freedOnce : ∀ handle, s.shared.world.frees.count handle ≤ 1
  movedByOne : Exclusive fun i => (s.threads i).moving
  releasedByOne : Exclusive fun i => (s.threads i).taken
  namedOnce : Exclusive fun i => (s.threads i).named
  staysReleased : ∀ i id r, (s.threads i).taken = some id → s.shared.regions[id]? = some r →
    r.state.isLive = false
  intact : ∀ (id : MemoryRegionId) (r : MemoryRegion), s.shared.regions[id]? = some r →
    r.state.isLive = true → (∀ i, (s.threads i).gaveBack ≠ some id) →
      r.backendResult.handle ∉ s.shared.world.frees ∧
        ∀ (j : MemoryRegionId) (q : MemoryRegion), s.shared.regions[j]? = some q →
          q.state.isLive = true → q.backendResult.handle = r.backendResult.handle → j = id
  accounted : ∀ n : NumaNodeId,
    (perNodeAllocated s.shared n).toNat = if n.isValid then liveTotal n s.shared else 0
  clean : accountingClean s.shared = true ↔
    ∀ (id : MemoryRegionId) (r : MemoryRegion), s.shared.regions[id]? = some r →
      r.state.isLive = false

section Invariant

/-- A region without the flags a refresh may clear at any time. -/
def unrefreshed (r : MemoryRegion) : MemoryRegion :=
  { r with localityCurrent := false, localityVerified := false }

/-- The two regions differ in nothing but those flags. -/
def Alike (r q : MemoryRegion) : Prop := unrefreshed r = unrefreshed q

namespace Alike
variable {r q : MemoryRegion}

theorem buffer (h : Alike r q) : r.backendResult = q.backendResult := by
  change (unrefreshed r).backendResult = (unrefreshed q).backendResult
  exact congrArg MemoryRegion.backendResult h

theorem node (h : Alike r q) : r.chooseObservedNode = q.chooseObservedNode := by
  change (unrefreshed r).chooseObservedNode = (unrefreshed q).chooseObservedNode
  exact congrArg MemoryRegion.chooseObservedNode h

theorem bytes (h : Alike r q) : r.grantedBytes = q.grantedBytes := by
  change (unrefreshed r).grantedBytes = (unrefreshed q).grantedBytes
  exact congrArg MemoryRegion.grantedBytes h

theorem generation (h : Alike r q) : r.generation = q.generation := by
  change (unrefreshed r).generation = (unrefreshed q).generation
  exact congrArg MemoryRegion.generation h

end Alike

/-- Who may hold an allocation that is not freed. -/
abbrev Owner (ι : Type) := MemoryRegionId ⊕ ι

def owned (s : Pool ι (MemoryManager β) Thread) : Owner ι → Option ℕ
  | .inl id => (held s.shared id).filter (· ∉ s.shared.world.frees)
  | .inr i => (s.threads i).buffer

/-- What a thread knows of the shared state between two of its phases. -/
structure Thread.Knows (t : Thread) (s : MemoryManager β) : Prop where
  moving : ∀ id, t.moving = some id → ∃ r, s.regions[id]? = some r ∧ r.state = .migrating ∧
    ∀ q, t.snapshot = some q → Alike r q
  taken : ∀ id, t.taken = some id → Ended s id
  named : ∀ id, t.named = some id → ∃ r, s.regions[id]? = some r
  granted : ∀ req result, t = .allocating (.obtained req (some result)) →
    req.bytes.isZero = false ∧ result.grantedBytes = req.bytes

structure Sound (s : Pool ι (MemoryManager β) Thread) : Prop where
  exact : Exact s.shared
  owned : Sole (owned s) s.shared.world.frees s.shared.world.given.length
  movedByOne : Exclusive fun i => (s.threads i).moving
  releasedByOne : Exclusive fun i => (s.threads i).taken
  namedOnce : Exclusive fun i => (s.threads i).named
  knows : ∀ i, (s.threads i).Knows s.shared
  gone : ∀ id k, held s.shared id = some k → k ∈ s.shared.world.frees →
    ∃ i, (s.threads i).gaveBack = some id

variable {s : Pool ι (MemoryManager β) Thread}

theorem owned_region {id : MemoryRegionId} {k : ℕ} : MemoryThreads.owned s (.inl id) = some k ↔
    held s.shared id = some k ∧ k ∉ s.shared.world.frees := by
  simp [MemoryThreads.owned, Option.filter_eq_some_iff]

theorem Sound.intact (h : Sound s) {id : MemoryRegionId} {r : MemoryRegion}
    (found : s.shared.regions[id]? = some r) (standing : r.state.isReleased = false)
    (kept : ∀ i, (s.threads i).gaveBack ≠ some id) :
    MemoryThreads.owned s (.inl id) = some r.backendResult.handle := by
  rw [owned_region]
  refine ⟨held_of_standing found standing, fun freed => ?_⟩
  obtain ⟨i, gave⟩ := h.gone id _ (held_of_standing found standing) freed
  exact kept i gave

theorem moving_of_gaveBack {t : Thread} {id : MemoryRegionId} (gave : t.gaveBack = some id) :
    t.moving = some id := by
  cases t with
  | migrating m p => cases p <;> first | exact gave | cases gave
  | _ => cases gave

theorem Sound.safe (h : Sound s) : Safe s where
  freedOnce handle := List.nodup_iff_count_le_one.mp h.owned.once handle
  movedByOne := h.movedByOne
  releasedByOne := h.releasedByOne
  namedOnce := h.namedOnce
  staysReleased i id r taken found := by
    obtain ⟨q, region, ended⟩ := (h.knows i).taken id taken
    cases region.symm.trans found
    exact MigrationRace.isLive_of_isReleased ended
  intact id r found live kept := by
    have owns := h.intact found (isReleased_of_isLive live) kept
    obtain ⟨-, unfreed⟩ := owned_region.mp owns
    refine ⟨unfreed, fun j q found' live' same => ?_⟩
    have also : MemoryThreads.owned s (.inl j) = some r.backendResult.handle := by
      rw [owned_region, ← same]
      exact ⟨held_of_standing found' (isReleased_of_isLive live'), same ▸ unfreed⟩
    exact Sum.inl_injective (h.owned.single _ _ _ also owns)
  accounted n := by
    split_ifs with valid
    · exact h.exact.entries n valid
    · have absent : s.shared.nodeUsage[n]? = none := by
        by_contra present
        obtain ⟨v, hv⟩ := Option.ne_none_iff_exists'.mp present
        exact valid (h.exact.tidy n v hv).1
      simp [perNodeAllocated, entry, absent]
  clean := h.exact.clean_iff

/-- What a step leaves of the regions: none disappears, none that is over comes back, and one
that is being moved by another thread keeps everything a refresh does not clear. -/
def Leaves (own : Option MemoryRegionId) (mem mem' : MemoryManager β) : Prop :=
  ∀ (id : MemoryRegionId) (r : MemoryRegion), mem.regions[id]? = some r →
    ∃ r', mem'.regions[id]? = some r' ∧
      (r.state.isReleased = true → r'.state.isReleased = true) ∧
      (r.state = .migrating → own ≠ some id →
        r'.state = .migrating ∧ Alike r' r)

namespace Leaves
variable {own : Option MemoryRegionId} {mem mem' : MemoryManager β}

theorem of_regions_eq (same : mem'.regions = mem.regions) : Leaves own mem mem' :=
  fun _ r found => ⟨r, same ▸ found, fun ended => ended, fun moving _ => ⟨moving, rfl⟩⟩

/-- A rewrite of a region that is not over, and not moved by another thread. -/
theorem insert {id : MemoryRegionId} {r r' : MemoryRegion} (found : mem.regions[id]? = some r)
    (standing : r.state.isReleased = false) (free : r.state = .migrating → own = some id)
    (regions_eq : mem'.regions = mem.regions.insert id r') : Leaves own mem mem' := by
  intro j q hq
  by_cases same : id = j
  · subst same
    cases found.symm.trans hq
    refine ⟨r', by simp [regions_eq], fun ended => ?_, fun moving other => ?_⟩
    · simp [standing] at ended
    · exact absurd (free moving) other
  · refine ⟨q, ?_, fun ended => ended, fun moving _ => ⟨moving, rfl⟩⟩
    rw [MigrationRace.getElem?_of_ne regions_eq (Ne.symm same)]
    exact hq

/-- A new region. -/
theorem record {id : MemoryRegionId} {r' : MemoryRegion} (fresh : mem.regions[id]? = none)
    (regions_eq : mem'.regions = mem.regions.insert id r') : Leaves own mem mem' := by
  intro j q hq
  have other : j ≠ id := by
    rintro rfl
    simp [fresh] at hq
  refine ⟨q, ?_, fun ended => ended, fun moving _ => ⟨moving, rfl⟩⟩
  rw [MigrationRace.getElem?_of_ne regions_eq other]
  exact hq

theorem refresh (mem : MemoryManager β) : Leaves own mem mem.invalidateLocalityStale := by
  intro j q hq
  have after : mem.invalidateLocalityStale.regions[j]? = some
      (if q.state.isLive then { q with localityCurrent := false, localityVerified := false }
        else q) := by
    rw [MemoryManager.invalidateLocalityStale, ExtTreeMap.getElem?_map, hq, Option.map_some]
  refine ⟨_, after, ?_⟩
  split_ifs <;> exact ⟨fun ended => ended, fun moving _ => ⟨moving, rfl⟩⟩

/-- What the other threads know survives the step. -/
theorem knows (leaves : Leaves own mem mem') {t : Thread} (known : t.Knows mem)
    (other : ∀ id, own = some id → t.moving ≠ some id) : t.Knows mem' where
  moving id moves := by
    obtain ⟨r, found, moving, like⟩ := known.moving id moves
    obtain ⟨r', found', -, kept⟩ := leaves id r found
    obtain ⟨moving', same⟩ := kept moving fun own_id => other id own_id moves
    exact ⟨r', found', moving', fun q snapshot => same.trans (like q snapshot)⟩
  taken id takes := by
    obtain ⟨r, found, ended⟩ := known.taken id takes
    obtain ⟨r', found', still, -⟩ := leaves id r found
    exact ⟨r', found', still ended⟩
  named id names := by
    obtain ⟨r, found⟩ := known.named id names
    obtain ⟨r', found', -⟩ := leaves id r found
    exact ⟨r', found'⟩
  granted := known.granted

end Leaves

section Moves
variable [DecidableEq ι] {i : ι} {t : Thread} {mem : MemoryManager β}

/-- One thread moves: what has to be shown of the new state. -/
theorem Sound.put (h : Sound s) (exact : Exact mem)
    (owners : Sole (MemoryThreads.owned (s.put i t mem)) mem.world.frees mem.world.given.length)
    (moving : ∀ id, t.moving = some id →
      (s.threads i).moving = some id ∨ ∀ j, (s.threads j).moving ≠ some id)
    (taken : ∀ id, t.taken = some id →
      (s.threads i).taken = some id ∨ ∀ j, (s.threads j).taken ≠ some id)
    (named : ∀ id, t.named = some id →
      (s.threads i).named = some id ∨ ∀ j, (s.threads j).named ≠ some id)
    (known : t.Knows mem) (leaves : Leaves (s.threads i).moving s.shared mem)
    (gone : ∀ id k, held mem id = some k → k ∈ mem.world.frees →
      t.gaveBack = some id ∨ ∃ j, j ≠ i ∧ (s.threads j).gaveBack = some id) :
    Sound (s.put i t mem) where
  exact := exact
  owned := owners
  movedByOne := h.movedByOne.put moving
  releasedByOne := h.releasedByOne.put taken
  namedOnce := h.namedOnce.put named
  knows := Pool.put_forall known fun j other =>
    leaves.knows (h.knows j) fun id mine theirs => other (h.movedByOne j i id theirs mine)
  gone id k holds freed := by
    rcases gone id k holds freed with mine | ⟨j, other, theirs⟩
    · exact ⟨i, by simpa using mine⟩
    · exact ⟨j, by simpa [Pool.put_threads_of_ne s i t mem other] using theirs⟩

/-- The regions keep their buffers, and nothing is freed. -/
theorem owned_put (kept : held mem = held s.shared)
    (frees : mem.world.frees = s.shared.world.frees) :
    MemoryThreads.owned (s.put i t mem) =
      Function.update (MemoryThreads.owned s) (.inr i) t.buffer := by
  funext o
  cases o with
  | inl id => simp [MemoryThreads.owned, kept, frees]
  | inr j =>
    by_cases same : j = i
    · simp [MemoryThreads.owned, same]
    · simp [MemoryThreads.owned, same, Pool.put_threads_of_ne s i t mem same]

omit [DecidableEq ι] in
theorem Sound.gone_of_kept (h : Sound s) (kept : held mem = held s.shared)
    (frees : mem.world.frees = s.shared.world.frees) (gave : (s.threads i).gaveBack = none)
    (id : MemoryRegionId) (k : ℕ) (holds : held mem id = some k) (freed : k ∈ mem.world.frees) :
    t.gaveBack = some id ∨ ∃ j, j ≠ i ∧ (s.threads j).gaveBack = some id := by
  rw [kept] at holds
  rw [frees] at freed
  obtain ⟨j, theirs⟩ := h.gone id k holds freed
  refine .inr ⟨j, ?_, theirs⟩
  rintro rfl
  simp [gave] at theirs

/-- A thread that has no buffer afterwards moves without touching the buffers of the regions. -/
theorem Sound.quiet (h : Sound s) (exact : Exact mem) (kept : held mem = held s.shared)
    (frees : mem.world.frees = s.shared.world.frees)
    (given : s.shared.world.given.length ≤ mem.world.given.length)
    (gave : (s.threads i).gaveBack = none) (buffer : t.buffer = none) (taken : t.taken = none)
    (named : t.named = none)
    (moving : ∀ id, t.moving = some id →
      (s.threads i).moving = some id ∨ ∀ j, (s.threads j).moving ≠ some id)
    (known : t.Knows mem) (leaves : Leaves (s.threads i).moving s.shared mem) :
    Sound (s.put i t mem) := by
  refine h.put exact ?_ moving (by simp [taken]) (by simp [named]) known leaves
    (h.gone_of_kept kept frees gave)
  rw [owned_put kept frees, frees, buffer]
  exact (h.owned.drop _).mono given

/-- The backend has handed a buffer to the thread. -/
theorem Sound.issued (h : Sound s) (exact : Exact mem) (kept : held mem = held s.shared)
    (frees : mem.world.frees = s.shared.world.frees)
    (given : mem.world.given.length = s.shared.world.given.length + 1)
    (gave : (s.threads i).gaveBack = none)
    (buffer : t.buffer = some (s.shared.world.given.length + 1)) (taken : t.taken = none)
    (named : t.named = none)
    (moving : ∀ id, t.moving = some id →
      (s.threads i).moving = some id ∨ ∀ j, (s.threads j).moving ≠ some id)
    (known : t.Knows mem) (leaves : Leaves (s.threads i).moving s.shared mem) :
    Sound (s.put i t mem) := by
  refine h.put exact ?_ moving (by simp [taken]) (by simp [named]) known leaves
    (h.gone_of_kept kept frees gave)
  rw [owned_put kept frees, frees, given, buffer]
  exact h.owned.issue _

/-- The buffer of the thread becomes the buffer of a region, new or rewritten. -/
theorem Sound.handed (h : Sound s) (exact : Exact mem) {id : MemoryRegionId} {r : MemoryRegion}
    {k : ℕ} (owns : (s.threads i).buffer = some k) (holds : holding r = some k)
    (regions_eq : mem.regions = s.shared.regions.insert id r)
    (world : mem.world = s.shared.world) (buffer : t.buffer = none) (taken : t.taken = none)
    (moving : t.moving = none) (gaveBack : ∀ j, (s.threads i).gaveBack = some j → j = id)
    (named : ∀ id, t.named = some id → ∀ j, (s.threads j).named ≠ some id) (known : t.Knows mem)
    (leaves : Leaves (s.threads i).moving s.shared mem) : Sound (s.put i t mem) := by
  have mine : MemoryThreads.owned s (.inr i) = some k := owns
  have unspent := h.owned.unspent _ k mine
  refine h.put exact ?_ (by simp [moving]) (by simp [taken]) (fun id names => .inr (named id names))
    known leaves fun j l holds' freed => ?_
  · rw [world]
    refine (h.owned.pass (p := .inl id) mine).subset fun o l ho => ?_
    cases o with
    | inl j =>
      rw [owned_region, Pool.put_shared, world, held_insert regions_eq] at ho
      obtain ⟨old, kept⟩ := ho
      by_cases same : j = id
      · subst same
        simpa [holds] using old
      · simpa [same, owned_region] using And.intro (by simpa [same] using old) kept
    | inr j =>
      by_cases same : j = i
      · simp [MemoryThreads.owned, same, buffer] at ho
      · simpa [MemoryThreads.owned, same, Pool.put_threads_of_ne s i t mem same] using ho
  · rw [held_insert regions_eq] at holds'
    rw [world] at freed
    by_cases same : j = id
    · subst same
      simp only [Function.update_self, holds, Option.some.injEq] at holds'
      exact absurd freed (holds' ▸ unspent)
    · rw [Function.update_of_ne same] at holds'
      obtain ⟨p, theirs⟩ := h.gone j l holds' freed
      refine .inr ⟨p, ?_, theirs⟩
      rintro rfl
      exact same (gaveBack j theirs)

/-- A thread that knows nothing. -/
theorem knows_of_none (moving : t.moving = none) (taken : t.taken = none)
    (named : t.named = none)
    (granted : ∀ req result, t ≠ .allocating (.obtained req (some result))) : t.Knows mem :=
  ⟨by simp [moving], by simp [taken], by simp [named], fun req result here =>
    absurd here (granted req result)⟩

theorem Sound.request {b : Backend β} (h : Sound s) (grants : Grants b) {req : AllocateRequest}
    (here : s.threads i = .allocating (.ready req)) : Sound (turn (Thread.advance b) s i) := by
  have ho := requestBuffer_outcome b req s.shared
  have gave : (s.threads i).gaveBack = none := by rw [here]; rfl
  simp only [turn, here, Thread.advance, Allocator.advance, phase, Prod.map, id]
  generalize (requestBuffer b req).run s.shared = res at ho ⊢
  cases ho with
  | zero =>
    exact h.quiet h.exact rfl rfl le_rfl gave rfl rfl rfl (by simp [Thread.moving])
      (knows_of_none rfl rfl rfl (by simp)) (.of_regions_eq rfl)
  | failed e w call =>
    have frees := frees_allocate b req.spec s.shared.world
    have grown := length_given_le b req.spec s.shared.world
    rw [stateAfter_of_error call] at frees grown
    exact h.quiet (h.exact.setWorld w) rfl frees grown gave rfl rfl rfl (by simp [Thread.moving])
      (knows_of_none rfl rfl rfl (by simp)) (.of_regions_eq rfl)
  | granted result w nonzero call =>
    have bytes := grants.world call
    obtain ⟨q, x, -, numbered, rfl⟩ := World.allocate_eq_ok call
    refine h.issued (h.exact.setWorld _) rfl rfl (by simp) gave (by simp [Thread.buffer, numbered])
      rfl rfl (by simp [Thread.moving]) ⟨by simp [Thread.moving], by simp [Thread.taken],
        by simp [Thread.named], ?_⟩ (.of_regions_eq rfl)
    intro req' result' same
    cases same
    exact ⟨nonzero, bytes⟩

theorem Fresh.charge {mem : MemoryManager β} {req : AllocateRequest} {result : AllocationResult}
    (room : Fresh mem req result) (g : MemoryGeneration) (n : NumaNodeId) (valid : n.isValid = true) :
    (entry mem.nodeUsage n).toNat + chargedOn n (grantedRegion ⟨mem.nextId⟩ g req result) <
      2 ^ 64 := by
  have small := (entry mem.nodeUsage n).isLt
  unfold chargedOn
  split_ifs with here
  · subst here
    exact room valid
  · omega

theorem Sound.record {b : Backend β} (h : Sound s) {req : AllocateRequest}
    {result : Option AllocationResult} (here : s.threads i = .allocating (.obtained req result))
    (cond : Permitted s i) : Sound (turn (Thread.advance b) s i) := by
  have ho := recordRegion_outcome req result s.shared
  have gave : (s.threads i).gaveBack = none := by rw [here]; rfl
  have granted := (h.knows i).granted
  have owns : (s.threads i).buffer = result.map (·.handle) := by rw [here]; rfl
  rw [Permitted, here] at cond
  simp only [turn, here, Thread.advance, Allocator.advance, phase, Prod.map, id]
  rw [here] at granted
  generalize (recordRegion req result).run s.shared = res at ho ⊢
  -- a recorded region is known to no other allocation
  have unnamed : ∀ g : MemoryGeneration, s.shared.watermark.next = .ok g →
      ∀ j, (s.threads j).named ≠ some ⟨s.shared.nextId⟩ := by
    intro g next j names
    obtain ⟨r, found⟩ := (h.knows j).named _ names
    simp [h.exact.numbered.fresh next] at found
  cases ho with
  | exhausted _ last =>
    refine h.quiet ⟨h.exact.entries, h.exact.tidy, h.exact.settled, h.exact.issued, fun hne =>
      absurd last hne⟩ rfl rfl le_rfl gave rfl rfl rfl (by simp [Thread.moving])
      (knows_of_none rfl rfl rfl (by simp)) (.of_regions_eq rfl)
  | failed g next =>
    have fresh := h.exact.numbered.fresh next
    have kept : held { s.shared with
        regions := s.shared.regions.insert ⟨s.shared.nextId⟩ (failedRegion ⟨s.shared.nextId⟩ g req)
        nextId := s.shared.nextId + 1, watermark := g } = held s.shared := by
      have nothing : held s.shared ⟨s.shared.nextId⟩ = none := by simp [held, fresh]
      rw [held_insert rfl]
      exact Function.update_eq_self_iff.mpr (by rw [nothing]; rfl)
    refine h.put (h.exact.record next _ (fun n _ => ?_) h.exact.tidy (.inl rfl)) ?_
      (by simp [Thread.moving]) (by simp [Thread.taken]) (fun id names => .inr ?_)
      ⟨by simp [Thread.moving], by simp [Thread.taken], fun id names => ?_, by simp⟩
      (.record fresh rfl) (h.gone_of_kept kept rfl gave)
    · rw [amount_failedRegion, Nat.add_zero]
    · rw [owned_put kept rfl]
      exact h.owned.drop _
    · cases names
      exact unnamed g next
    · cases names
      exact ⟨_, ExtTreeMap.getElem?_insert_self⟩
  | granted g result next r region_eq =>
    obtain ⟨nonzero, bytes⟩ := granted req result rfl
    have live : r.state.isLive = true := by rw [region_eq]; exact grantedRegion_isLive _ _ _ _
    have full : r.grantedBytes.value ≠ 0 := by
      have same : r.grantedBytes = req.bytes := by rw [region_eq]; exact bytes
      rw [same]
      simpa [Quantity.isZero] using nonzero
    have room := cond.charge g
    rw [← region_eq] at room
    refine h.handed (k := result.handle) (h.exact.record next r (fun n valid => ?_)
      (tidy_charged h.exact.tidy full room) (.inr ⟨live, full⟩)) owns ?_ rfl rfl rfl rfl rfl
      (by simp [gave]) (fun id names => ?_)
      ⟨by simp [Thread.moving], by simp [Thread.taken], fun id names => ?_, by simp⟩
      (.record (h.exact.numbered.fresh next) rfl)
    · rw [entry_charged valid (room n valid), amount_of_live n live]
    · rw [holding_of_standing (isReleased_of_isLive live), region_eq]
      rfl
    · cases names
      rw [region_eq]
      exact unnamed g next
    · cases names
      rw [region_eq]
      exact ⟨_, ExtTreeMap.getElem?_insert_self⟩

theorem Sound.take {b : Backend β} (h : Sound s) {id : MemoryRegionId}
    {expected : Option MemoryGeneration} (here : s.threads i = .releasing (.ready id expected))
    (cond : Permitted s i) : Sound (turn (Thread.advance b) s i) := by
  have ho := markReleased_outcome id expected s.shared
  have gave : (s.threads i).gaveBack = none := by rw [here]; rfl
  rw [Permitted, here] at cond
  simp only [turn, here, Thread.advance, Releaser.advance, phase, Prod.map, id_eq]
  generalize (markReleased id expected).run s.shared = res at ho ⊢
  cases ho with
  | refused e =>
    exact h.quiet h.exact rfl rfl le_rfl gave rfl rfl rfl (by simp [Thread.moving])
      (knows_of_none rfl rfl rfl (by simp)) (.of_regions_eq rfl)
  | underflow r found good under =>
    obtain ⟨live, -⟩ := h.exact.live_of_not_released found (isReleased_of_releaseRefusal good)
    simp [h.exact.covered found live] at under
  | marked r found good covered =>
    have standing := isReleased_of_releaseRefusal good
    obtain ⟨live, -⟩ := h.exact.live_of_not_released found standing
    have still : r.state ≠ .migrating := fun moving => cond r found moving good
    have kept : ∀ j, (s.threads j).gaveBack ≠ some id := by
      intro j gave
      obtain ⟨q, found', moving, -⟩ := (h.knows j).moving id (moving_of_gaveBack gave)
      cases found.symm.trans found'
      exact still moving
    have owns := h.intact found standing kept
    have unspent := h.owned.unspent _ _ owns
    refine h.put (h.exact.replace found (fun n valid => ?_) (tidy_discharged h.exact.tidy) (.inl rfl))
      ?_ (by simp [Thread.moving]) (fun j takes => .inr ?_) (by simp [Thread.named])
      ⟨by simp [Thread.moving], fun j takes => ?_, by simp [Thread.named], by simp⟩
      (.insert found standing (fun moving => absurd moving still) rfl) fun j l holds freed => ?_
    · rw [amount_of_live n live, entry_discharged valid covered]
      rfl
    · -- the buffer passes from the region to the thread
      refine (h.owned.pass (p := .inr i) owns).subset fun o l ho => ?_
      cases o with
      | inl j =>
        rw [owned_region, Pool.put_shared, held_insert rfl] at ho
        by_cases same : j = id
        · simp [same, holding, LifecycleState.isReleased] at ho
        · simpa [same, owned_region] using ho
      | inr j =>
        by_cases same : j = i
        · simpa [MemoryThreads.owned, same, Thread.buffer, Releaser.buffer] using ho
        · simpa [MemoryThreads.owned, same, Pool.put_threads_of_ne s i _ _ same] using ho
    · cases takes
      intro p theirs
      obtain ⟨q, found', ended⟩ := (h.knows p).taken id theirs
      cases found.symm.trans found'
      simp [standing] at ended
    · cases takes
      exact ⟨_, ExtTreeMap.getElem?_insert_self, rfl⟩
    · rw [held_insert rfl] at holds
      by_cases same : j = id
      · simp [same, holding, LifecycleState.isReleased] at holds
      · rw [Function.update_of_ne same] at holds
        obtain ⟨p, theirs⟩ := h.gone j l holds freed
        refine .inr ⟨p, ?_, theirs⟩
        rintro rfl
        simp [gave] at theirs

/-- A region that owns a buffer after another one is freed owned it before. -/
theorem owned_region_spent {k : ℕ} (kept : held mem = held s.shared)
    (frees : mem.world.frees = s.shared.world.frees ++ [k]) {j : MemoryRegionId} {l : ℕ}
    (owns : MemoryThreads.owned (s.put i t mem) (.inl j) = some l) :
    MemoryThreads.owned s (.inl j) = some l ∧ l ≠ k := by
  rw [owned_region, Pool.put_shared, kept, frees] at owns
  simp only [List.mem_append, List.mem_singleton, not_or] at owns
  exact ⟨owned_region.mpr ⟨owns.1, owns.2.1⟩, owns.2.2⟩

omit [DecidableEq ι] in
/-- A step that frees a buffer spends it, and a region that still points to it is the thread's
to commit. -/
theorem Sound.spent (h : Sound s) {o : Owner ι} {k : ℕ}
    (owns : MemoryThreads.owned s o = some k) (kept : held mem = held s.shared)
    (frees : mem.world.frees = s.shared.world.frees ++ [k])
    (gave : (s.threads i).gaveBack = none) (stays : t.gaveBack = o.getLeft?) (id : MemoryRegionId)
    (l : ℕ) (holds : held mem id = some l) (freed : l ∈ mem.world.frees) :
    t.gaveBack = some id ∨ ∃ j, j ≠ i ∧ (s.threads j).gaveBack = some id := by
  rw [kept] at holds
  by_cases old : l ∈ s.shared.world.frees
  · obtain ⟨p, theirs⟩ := h.gone id l holds old
    refine .inr ⟨p, ?_, theirs⟩
    rintro rfl
    simp [gave] at theirs
  · have same : l = k := by simpa [frees, old] using freed
    subst same
    have region := h.owned.single _ _ l (owned_region.mpr ⟨holds, old⟩) owns
    exact .inl (by rw [stays, ← region]; rfl)

theorem Sound.free {b : Backend β} (h : Sound s) {id : MemoryRegionId} {buffer : AllocationResult}
    (here : s.threads i = .releasing (.marked id buffer)) :
    Sound (turn (Thread.advance b) s i) := by
  have gave : (s.threads i).gaveBack = none := by rw [here]; rfl
  have owns : MemoryThreads.owned s (.inr i) = some buffer.handle := by
    rw [MemoryThreads.owned, here]
    rfl
  have ended := (h.knows i).taken id (by rw [here]; rfl)
  have freed : Thread.advance b (s.threads i) s.shared =
      (.releasing (.returned id), { s.shared with world := s.shared.world.free b buffer }) := by
    rw [here]
    rfl
  rw [turn, freed]
  refine h.put (h.exact.setWorld _) ?_ (by simp [Thread.moving])
    (fun j takes => .inl (by rw [here]; exact takes)) (by simp [Thread.named])
    ⟨by simp [Thread.moving], fun j takes => ?_, by simp [Thread.named], by simp⟩
    (.of_regions_eq rfl) (h.spent owns rfl rfl gave rfl)
  · refine (h.owned.spend owns).subset fun o l ho => ?_
    cases o with
    | inl j => simpa using (owned_region_spent (by rfl) (by rfl) ho).1
    | inr j =>
      by_cases same : j = i
      · simp [MemoryThreads.owned, same, Thread.buffer, Releaser.buffer] at ho
      · simpa [MemoryThreads.owned, same, Pool.put_threads_of_ne s i _ _ same] using ho
  · cases takes
    exact ended

theorem Sound.mark {b : Backend β} (h : Sound s) {m : Reallocation}
    (here : s.threads i = .migrating m .ready) : Sound (turn (Thread.advance b) s i) := by
  have ho := markMigrating_outcome m.id s.shared
  have gave : (s.threads i).gaveBack = none := by rw [here]; rfl
  simp only [turn, here, Thread.advance, Migrator.advance, phase, Prod.map, id]
  generalize (markMigrating m.id).run s.shared = res at ho ⊢
  cases ho with
  | refused e =>
    exact h.quiet h.exact rfl rfl le_rfl gave rfl rfl rfl (by simp [Thread.moving])
      (knows_of_none rfl rfl rfl (by simp)) (.of_regions_eq rfl)
  | marked r found good =>
    have pending := pending_of_migrateRefusal good
    have standing := isReleased_of_migrateRefusal good
    obtain ⟨live, bytes⟩ := h.exact.live_of_not_released found standing
    have kept : holding { r with state := .migrating } = holding r := by
      rw [holding_of_standing standing]
      exact holding_of_standing rfl
    refine h.quiet (h.exact.rewrite found s.shared.world (fun n => ?_) (.inr ⟨rfl, bytes⟩))
      (MigrationRace.held_rewrite found rfl kept) rfl le_rfl gave rfl rfl rfl (fun j moves => ?_)
      ⟨fun j moves => ?_, by simp [Thread.taken], by simp [Thread.named], by simp⟩
      (.insert found standing (by simp [pending]) rfl)
    · rw [amount_of_live n live]
      exact amount_of_live n rfl
    · -- a region that may start to move is not moving
      cases moves
      refine .inr fun p theirs => ?_
      obtain ⟨q, found', moving, -⟩ := (h.knows p).moving m.id theirs
      cases found.symm.trans found'
      simp [pending] at moving
    · cases moves
      refine ⟨_, ExtTreeMap.getElem?_insert_self, rfl, fun q snapshot => ?_⟩
      cases snapshot
      rfl

theorem Sound.obtain {b : Backend β} (h : Sound s) {m : Reallocation} {snapshot : MemoryRegion}
    (here : s.threads i = .migrating m (.marked snapshot)) :
    Sound (turn (Thread.advance b) s i) := by
  have ho := obtainTarget_outcome b snapshot m.target s.shared
  have gave : (s.threads i).gaveBack = none := by rw [here]; rfl
  have moves : (s.threads i).moving = some m.id := by rw [here]; rfl
  obtain ⟨r, found, moving, like⟩ := (h.knows i).moving m.id moves
  simp only [turn, here, Thread.advance, Migrator.advance, phase, Prod.map, id]
  rw [here] at like
  generalize (obtainTarget b snapshot m.target).run s.shared = res at ho ⊢
  cases ho with
  | declined =>
    refine h.quiet (h.exact.setWorld _) rfl (frees_allocate b _ _) (length_given_le b _ _) gave rfl
      rfl rfl (fun j own => .inl (moves.trans own))
      ⟨fun j own => ?_, by simp [Thread.taken], by simp [Thread.named], by simp⟩ (.of_regions_eq rfl)
    cases own
    exact ⟨r, found, moving, by simp [Thread.snapshot]⟩
  | granted result w call =>
    obtain ⟨q, x, -, numbered, rfl⟩ := World.allocate_eq_ok call
    refine h.issued (h.exact.setWorld _) rfl rfl (by simp) gave
      (by simp [Thread.buffer, Migrator.buffer, numbered]) rfl rfl
      (fun j own => .inl (moves.trans own))
      ⟨fun j own => ?_, by simp [Thread.taken], by simp [Thread.named], by simp⟩ (.of_regions_eq rfl)
    cases own
    exact ⟨r, found, moving, like⟩

theorem Sound.retain {b : Backend β} (h : Sound s) {m : Reallocation}
    (here : s.threads i = .migrating m .declined) : Sound (turn (Thread.advance b) s i) := by
  have gave : (s.threads i).gaveBack = none := by rw [here]; rfl
  have moves : (s.threads i).moving = some m.id := by rw [here]; rfl
  obtain ⟨q, found', moving', -⟩ := (h.knows i).moving m.id moves
  simp only [turn, here, Thread.advance, Migrator.advance, phase, Prod.map, id]
  rcases MigrationRace.retainOriginal_cases m.id s.shared with ran | ⟨r, found, moving, ran⟩
  · rw [ran]
    exact h.quiet h.exact rfl rfl le_rfl gave rfl rfl rfl (by simp [Thread.moving])
      (knows_of_none rfl rfl rfl (by simp)) (.of_regions_eq rfl)
  · rw [ran]
    have live : r.state.isLive = true := by rw [moving]; rfl
    have standing := isReleased_of_isLive live
    obtain ⟨-, bytes⟩ := h.exact.live_of_not_released found standing
    have kept : holding { r with state := .active } = holding r := by
      rw [holding_of_standing standing]
      exact holding_of_standing rfl
    refine h.quiet (h.exact.rewrite found s.shared.world (fun n => ?_) (.inr ⟨rfl, bytes⟩))
      (MigrationRace.held_rewrite found rfl kept) rfl le_rfl gave rfl rfl rfl
      (by simp [Thread.moving]) (knows_of_none rfl rfl rfl (by simp))
      (.insert found standing (fun _ => moves) rfl)
    rw [amount_of_live n live]
    exact amount_of_live n rfl

theorem Sound.giveBack {b : Backend β} (h : Sound s) {m : Reallocation} {snapshot : MemoryRegion}
    {result : AllocationResult} (here : s.threads i = .migrating m (.allocated snapshot result)) :
    Sound (turn (Thread.advance b) s i) := by
  have gave : (s.threads i).gaveBack = none := by rw [here]; rfl
  have moves : (s.threads i).moving = some m.id := by rw [here]; rfl
  obtain ⟨r, found, moving, like⟩ := (h.knows i).moving m.id moves
  rw [here] at like
  have same := like snapshot rfl
  have handle := congrArg AllocationResult.handle same.buffer
  have kept : ∀ j, (s.threads j).gaveBack ≠ some m.id := by
    intro j theirs
    cases h.movedByOne j i m.id (moving_of_gaveBack theirs) moves
    simp [gave] at theirs
  have owns := h.intact found (by rw [moving]; rfl) kept
  rw [handle] at owns
  simp only [turn, here, Thread.advance, Migrator.advance, phase, giveBack_run, Prod.map, id]
  refine h.put (h.exact.setWorld _) ?_ (fun j own => .inl (moves.trans own)) (by simp [Thread.taken])
    (by simp [Thread.named])
    ⟨fun j own => ?_, by simp [Thread.taken], by simp [Thread.named], by simp⟩ (.of_regions_eq rfl)
    (h.spent owns rfl (frees_handedOver _ _ _ _ _) gave rfl)
  · rw [frees_handedOver, given_handedOver]
    refine (h.owned.spend owns).subset fun o l ho => ?_
    cases o with
    | inl j =>
      obtain ⟨before, other⟩ := owned_region_spent (by rfl) (by exact frees_handedOver _ _ _ _ _) ho
      have elsewhere : j ≠ m.id := by
        rintro rfl
        exact other (Option.some.inj (before.symm.trans owns))
      simpa [elsewhere] using before
    | inr j =>
      by_cases own : j = i
      · subst own
        simpa [MemoryThreads.owned, here, Thread.buffer, Migrator.buffer] using ho
      · simpa [MemoryThreads.owned, own, Pool.put_threads_of_ne s i _ _ own] using ho
  · cases own
    exact ⟨r, found, moving, like⟩

theorem commitMove_congr {id : MemoryRegionId} {r snapshot : MemoryRegion}
    (same : Alike r snapshot) (result : AllocationResult) (target : NumaNodeId) :
    commitMove (β := β) id snapshot result target = commitMove id r result target := by
  simp only [commitMove, same.node]

theorem Sound.commit {b : Backend β} (h : Sound s) {m : Reallocation} {snapshot : MemoryRegion}
    {result : AllocationResult} (here : s.threads i = .migrating m (.freed snapshot result))
    (cond : Permitted s i) : Sound (turn (Thread.advance b) s i) := by
  have moves : (s.threads i).moving = some m.id := by rw [here]; rfl
  obtain ⟨r, found, moving, like⟩ := (h.knows i).moving m.id moves
  rw [Permitted, here] at cond
  rw [here] at like
  have same := like snapshot rfl
  have live : r.state.isLive = true := by rw [moving]; rfl
  have standing := isReleased_of_isLive live
  have covered := h.exact.covered found live
  obtain ⟨-, bytes⟩ := h.exact.live_of_not_released found standing
  obtain ⟨grows, space⟩ := cond
  have room : Room m s.shared r result := by
    rw [Room, same.node, same.bytes]
    exact space
  obtain ⟨g, next⟩ : ∃ g, r.generation.next = .ok g := by
    rw [same.generation]
    cases next : snapshot.generation.next with
    | error e => exact absurd (Generation.next_error next) grows
    | ok g => exact ⟨g, rfl⟩
  simp only [turn, here, Thread.advance, Migrator.advance, phase, commitMove_congr same,
    commitMove_run result m.target found, covered, Bool.false_eq_true, if_false, next, Prod.map, id]
  exact h.handed (h.exact.move found live covered rfl bytes (room.charge covered))
    (by rw [here]; rfl) (holding_of_standing rfl) rfl rfl rfl rfl rfl
    (fun j gave => by rw [here] at gave; exact (Option.some.inj gave).symm) (by simp [Thread.named])
    (knows_of_none rfl rfl rfl (by simp)) (.insert found standing (fun _ => moves) rfl)

theorem Sound.edit {b : Backend β} (h : Sound s) {e : Edit}
    (here : s.threads i = .editing (.ready e)) (cond : Permitted s i) :
    Sound (turn (Thread.advance b) s i) := by
  have gave : (s.threads i).gaveBack = none := by rw [here]; rfl
  have refused : ∀ x : Exn, Sound (s.put i (.editing (.threw x)) s.shared) := fun x =>
    h.quiet h.exact rfl rfl le_rfl gave rfl rfl rfl (by simp [Thread.moving])
      (knows_of_none rfl rfl rfl (by simp)) (.of_regions_eq rfl)
  rw [Permitted, here] at cond
  simp only [turn, here, Thread.advance, Editor.advance, phase, Prod.map, id_eq]
  cases e with
  | transition id next =>
    have ho := transition_outcome id next s.shared
    simp only [Edit.exec]
    generalize (MemoryManager.transition id next).run s.shared = res at ho ⊢
    cases ho with
    | unknown absent => exact refused _
    | notGuarded r found bad => exact refused _
    | moved r found good =>
      obtain ⟨still, live'⟩ := cond r found good
      have standing := standing_of_canTransition good (isReleased_of_isLive live')
      obtain ⟨live, bytes⟩ := h.exact.live_of_not_released found standing
      have kept : holding { r with state := next } = holding r := by
        rw [holding_of_standing standing]
        exact holding_of_standing (isReleased_of_isLive live')
      refine h.quiet (h.exact.rewrite found s.shared.world (fun n => ?_) (.inr ⟨live', bytes⟩))
        (MigrationRace.held_rewrite found rfl kept) rfl le_rfl gave rfl rfl rfl
        (by simp [Thread.moving]) (knows_of_none rfl rfl rfl (by simp))
        (.insert found standing (fun moving => absurd moving still) rfl)
      rw [amount_of_live n live]
      exact amount_of_live n live'
  | invalidateLocalityStale =>
    exact h.quiet h.exact.invalidateLocalityStale held_invalidateLocalityStale rfl le_rfl gave rfl
      rfl rfl (by simp [Thread.moving]) (knows_of_none rfl rfl rfl (by simp)) (.refresh s.shared)

/-- Every permitted phase keeps the invariant. -/
theorem Sound.turn {b : Backend β} (grants : Grants b) (h : Sound s) (cond : Permitted s i) :
    Sound (ThreadPool.turn (Thread.advance b) s i) := by
  -- a call that is over changes nothing
  have unchanged : Thread.advance b (s.threads i) s.shared = (s.threads i, s.shared) →
      Sound (ThreadPool.turn (Thread.advance b) s i) := by
    intro same
    rw [ThreadPool.turn, same, Pool.put_self]
    exact h
  cases here : s.threads i with
  | allocating p =>
    cases p with
    | ready req => exact h.request grants here
    | obtained req result => exact h.record here cond
    | returned r => exact unchanged (by rw [here]; rfl)
    | threw e => exact unchanged (by rw [here]; rfl)
  | releasing p =>
    cases p with
    | ready id expected => exact h.take here cond
    | marked id buffer => exact h.free here
    | returned id => exact unchanged (by rw [here]; rfl)
    | threw id e => exact unchanged (by rw [here]; rfl)
  | migrating m p =>
    cases p with
    | ready => exact h.mark here
    | marked snapshot => exact h.obtain here
    | declined => exact h.retain here
    | allocated snapshot result => exact h.giveBack here
    | freed snapshot result => exact h.commit here cond
    | returned view => exact unchanged (by rw [here]; rfl)
    | threw e => exact unchanged (by rw [here]; rfl)
  | editing p =>
    cases p with
    | ready e => exact h.edit here cond
    | returned => exact unchanged (by rw [here]; rfl)
    | threw e => exact unchanged (by rw [here]; rfl)

end Moves

/-- Before their first phase the calls have nothing in their hands. -/
theorem start_sound {mem : MemoryManager β} (exact : Exact mem) (owners : Owned mem)
    (calls : ι → Call) : Sound (start mem calls) := by
  have idle : ∀ c : Call, c.start.buffer = none ∧ c.start.moving = none ∧ c.start.taken = none ∧
      c.start.named = none := by
    intro c
    cases c <;> exact ⟨rfl, rfl, rfl, rfl⟩
  have plain : ∀ (c : Call) req result, c.start ≠ .allocating (.obtained req (some result)) := by
    intro c req result
    cases c <;> simp [Call.start]
  refine ⟨exact, ?_, ?_, ?_, ?_, fun i => ?_, fun id k holds freed => ?_⟩
  · have regions : ∀ o k, MemoryThreads.owned (start mem calls) o = some k →
        ∃ id, o = .inl id ∧ held mem id = some k := by
      intro o k ho
      cases o with
      | inl id => exact ⟨id, rfl, (owned_region.mp ho).1⟩
      | inr i => simp [MemoryThreads.owned, start, (idle (calls i)).1] at ho
    refine Sole.reindex owners (Sum.elim id fun _ => .invalid) (fun o p k ho hp same => ?_) ?_
    · obtain ⟨id, rfl, -⟩ := regions o k ho
      obtain ⟨j, rfl, -⟩ := regions p k hp
      exact congrArg Sum.inl same
    · intro o k ho
      obtain ⟨id, rfl, holds⟩ := regions o k ho
      exact holds
  · simp [Exclusive, start, idle]
  · simp [Exclusive, start, idle]
  · simp [Exclusive, start, idle]
  · obtain ⟨-, moving, taken, named⟩ := idle (calls i)
    exact knows_of_none moving taken named (plain (calls i))
  · exact absurd freed (owners.unspent id k holds)

end Invariant

/-- From every state that the calls before have reached with exact accounts, any number of
threads may run their calls in any order of the phases, and each call that gets four turns is
over. -/
theorem threads_safe [DecidableEq ι] (b : Backend β) (grants : Grants b) (backend : β) (heap : Heap)
    (ops : List MigrationManager.Op)
    (meets : Meets (MigrationManager.step b) (fun s op => InRange b s op ∧ Advances b s op)
      (MigrationManager.initial backend heap) ops)
    (calls : ι → Call) (schedule : List ι) :
    let s := start (MigrationManager.run b backend heap ops).mem calls
    Meets (turn (Thread.advance b)) Permitted s schedule →
      Safe (run (Thread.advance b) s schedule) ∧ ∀ i, 4 ≤ schedule.count i →
        ((run (Thread.advance b) s schedule).threads i).outcome.isSome = true := by
  intro s permitted
  obtain ⟨accounts, owners⟩ := run_owned grants backend heap meets
  have sound : Sound (run (Thread.advance b) s schedule) :=
    foldl_invariant (fun _ _ h cond => h.turn grants cond) (start_sound accounts owners calls)
      permitted
  exact ⟨sound.safe, fun i turns => outcome_run b _ calls schedule turns⟩

section Examples

/-- Region 1 on node 1 is about to move to node 2, region 2 stays on node 1. -/
def fiveCalls : Fin 5 → Call
  | 0 => .reallocate { id := ⟨1⟩, target := ⟨2⟩ }
  | 1 => .release ⟨2⟩ none
  | 2 => .allocate { bytes := ⟨8⟩, requiredNode := ⟨1⟩, intendedNode := ⟨1⟩ }
  | 3 => .edit .invalidateLocalityStale
  | 4 => .release ⟨2⟩ none

/-- The locality is refreshed and a region is allocated in the middle of the migration, while
two threads release the other region. -/
theorem threads_safe_five :
    let s := start (MigrationManager.run (budgeted 64) () (fun _ => 0) MigrationRace.twoRegions).mem
      fiveCalls
    Safe (run (Thread.advance (budgeted 64)) s [0, 1, 2, 0, 3, 4, 0, 2, 1, 0, 1, 4]) := by
  intro s
  have meets : Meets (MigrationManager.step (budgeted 64))
      (fun s op => InRange (budgeted 64) s op ∧ Advances (budgeted 64) s op)
      (MigrationManager.initial () fun _ => 0) MigrationRace.twoRegions := by decide
  exact (threads_safe (budgeted 64) (grants_budgeted 64) () (fun _ => 0)
    MigrationRace.twoRegions meets fiveCalls [0, 1, 2, 0, 3, 4, 0, 2, 1, 0, 1, 4] (by decide)).1

end Examples

end NumaFabric.MemoryThreads
