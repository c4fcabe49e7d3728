import NumaFabric.MigrationRace
import NumaFabric.MemoryOwnership

/-! A migration among releases is safe in every order of their phases, as long as no release
of the moving region gets between the old buffer and its commit. -/
namespace NumaFabric.MigrationRace
open Std FaultState FaultRun LedgerCounter MemoryManager MigrationManager MemoryLedger
  MemoryAccounting MigrationCommit TokenOwnership MemoryOwnership

variable {β : Type}

def Migrator.isOver : Migrator → Bool
  | .returned _ | .threw _ => true
  | _ => false

def Releaser.isOver : Releaser → Bool
  | .returned _ | .threw _ _ => true
  | _ => false

/-- Every call has returned or thrown. -/
def Finished (s : Race β) : Prop :=
  s.migrator.isOver = true ∧ ∀ r ∈ s.releasers, r.isOver = true

/-- Each backend allocation is freed at most once. -/
def FreedOnce (s : Race β) : Prop := ∀ handle, s.mem.world.frees.count handle ≤ 1

/-- A region whose release has returned is not live. -/
def StaysReleased (s : Race β) : Prop :=
  ∀ (id : MemoryRegionId) (r : MemoryRegion), .returned id ∈ s.releasers →
    s.mem.regions[id]? = some r → r.state.isLive = false

/-- Once all calls are over, every counter is the sum of the live regions charged to its
node; a node that is not valid is charged nothing. -/
def Accounted (s : Race β) : Prop :=
  Finished s → ∀ n : NumaNodeId,
    (perNodeAllocated s.mem n).toNat = if n.isValid then liveTotal n s.mem else 0

structure Safe (s : Race β) : Prop where
  freedOnce : FreedOnce s
  staysReleased : StaysReleased s
  accounted : Accounted s

/-- The counter of the node the region moves to can take its bytes. -/
def Room (m : Reallocation) (s : MemoryManager β) (snapshot : MemoryRegion)
    (result : AllocationResult) : Prop :=
  (newNode result m.target).isValid = true →
    snapshot.chooseObservedNode ≠ newNode result m.target →
      (entry s.nodeUsage (newNode result m.target)).toNat + snapshot.grantedBytes.value.toNat < 2 ^ 64

instance (m : Reallocation) (s : MemoryManager β) (snapshot : MemoryRegion)
    (result : AllocationResult) : Decidable (Room m s snapshot result) :=
  inferInstanceAs (Decidable (_ → _ → _))

/-- The old buffer is gone and the region still points to it. -/
def Migrator.gaveBack : Migrator → Bool
  | .freed _ _ => true
  | _ => false

/-- The region is still migrating when its old buffer is given back, and the commit can
advance its generation and charge its bytes. -/
def Migrator.Undisturbed (m : Reallocation) (s : MemoryManager β) : Migrator → Prop
  | .allocated _ _ => s.regions[m.id]?.map (·.state) = some .migrating
  | .freed snapshot result => snapshot.generation.value ≠ u64Max ∧ Room m s snapshot result
  | _ => True

instance (m : Reallocation) (s : MemoryManager β) : ∀ p : Migrator, Decidable (p.Undisturbed m s)
  | .allocated _ _ => inferInstanceAs (Decidable (_ = _))
  | .freed _ _ => inferInstanceAs (Decidable (_ ∧ _))
  | .ready | .marked _ | .declined | .returned _ | .threw _ => inferInstanceAs (Decidable True)

/-- No release of the region is accepted once its old buffer is gone. -/
def Releaser.Undisturbed (m : Reallocation) (s : MemoryManager β) (gaveBack : Bool) :
    Releaser → Prop
  | .ready id expected =>
    gaveBack = true → id = m.id → ∀ r ∈ s.regions[id]?, releaseRefusal r id expected ≠ none
  | _ => True

instance (m : Reallocation) (s : MemoryManager β) (gaveBack : Bool) :
    ∀ r : Releaser, Decidable (r.Undisturbed m s gaveBack)
  | .ready _ _ => inferInstanceAs (Decidable (_ → _ → _))
  | .marked _ _ | .returned _ | .threw _ _ => inferInstanceAs (Decidable True)

/-- No release of the region gets between its old buffer and its commit. -/
def Undisturbed (m : Reallocation) (s : Race β) : Turn → Prop
  | .migrator => s.migrator.Undisturbed m s.mem
  | .releaser i => ∀ r ∈ s.releasers[i]?, r.Undisturbed m s.mem s.migrator.gaveBack

instance (m : Reallocation) (s : Race β) : ∀ t, Decidable (Undisturbed m s t)
  | .migrator => inferInstanceAs (Decidable (s.migrator.Undisturbed m s.mem))
  | .releaser i => inferInstanceAs (Decidable (∀ r ∈ s.releasers[i]?, _))

section Owners

/-- Who may hold an allocation during the race. -/
inductive Owner
  | region (id : MemoryRegionId)
  | releaser (i : ℕ)
  | migrator
  deriving DecidableEq, Repr

def Releaser.buffer : Releaser → Option ℕ
  | .marked _ buffer => some buffer.handle
  | _ => none

def Migrator.buffer : Migrator → Option ℕ
  | .allocated _ result => some result.handle
  | .freed _ result => some result.handle
  | _ => none

def owned (m : Reallocation) (s : Race β) : Owner → Option ℕ
  | .region id => if s.migrator.gaveBack && id == m.id then none else held s.mem id
  | .releaser i => s.releasers[i]?.bind Releaser.buffer
  | .migrator => s.migrator.buffer

end Owners

/-- The region is released, invalidated or failed. -/
def Ended (s : MemoryManager β) (id : MemoryRegionId) : Prop :=
  ∃ r, s.regions[id]? = some r ∧ r.state.isReleased = true

/-- The region a release has got hold of. -/
def Releaser.taken : Releaser → Option MemoryRegionId
  | .marked id _ => some id
  | .returned id => some id
  | _ => none

/-- The snapshot is the region itself, unless the region has been released. -/
def Tracks (m : Reallocation) (s : Race β) : Prop :=
  match s.migrator with
  | .marked snapshot | .allocated snapshot _ =>
    snapshot.state = .migrating ∧ (s.mem.regions[m.id]? = some snapshot ∨ Ended s.mem m.id)
  | .freed snapshot _ => snapshot.state = .migrating ∧ s.mem.regions[m.id]? = some snapshot
  | _ => True

structure Sound (m : Reallocation) (s : Race β) : Prop where
  exact : Exact s.mem
  owned : Sole (owned m s) s.mem.world.frees s.mem.world.given.length
  taken : ∀ r ∈ s.releasers, ∀ id ∈ r.taken, Ended s.mem id
  tracks : Tracks m s

theorem Sound.freedOnce {m : Reallocation} {s : Race β} (h : Sound m s) : FreedOnce s :=
  fun handle => List.nodup_iff_count_le_one.mp h.owned.once handle

theorem isLive_of_isReleased {st : LifecycleState} (ended : st.isReleased = true) :
    st.isLive = false := by
  cases st <;> first | rfl | cases ended

theorem Sound.staysReleased {m : Reallocation} {s : Race β} (h : Sound m s) : StaysReleased s := by
  intro id r returned found
  obtain ⟨q, region, ended⟩ := h.taken _ returned id rfl
  cases region.symm.trans found
  exact isLive_of_isReleased ended

theorem Sound.accounted {m : Reallocation} {s : Race β} (h : Sound m s) : Accounted s := by
  intro _ n
  split_ifs with valid
  · exact h.exact.entries n valid
  · have absent : s.mem.nodeUsage[n]? = none := by
      by_contra present
      obtain ⟨v, hv⟩ := Option.ne_none_iff_exists'.mp present
      exact valid (h.exact.tidy n v hv).1
    rw [perNodeAllocated, entry, absent]
    rfl

theorem Sound.safe {m : Reallocation} {s : Race β} (h : Sound m s) : Safe s :=
  ⟨h.freedOnce, h.staysReleased, h.accounted⟩

section Steps
variable {b : Backend β} {m : Reallocation} {s t : Race β}

/-- A step that changes no owner. -/
theorem Sound.same_owners (h : Sound m s) (mem : held t.mem = held s.mem)
    (releasers : t.releasers = s.releasers) (buffer : t.migrator.buffer = s.migrator.buffer)
    (gave : t.migrator.gaveBack = s.migrator.gaveBack)
    (frees : t.mem.world.frees = s.mem.world.frees)
    (given : s.mem.world.given.length ≤ t.mem.world.given.length) :
    Sole (MigrationRace.owned m t) t.mem.world.frees t.mem.world.given.length := by
  rw [frees]
  refine (h.owned.subset fun o k hk => ?_).mono given
  cases o with
  | region id => simpa only [MigrationRace.owned, mem, gave] using hk
  | releaser i => simpa only [MigrationRace.owned, releasers] using hk
  | migrator => simpa only [MigrationRace.owned, buffer] using hk

/-- A throw, or a return that changes nothing. -/
theorem Sound.end_migrator (h : Sound m s) (buffer : s.migrator.buffer = none)
    (gave : s.migrator.gaveBack = false) {p : Migrator} (isOver : p.isOver = true) :
    Sound m { s with migrator := p } := by
  refine ⟨h.exact, h.same_owners rfl rfl ?_ ?_ rfl le_rfl, h.taken, ?_⟩
  · rw [buffer]
    cases p <;> first | rfl | cases isOver
  · rw [gave]
    cases p <;> first | rfl | cases isOver
  · cases p <;> first | exact trivial | cases isOver

theorem held_rewrite {mem mem' : MemoryManager β} {id : MemoryRegionId} {r r' : MemoryRegion}
    (found : mem.regions[id]? = some r) (regions_eq : mem'.regions = mem.regions.insert id r')
    (kept : holding r' = holding r) : held mem' = held mem := by
  have now : held mem id = holding r := by rw [held, found, Option.bind_some]
  rw [held_insert regions_eq, kept, ← now, Function.update_eq_self]

/-- A region that is over is not the one a phase rewrites. -/
theorem Ended.insert {mem mem' : MemoryManager β} {id j : MemoryRegionId} {r r' : MemoryRegion}
    (ended : Ended mem j) (found : mem.regions[id]? = some r)
    (standing : r.state.isReleased = false) (regions_eq : mem'.regions = mem.regions.insert id r') :
    Ended mem' j := by
  obtain ⟨q, region, released⟩ := ended
  have other : ¬ compare id j = .eq := by
    intro same
    cases compare_eq_iff_eq.mp same
    cases found.symm.trans region
    rw [released] at standing
    cases standing
  refine ⟨q, ?_, released⟩
  rw [regions_eq, ExtTreeMap.getElem?_insert, if_neg other]
  exact region

/-- The region of the migration changes its state and nothing else. -/
theorem Sound.restate (h : Sound m s) {r : MemoryRegion} {next : LifecycleState} {p : Migrator}
    (found : s.mem.regions[m.id]? = some r) (live : r.state.isLive = true)
    (live' : next.isLive = true) (buffer : p.buffer = s.migrator.buffer)
    (gave : p.gaveBack = s.migrator.gaveBack)
    (tracks : Tracks m { s with
      migrator := p
      mem := { s.mem with regions := s.mem.regions.insert m.id { r with state := next } } }) :
    Sound m { s with
      migrator := p
      mem := { s.mem with regions := s.mem.regions.insert m.id { r with state := next } } } := by
  have standing := isReleased_of_isLive live
  obtain ⟨-, bytes⟩ := h.exact.live_of_not_released found standing
  have kept : holding { r with state := next } = holding r := by
    rw [holding_of_standing standing]
    exact holding_of_standing (isReleased_of_isLive live')
  refine ⟨?_, h.same_owners (held_rewrite found rfl kept) rfl buffer gave rfl le_rfl,
    fun q hq id hid => (h.taken q hq id hid).insert found standing rfl, tracks⟩
  refine h.exact.rewrite found s.mem.world (fun n => ?_) (.inr ⟨live', bytes⟩)
  rw [amount_of_live n live]
  exact amount_of_live n live'

theorem Sound.mark (h : Sound m s) (ready : s.migrator = .ready) :
    Sound m (turn b m s .migrator) := by
  have ho := markMigrating_outcome m.id s.mem
  simp only [turn, ready, Migrator.advance, phase]
  generalize (markMigrating m.id).run s.mem = res at ho ⊢
  cases ho with
  | refused e => exact h.end_migrator (by rw [ready]; rfl) (by rw [ready]; rfl) rfl
  | marked r found good =>
    refine h.restate (p := .marked { r with state := .migrating }) found ?_ rfl ?_ ?_ ?_
    · rw [pending_of_migrateRefusal good]
      rfl
    · rw [ready]
      rfl
    · rw [ready]
      rfl
    · exact ⟨rfl, .inl ExtTreeMap.getElem?_insert_self⟩

theorem Sound.obtain {snapshot : MemoryRegion} (h : Sound m s)
    (marked : s.migrator = .marked snapshot) : Sound m (turn b m s .migrator) := by
  have ho := obtainTarget_outcome b snapshot m.target s.mem
  have tracks := h.tracks
  simp only [Tracks, marked] at tracks
  simp only [turn, marked, Migrator.advance, phase]
  generalize (obtainTarget b snapshot m.target).run s.mem = res at ho ⊢
  cases ho with
  | declined =>
    refine ⟨h.exact.setWorld _, h.same_owners rfl rfl ?_ ?_ ?_ ?_, h.taken, trivial⟩
    · rw [marked]
      rfl
    · rw [marked]
      rfl
    · exact frees_allocate b _ _
    · exact length_given_le b _ _
  | granted result w call =>
    obtain ⟨q, x, -, numbered, rfl⟩ := World.allocate_eq_ok call
    refine ⟨h.exact.setWorld _, ?_, h.taken, tracks⟩
    -- the new buffer is the migrator's own until the commit
    have issued := h.owned.issue .migrator
    dsimp only [Option.elim]
    rw [List.length_append, List.length_singleton]
    convert issued using 1
    funext o
    cases o with
    | region id => simp [MigrationRace.owned, marked, Migrator.gaveBack, held]
    | releaser i => simp [MigrationRace.owned]
    | migrator => simp [MigrationRace.owned, Migrator.buffer, numbered]

theorem retainOriginal_cases (id : MemoryRegionId) (s : MemoryManager β) :
    (retainOriginal id).run s = .ok () s ∨
      ∃ r, s.regions[id]? = some r ∧ r.state = .migrating ∧ (retainOriginal id).run s =
        .ok () { s with regions := s.regions.insert id { r with state := .active } } := by
  simp only [retainOriginal, EStateM.run_bind, EStateM.run_get]
  cases hr : s.regions[id]? with
  | none => exact .inl rfl
  | some r =>
    dsimp only
    split_ifs with moving
    · exact .inr ⟨r, rfl, moving, rfl⟩
    · exact .inl rfl

theorem Sound.retain (h : Sound m s) (declined : s.migrator = .declined) :
    Sound m (turn b m s .migrator) := by
  simp only [turn, declined, Migrator.advance, phase]
  rcases retainOriginal_cases m.id s.mem with ran | ⟨r, found, moving, ran⟩
  · rw [ran]
    exact h.end_migrator (by rw [declined]; rfl) (by rw [declined]; rfl) rfl
  · rw [ran]
    refine h.restate (p := .returned {}) found ?_ rfl ?_ ?_ trivial
    · rw [moving]
      rfl
    · rw [declined]
      rfl
    · rw [declined]
      rfl

/-- Under the condition the snapshot is still the region. -/
theorem Sound.unreleased {snapshot : MemoryRegion} {result : AllocationResult} (h : Sound m s)
    (allocated : s.migrator = .allocated snapshot result)
    (cond : Undisturbed m s .migrator) :
    snapshot.state = .migrating ∧ s.mem.regions[m.id]? = some snapshot := by
  have tracks := h.tracks
  simp only [Tracks, allocated] at tracks
  simp only [Undisturbed, allocated, Migrator.Undisturbed] at cond
  obtain ⟨moving, same | ⟨r, found, ended⟩⟩ := tracks
  · exact ⟨moving, same⟩
  · rw [found, Option.map_some, Option.some.injEq] at cond
    rw [cond] at ended
    cases ended

theorem Sound.giveBack {snapshot : MemoryRegion} {result : AllocationResult} (h : Sound m s)
    (allocated : s.migrator = .allocated snapshot result) (cond : Undisturbed m s .migrator) :
    Sound m (turn b m s .migrator) := by
  obtain ⟨moving, same⟩ := h.unreleased allocated cond
  have standing : snapshot.state.isReleased = false := by rw [moving]; rfl
  have holds : MigrationRace.owned m s (.region m.id) = some snapshot.backendResult.handle := by
    simp only [MigrationRace.owned, allocated, Migrator.gaveBack, Bool.false_and,
      Bool.false_eq_true, if_false]
    exact held_of_standing same standing
  simp only [turn, allocated, Migrator.advance, phase, giveBack_run]
  refine ⟨h.exact.setWorld _, ?_, h.taken, moving, same⟩
  rw [frees_handedOver, given_handedOver]
  convert h.owned.spend holds using 1
  funext o
  cases o with
  | region id =>
    by_cases own : id = m.id
    · simp [MigrationRace.owned, own, Migrator.gaveBack]
    · simp [MigrationRace.owned, own, held]
  | releaser i => simp [MigrationRace.owned]
  | migrator => simp [MigrationRace.owned, allocated, Migrator.buffer]

theorem Room.charge {snapshot : MemoryRegion} {result : AllocationResult} {mem : MemoryManager β}
    {g : MemoryGeneration} (room : Room m mem snapshot result)
    (covered : underflows snapshot mem.nodeUsage = false) (n : NumaNodeId) (valid : n.isValid = true) :
    (entry (discharged snapshot mem.nodeUsage) n).toNat +
      chargedOn n (rebound snapshot result m.target g) < 2 ^ 64 := by
  have left := entry_discharged valid covered
  have small := (entry mem.nodeUsage n).isLt
  have bytes : (rebound snapshot result m.target g).grantedBytes = snapshot.grantedBytes := rfl
  have node := chooseObservedNode_rebound snapshot result m.target g
  by_cases here : newNode result m.target = n
  · subst here
    rw [chargedOn, node, if_pos rfl, bytes]
    by_cases stays : snapshot.chooseObservedNode = newNode result m.target
    · rw [chargedOn, if_pos stays] at left
      omega
    · have := room valid stays
      omega
  · rw [chargedOn, node, if_neg here]
    omega

theorem Sound.commit {snapshot : MemoryRegion} {result : AllocationResult} (h : Sound m s)
    (freed : s.migrator = .freed snapshot result) (cond : Undisturbed m s .migrator) :
    Sound m (turn b m s .migrator) := by
  have tracks := h.tracks
  simp only [Tracks, freed] at tracks
  simp only [Undisturbed, freed, Migrator.Undisturbed] at cond
  obtain ⟨moving, found⟩ := tracks
  obtain ⟨grows, room⟩ := cond
  have live : snapshot.state.isLive = true := by rw [moving]; rfl
  have standing := isReleased_of_isLive live
  have covered := h.exact.covered found live
  obtain ⟨-, bytes⟩ := h.exact.live_of_not_released found standing
  obtain ⟨g, next⟩ : ∃ g, snapshot.generation.next = .ok g := by
    cases next : snapshot.generation.next with
    | error e => exact absurd (Generation.next_error next) grows
    | ok g => exact ⟨g, rfl⟩
  have holds : MigrationRace.owned m s .migrator = some result.handle := by
    simp [MigrationRace.owned, freed, Migrator.buffer]
  simp only [turn, freed, Migrator.advance, phase, commitMove_run result m.target found, covered,
    Bool.false_eq_true, if_false, next]
  refine ⟨h.exact.move found live covered rfl bytes (room.charge covered), ?_,
    fun q hq id hid => (h.taken q hq id hid).insert found standing rfl, trivial⟩
  convert h.owned.pass holds using 1
  funext o
  cases o with
  | region id =>
    simp only [MigrationRace.owned, Migrator.gaveBack, Bool.false_and, Bool.false_eq_true, if_false]
    rw [held_insert rfl]
    by_cases own : id = m.id
    · subst own
      rw [Function.update_self, Function.update_self]
      exact holding_of_standing rfl
    · have other : (Owner.region id) ≠ .region m.id := fun e => own (Owner.region.inj e)
      rw [Function.update_of_ne own, Function.update_of_ne other]
      simp [MigrationRace.owned, own]
  | releaser i => simp [MigrationRace.owned]
  | migrator => simp [MigrationRace.owned, Migrator.buffer]

/-- A thread is replaced, and the owner it stands for with it. -/
theorem owned_set (mem : MemoryManager β) {i : ℕ} {r p : Releaser}
    (thread : s.releasers[i]? = some r) (same : held mem = held s.mem) :
    MigrationRace.owned m { s with releasers := s.releasers.set i p, mem := mem } =
      Function.update (MigrationRace.owned m s) (.releaser i) p.buffer := by
  have inside : i < s.releasers.length := (List.getElem?_eq_some_iff.mp thread).1
  funext o
  cases o with
  | region id => simp [MigrationRace.owned, same]
  | releaser j =>
    by_cases own : j = i
    · subst own
      simp [MigrationRace.owned, inside]
    · simp [MigrationRace.owned, own, List.getElem?_set_ne (Ne.symm own)]
  | migrator => simp [MigrationRace.owned]

theorem Sound.taken_set (h : Sound m s) {mem : MemoryManager β} {i : ℕ} {p : Releaser}
    (kept : ∀ id, Ended s.mem id → Ended mem id) (new : ∀ id ∈ p.taken, Ended mem id) :
    ∀ q ∈ s.releasers.set i p, ∀ id ∈ q.taken, Ended mem id := by
  intro q hq id hid
  rcases List.mem_or_eq_of_mem_set hq with old | rfl
  · exact kept id (h.taken q old id hid)
  · exact new id hid

/-- A release that is refused. -/
theorem Sound.end_releaser (h : Sound m s) {i : ℕ} {r p : Releaser}
    (thread : s.releasers[i]? = some r) (buffer : p.buffer = none) (taken : p.taken = none) :
    Sound m { s with releasers := s.releasers.set i p } := by
  refine ⟨h.exact, ?_, h.taken_set (fun _ ended => ended) (by rw [taken]; simp), h.tracks⟩
  rw [owned_set s.mem thread rfl, buffer]
  exact h.owned.drop _

theorem Sound.free {i : ℕ} {id : MemoryRegionId} {buffer : AllocationResult} (h : Sound m s)
    (thread : s.releasers[i]? = some (.marked id buffer)) : Sound m (turn b m s (.releaser i)) := by
  have holds : MigrationRace.owned m s (.releaser i) = some buffer.handle := by
    simp only [MigrationRace.owned, thread]
    rfl
  have ended := h.taken _ (List.mem_of_getElem? thread) id rfl
  have freed : (Releaser.marked id buffer).advance b s.mem =
      (.returned id, { s.mem with world := s.mem.world.free b buffer }) := rfl
  rw [turn_releaser b m thread, freed]
  refine ⟨h.exact.setWorld _, ?_, h.taken_set (fun _ kept => kept) ?_, h.tracks⟩
  · dsimp only
    rw [owned_set { s.mem with world := s.mem.world.free b buffer } thread rfl]
    exact h.owned.spend holds
  · rintro j ⟨rfl⟩
    exact ended

theorem getElem?_of_ne {mem mem' : MemoryManager β} {id j : MemoryRegionId} {r : MemoryRegion}
    (regions_eq : mem'.regions = mem.regions.insert id r) (ne : j ≠ id) :
    mem'.regions[j]? = mem.regions[j]? := by
  rw [regions_eq, ExtTreeMap.getElem?_insert, if_neg fun h => ne (compare_eq_iff_eq.mp h).symm]

/-- Under the condition an accepted release does not take the region whose buffer is gone. -/
theorem Undisturbed.spares {i : ℕ} {id : MemoryRegionId} {expected : Option MemoryGeneration}
    {r : MemoryRegion} (cond : Undisturbed m s (.releaser i))
    (thread : s.releasers[i]? = some (.ready id expected)) (found : s.mem.regions[id]? = some r)
    (good : releaseRefusal r id expected = none) (gave : s.migrator.gaveBack = true) :
    id ≠ m.id :=
  fun own => cond _ thread gave own r found good

/-- What the migration knows survives a release of another region, and of its own while the
old buffer is there. -/
theorem Tracks.take {id : MemoryRegionId} {r r' : MemoryRegion} (tracks : Tracks m s)
    (migrator : t.migrator = s.migrator) (found : s.mem.regions[id]? = some r)
    (standing : r.state.isReleased = false)
    (regions_eq : t.mem.regions = s.mem.regions.insert id r') (ended : r'.state.isReleased = true)
    (spared : s.migrator.gaveBack = true → id ≠ m.id) : Tracks m t := by
  have region : ∀ snapshot, s.mem.regions[m.id]? = some snapshot ∨ Ended s.mem m.id →
      t.mem.regions[m.id]? = some snapshot ∨ Ended t.mem m.id := by
    rintro snapshot (same | before)
    · by_cases own : m.id = id
      · right
        refine ⟨r', ?_, ended⟩
        rw [regions_eq, own]
        exact ExtTreeMap.getElem?_insert_self
      · left
        rw [getElem?_of_ne regions_eq own, same]
    · exact .inr (before.insert found standing regions_eq)
  unfold Tracks at tracks ⊢
  rw [migrator]
  cases hm : s.migrator with
  | marked snapshot =>
    rw [hm] at tracks
    exact ⟨tracks.1, region snapshot tracks.2⟩
  | allocated snapshot result =>
    rw [hm] at tracks
    exact ⟨tracks.1, region snapshot tracks.2⟩
  | freed snapshot result =>
    rw [hm] at tracks spared
    refine ⟨tracks.1, ?_⟩
    rw [getElem?_of_ne regions_eq (spared rfl).symm]
    exact tracks.2
  | _ => trivial

theorem Sound.take {i : ℕ} {id : MemoryRegionId} {expected : Option MemoryGeneration}
    (h : Sound m s) (thread : s.releasers[i]? = some (.ready id expected))
    (cond : Undisturbed m s (.releaser i)) : Sound m (turn b m s (.releaser i)) := by
  have ho := markReleased_outcome id expected s.mem
  rw [turn_releaser b m thread]
  simp only [Releaser.advance, phase]
  generalize (markReleased id expected).run s.mem = res at ho ⊢
  cases ho with
  | refused e => exact h.end_releaser thread rfl rfl
  | underflow r found good under =>
    obtain ⟨live, -⟩ := h.exact.live_of_not_released found (isReleased_of_releaseRefusal good)
    rw [h.exact.covered found live] at under
    cases under
  | marked r found good covered =>
    have standing := isReleased_of_releaseRefusal good
    have spared := cond.spares thread found good
    have holds : MigrationRace.owned m s (.region id) = some r.backendResult.handle := by
      have free : (s.migrator.gaveBack && id == m.id) = false := by
        by_cases gave : s.migrator.gaveBack = true
        · simp [spared gave]
        · simp [gave]
      simp only [MigrationRace.owned, free, Bool.false_eq_true, if_false]
      exact held_of_standing found standing
    obtain ⟨live, -⟩ := h.exact.live_of_not_released found standing
    refine ⟨?_, ?_, h.taken_set (fun j ended => ended.insert found standing rfl) ?_,
      h.tracks.take rfl found standing rfl rfl spared⟩
    · refine h.exact.replace found (fun n valid => ?_) (tidy_discharged h.exact.tidy) (.inl rfl)
      rw [amount_of_live n live, entry_discharged valid covered]
      rfl
    · -- the buffer passes from the region to the thread
      convert h.owned.pass (p := .releaser i) holds using 1
      have inside : i < s.releasers.length := (List.getElem?_eq_some_iff.mp thread).1
      funext o
      cases o with
      | region j =>
        have other : (Owner.region j) ≠ .releaser i := fun e => by cases e
        simp only [MigrationRace.owned]
        rw [held_insert rfl, Function.update_of_ne other]
        by_cases same : j = id
        · subst same
          simp [holding, LifecycleState.isReleased]
        · simp [MigrationRace.owned, same]
      | releaser j =>
        by_cases own : j = i
        · subst own
          simp [MigrationRace.owned, inside, Releaser.buffer]
        · simp [MigrationRace.owned, own, List.getElem?_set_ne (Ne.symm own)]
      | migrator => simp [MigrationRace.owned]
    · rintro j ⟨rfl⟩
      exact ⟨_, ExtTreeMap.getElem?_insert_self, rfl⟩

theorem set_of_getElem? {α : Type*} {l : List α} {i : ℕ} {a : α} (h : l[i]? = some a) :
    l.set i a = l := by
  obtain ⟨inside, rfl⟩ := List.getElem?_eq_some_iff.mp h
  exact List.set_getElem_self inside

/-- Every phase that meets the condition keeps the invariant. -/
theorem Sound.turn (h : Sound m s) (next : Turn) (cond : Undisturbed m s next) :
    Sound m (MigrationRace.turn b m s next) := by
  cases next with
  | migrator =>
    cases hm : s.migrator with
    | ready => exact h.mark hm
    | marked snapshot => exact h.obtain hm
    | declined => exact h.retain hm
    | allocated snapshot result => exact h.giveBack hm cond
    | freed snapshot result => exact h.commit hm cond
    | returned view =>
      simp only [MigrationRace.turn, hm, Migrator.advance]
      rw [← hm]
      exact h
    | threw e =>
      simp only [MigrationRace.turn, hm, Migrator.advance]
      rw [← hm]
      exact h
  | releaser i =>
    cases ht : s.releasers[i]? with
    | none =>
      rw [MigrationRace.turn, ht]
      exact h
    | some r =>
      cases r with
      | ready id expected => exact h.take ht cond
      | marked id buffer => exact h.free ht
      | returned id =>
        rw [turn_releaser b m ht]
        simp only [Releaser.advance, set_of_getElem? ht]
        exact h
      | threw id e =>
        rw [turn_releaser b m ht]
        simp only [Releaser.advance, set_of_getElem? ht]
        exact h

end Steps

theorem start_sound {m : Reallocation} {s : MemoryManager β} (accounts : Exact s) (owners : Owned s)
    (calls : List (MemoryRegionId × Option MemoryGeneration)) : Sound m (start s calls) := by
  refine ⟨accounts, ?_, ?_, trivial⟩
  · -- only regions own anything yet
    have none_waits : ∀ i, owned m (start s calls) (.releaser i) = none := by
      intro i
      simp only [owned, start, List.getElem?_map]
      cases calls[i]? <;> rfl
    have regions : ∀ o k, owned m (start s calls) o = some k → ∃ id, o = .region id ∧
        held s id = some k := by
      intro o k ho
      cases o with
      | region id => exact ⟨id, rfl, ho⟩
      | releaser i =>
        rw [none_waits i] at ho
        cases ho
      | migrator => cases ho
    refine Sole.reindex owners (fun o => match o with | .region id => id | _ => .invalid) ?_ ?_
    · intro o p k ho hp same
      obtain ⟨id, rfl, -⟩ := regions o k ho
      obtain ⟨j, rfl, -⟩ := regions p k hp
      exact congrArg Owner.region same
    · intro o k ho
      obtain ⟨id, rfl, holds⟩ := regions o k ho
      exact holds
  · intro r hr id hid
    obtain ⟨c, -, rfl⟩ := List.mem_map.mp hr
    cases hid

/-- From every state the calls before have reached with exact accounts, every schedule of one
migration and any releases in which no release of the moving region gets between its old
buffer and its commit is safe. -/
theorem race_safe (b : Backend β) (grants : Grants b) (backend : β) (heap : Heap) (ops : List Op)
    (meets : Meets (step b) (fun s op => InRange b s op ∧ Advances b s op) (initial backend heap) ops)
    (m : Reallocation) (calls : List (MemoryRegionId × Option MemoryGeneration))
    (schedule : List Turn) :
    let s := start (MigrationManager.run b backend heap ops).mem calls
    Meets (turn b m) (Undisturbed m) s schedule → Safe (run b m s schedule) := by
  intro s undisturbed
  obtain ⟨accounts, owners⟩ := run_owned grants backend heap meets
  have sound : Sound m (run b m s schedule) :=
    foldl_invariant (fun _ next h cond => h.turn next cond) (start_sound accounts owners calls)
      undisturbed
  exact sound.safe

section Examples

/-- Two regions on node 1, the first about to move to node 2. -/
def twoRegions : List Op :=
  [onNode ⟨1⟩ 40, onNode ⟨1⟩ 40, .begin { memoryRegion := ⟨1⟩, targetNode := ⟨2⟩ }]

def firstToNode2 : Reallocation := { id := ⟨1⟩, target := ⟨2⟩ }

def twoRegionsRace (calls : List (MemoryRegionId × Option MemoryGeneration)) : Race Unit :=
  start (MigrationManager.run (budgeted 64) () (fun _ => 0) twoRegions).mem calls

/-- The second region is released in the middle of the migration, the first after it. -/
theorem race_safe_other_region :
    let s := twoRegionsRace [(⟨2⟩, none), (⟨1⟩, none)]
    let schedule : List Turn := [.migrator, .releaser 0, .migrator, .releaser 0, .migrator,
      .migrator, .releaser 1, .releaser 1]
    Safe (run (budgeted 64) firstToNode2 s schedule) := by
  intro s schedule
  have meets : Meets (step (budgeted 64))
      (fun s op => InRange (budgeted 64) s op ∧ Advances (budgeted 64) s op)
      (initial () fun _ => 0) twoRegions := by decide
  exact race_safe (budgeted 64) (grants_budgeted 64) () (fun _ => 0) twoRegions meets firstToNode2
    [(⟨2⟩, none), (⟨1⟩, none)] schedule (by decide)

/-- The region is released between its mark and its new buffer: the old buffer is freed
twice, the region is live again after its release, and node 1 loses the bytes of the other. -/
theorem release_between_phases_unsafe :
    let schedule : List Turn :=
      [.migrator, .releaser 0, .releaser 0, .migrator, .migrator, .migrator]
    let t := run (budgeted 64) firstToNode2 (twoRegionsRace [(⟨1⟩, none)]) schedule
    ¬ FreedOnce t ∧ ¬ StaysReleased t ∧ ¬ Accounted t := by
  intro schedule t
  refine ⟨fun once => ?_, fun stays => ?_, fun accounted => ?_⟩
  · exact absurd (once 1) (by decide)
  · have live : t.mem.regions[(⟨1⟩ : MemoryRegionId)]?.map (·.state.isLive) = some true := by decide
    obtain ⟨r, found, hr⟩ := Option.map_eq_some_iff.mp live
    rw [stays ⟨1⟩ r (by decide) found] at hr
    cases hr
  · have finished : Finished t := ⟨by decide, by decide⟩
    exact absurd (accounted finished ⟨1⟩) (by decide)

end Examples

end NumaFabric.MigrationRace
