import NumaFabric.PersistenceCodec

/-! What is persisted is recovered: each reader inverts its writer, the largest state
within the record limits fits the payload limit, and the container adds only checks. -/
namespace NumaFabric.Persistence
open FaultState ByteCodec

/-- The states that a runtime can store: bounded lists of records with valid identities. -/
structure Storable (s : PersistedState) : Prop where
  workers_le : s.workers.length ≤ kMaxPersistedRecords
  reservations_le : s.reservations.length ≤ kMaxPersistedRecords
  placements_le : s.placements.length ≤ kMaxPersistedRecords
  observations_le : s.observations.length ≤ kMaxPersistedRecords
  workers_valid : ∀ x ∈ s.workers, x.id.isValid = true
  reservations_valid : ∀ x ∈ s.reservations, x.id.isValid = true
  placements_valid : ∀ x ∈ s.placements, x.id.isValid = true
  observations_valid : ∀ x ∈ s.observations, x.id.isValid = true

/-- No list of records is longer than the format allows. -/
structure Counted (s : PersistedState) : Prop where
  workers_le : s.workers.length ≤ kMaxPersistedRecords
  reservations_le : s.reservations.length ≤ kMaxPersistedRecords
  placements_le : s.placements.length ≤ kMaxPersistedRecords
  observations_le : s.observations.length ≤ kMaxPersistedRecords

theorem Storable.counted {s : PersistedState} (h : Storable s) : Counted s :=
  ⟨h.workers_le, h.reservations_le, h.placements_le, h.observations_le⟩

theorem reads_u8 (v : U8) : Reads u8 (toBytes 1 v) v := reads_word _ v (by decide)

theorem reads_u32 (v : U32) : Reads u32 (toBytes 4 v) v := reads_word _ v (by decide)

theorem reads_u64 (v : U64) : Reads u64 (toBytes 8 v) v := reads_word _ v (by decide)

theorem reads_provenance (p : ProvenanceSource) : Reads provenance (toBytes 1 p.toU8) p := by
  have h : Reads provenance (toBytes 1 p.toU8 ++ []) p := by
    refine (reads_u8 p.toU8).bind ?_
    rw [ProvenanceSource.ofU8?_toU8]
    exact reads_pure p
  rwa [List.append_nil] at h

@[simp] theorem flag_ne_zero (b : Bool) : (flag b != 0) = b := by cases b <;> rfl

/-- The identity check that closes every record. -/
theorem reads_checked {α : Type} {c : Bool} {e : Exn} {x y : α} (hc : c = false) (hx : x = y) :
    Reads (do throwIf c e; return x : Reader Exn α) [] y := by
  subst hc hx
  exact fun _ => rfl

theorem reads_worker {x : PersistedWorker} (valid : x.id.isValid = true) :
    Reads readWorker (writeWorker x) x := by
  refine (reads_u64 x.id.value).bind ?_
  refine (reads_u64 x.boot.value).bind ?_
  refine (reads_u64 x.incarnation).bind ?_
  refine (reads_u8 (flag x.alive)).bind ?_
  refine (reads_u64 x.node.value).bind ?_
  refine (reads_u64 x.placementGeneration.value).bind ?_
  refine (reads_u64 x.bindingGeneration.value).bind ?_
  refine (reads_u64 x.policyGeneration.value).bind ?_
  refine (reads_u64 x.liveGeneration).bind ?_
  exact reads_checked (by rw [valid]; rfl) (by rw [flag_ne_zero])

theorem reads_res {x : PersistedReservation} (valid : x.id.isValid = true) :
    Reads readRes (writeRes x) x := by
  refine (reads_u64 x.id.value).bind ?_
  refine (reads_u64 x.node.value).bind ?_
  refine (reads_u64 x.bytes).bind ?_
  refine (reads_u32 x.cpuSlots).bind ?_
  refine (reads_u64 x.accelerator.value).bind ?_
  refine (reads_u8 (flag x.acceleratorCapacity)).bind ?_
  refine (reads_u64 x.generation.value).bind ?_
  refine (reads_u8 (flag x.active)).bind ?_
  exact reads_checked (by rw [valid]; rfl) (by rw [flag_ne_zero, flag_ne_zero])

theorem reads_place {x : PersistedPlacement} (valid : x.id.isValid = true) :
    Reads readPlace (writePlace x) x := by
  refine (reads_u64 x.id.value).bind ?_
  refine (reads_u64 x.generation.value).bind ?_
  refine (reads_u64 x.worker.value).bind ?_
  refine (reads_u64 x.workerBoot.value).bind ?_
  refine (reads_u64 x.node.value).bind ?_
  refine (reads_provenance x.source).bind ?_
  refine (reads_u64 x.committedGeneration).bind ?_
  exact reads_checked (by rw [valid]; rfl) rfl

theorem reads_obs {x : PersistedObservation} (valid : x.id.isValid = true) :
    Reads readObs (writeObs x) x := by
  refine (reads_u64 x.id.value).bind ?_
  refine (reads_u64 x.generation.value).bind ?_
  refine (reads_u64 x.worker.value).bind ?_
  refine (reads_u64 x.boot.value).bind ?_
  refine (reads_u64 x.node.value).bind ?_
  refine (reads_provenance x.source).bind ?_
  refine (reads_u8 (flag x.stale)).bind ?_
  exact reads_checked (by rw [valid]; rfl) (by rw [flag_ne_zero])

theorem writeMany_ok {α : Type} {kind : RecordKind} {write : α → ByteString} {xs : List α}
    (h : xs.length ≤ kMaxPersistedRecords) :
    writeMany kind write xs =
      .ok (toBytes 4 (BitVec.ofNat 32 xs.length) ++ xs.flatMap write) := if_neg (by omega)

theorem reads_many {α : Type} (kind : RecordKind) {write : α → ByteString} {read : Reader Exn α}
    {xs : List α} (h : xs.length ≤ kMaxPersistedRecords) (each : ∀ x ∈ xs, Reads read (write x) x) :
    Reads (readMany kind read) (toBytes 4 (BitVec.ofNat 32 xs.length) ++ xs.flatMap write) xs := by
  have count : (BitVec.ofNat 32 xs.length).toNat = xs.length := by
    rw [kMaxPersistedRecords] at h
    rw [BitVec.toNat_ofNat, Nat.mod_eq_of_lt (by omega)]
  refine (reads_u32 (BitVec.ofNat 32 xs.length)).bind ?_
  rw [count, decide_eq_false (by omega)]
  exact reads_times xs each

/-- The payload of a storable state. -/
def payloadOf (s : PersistedState) : ByteString :=
  [toBytes 8 s.coordinatorEpoch, toBytes 8 s.hostGeneration, toBytes 8 s.policyGeneration,
    toBytes 4 (BitVec.ofNat 32 s.workers.length) ++ s.workers.flatMap writeWorker,
    toBytes 4 (BitVec.ofNat 32 s.reservations.length) ++ s.reservations.flatMap writeRes,
    toBytes 4 (BitVec.ofNat 32 s.placements.length) ++ s.placements.flatMap writePlace,
    toBytes 4 (BitVec.ofNat 32 s.observations.length) ++ s.observations.flatMap writeObs].flatten

theorem serialize_eq {s : PersistedState} (h : Counted s) : serialize s = .ok (payloadOf s) := by
  unfold serialize
  rw [writeMany_ok h.workers_le, writeMany_ok h.reservations_le, writeMany_ok h.placements_le,
    writeMany_ok h.observations_le]
  rfl

theorem le_of_writeMany {α : Type} {kind : RecordKind} {write : α → ByteString} {xs : List α}
    {bytes : ByteString} (h : writeMany kind write xs = .ok bytes) :
    xs.length ≤ kMaxPersistedRecords := by
  unfold writeMany at h
  split_ifs at h
  omega

theorem counted_of_serialize {s : PersistedState} {bytes : ByteString}
    (h : serialize s = .ok bytes) : Counted s := by
  simp only [serialize, bind, Except.bind] at h
  split at h
  case h_1 => cases h
  case h_2 hw =>
  split at h
  case h_1 => cases h
  case h_2 hr =>
  split at h
  case h_1 => cases h
  case h_2 hp =>
  split at h
  case h_1 => cases h
  case h_2 ho =>
  exact ⟨le_of_writeMany hw, le_of_writeMany hr, le_of_writeMany hp, le_of_writeMany ho⟩

/-- What is serialized is the payload, and only a state within the limits is. -/
theorem serialize_eq_ok {s : PersistedState} {bytes : ByteString} :
    serialize s = .ok bytes ↔ Counted s ∧ bytes = payloadOf s := by
  constructor
  · intro h
    have counted := counted_of_serialize h
    rw [serialize_eq counted] at h
    cases h
    exact ⟨counted, rfl⟩
  · rintro ⟨counted, rfl⟩
    exact serialize_eq counted

theorem reads_state {s : PersistedState} (h : Storable s) : Reads readState (payloadOf s) s := by
  refine (reads_u64 s.coordinatorEpoch).bind ?_
  refine (reads_u64 s.hostGeneration).bind ?_
  refine (reads_u64 s.policyGeneration).bind ?_
  refine (reads_many .worker h.workers_le fun x hx => reads_worker (h.workers_valid x hx)).bind ?_
  refine (reads_many .reservation h.reservations_le
    fun x hx => reads_res (h.reservations_valid x hx)).bind ?_
  refine (reads_many .placement h.placements_le
    fun x hx => reads_place (h.placements_valid x hx)).bind ?_
  refine (reads_many .observation h.observations_le
    fun x hx => reads_obs (h.observations_valid x hx)).bind ?_
  exact reads_pure s

theorem length_flatMap_const {α : Type} {write : α → ByteString} {n : ℕ}
    (each : ∀ x, (write x).length = n) (xs : List α) :
    (xs.flatMap write).length = xs.length * n := by
  rw [List.length_flatMap]
  simp only [each, List.map_const', List.sum_replicate, smul_eq_mul]

theorem length_writeWorker (x : PersistedWorker) : (writeWorker x).length = 65 := rfl

theorem length_writeRes (x : PersistedReservation) : (writeRes x).length = 46 := rfl

theorem length_writePlace (x : PersistedPlacement) : (writePlace x).length = 49 := rfl

theorem length_writeObs (x : PersistedObservation) : (writeObs x).length = 42 := rfl

/-- The largest state of the record limits is 40 + 202 * 2^20 bytes long. -/
theorem length_payloadOf_le {s : PersistedState} (h : Counted s) :
    (payloadOf s).length ≤ kMaxPayload := by
  have hw := h.workers_le
  have hr := h.reservations_le
  have hp := h.placements_le
  have ho := h.observations_le
  simp only [payloadOf, List.flatten_cons, List.flatten_nil, List.length_append, length_toBytes,
    length_flatMap_const length_writeWorker, length_flatMap_const length_writeRes,
    length_flatMap_const length_writePlace, length_flatMap_const length_writeObs, List.length_nil,
    kMaxPayload, kMaxPersistedRecords] at hw hr hp ho ⊢
  omega

theorem deserialize_payloadOf {s : PersistedState} (h : Storable s) :
    deserialize (payloadOf s) = .ok s := by
  have read := reads_state h []
  rw [List.append_nil] at read
  have small := length_payloadOf_le h.counted
  rw [deserialize, if_neg (by omega), read]
  rfl

theorem container_eq (payload : ByteString) : container payload =
    containerHead payload ++ (toBytes 4 (crc32 (containerHead payload ++ payload)) ++ payload) := by
  simp only [container, List.append_assoc]

theorem length_container (payload : ByteString) :
    (container payload).length = kHeaderSize + payload.length := by
  rw [container_eq, List.length_append, List.length_append, length_toBytes]
  change 20 + (4 + payload.length) = 24 + payload.length
  omega

theorem take_container (payload : ByteString) :
    (container payload).take 20 = containerHead payload := by
  rw [container_eq]
  exact List.take_left' rfl

theorem drop_container (payload : ByteString) : (container payload).drop kHeaderSize = payload := by
  rw [container_eq, ← List.append_assoc]
  exact List.drop_left' rfl

theorem openContainer_container {payload : ByteString} (small : payload.length ≤ kMaxPayload) :
    openContainer (container payload) = .ok payload := by
  have total := length_container payload
  have magic : (container payload).take 12 = kContainerMagic := by rw [container_eq]; rfl
  have version : field 32 4 12 (container payload) = kContainerVersion :=
    field_eq (by decide) (by rw [container_eq]; rfl)
  have size : (field 32 4 16 (container payload)).toNat = payload.length := by
    rw [field_eq (v := BitVec.ofNat 32 payload.length) (by decide) (by rw [container_eq]; rfl),
      BitVec.toNat_ofNat, Nat.mod_eq_of_lt]
    rw [kMaxPayload] at small
    omega
  have crc : field 32 4 20 (container payload) = crc32 (containerHead payload ++ payload) :=
    field_eq (by decide) (by rw [container_eq]; rfl)
  have head : (container payload).take (kHeaderSize - 4) = containerHead payload :=
    take_container payload
  have body := drop_container payload
  unfold openContainer
  simp only [magic, version, size, crc, head, body, total, ne_eq, not_true_eq_false, if_false]
  rw [if_neg (by omega), if_neg (by omega)]
  rfl

/-- Everything an accepted container has passed. -/
theorem openContainer_eq_ok {y payload : ByteString} (accepted : openContainer y = .ok payload) :
    kHeaderSize ≤ y.length ∧ y.take 12 = kContainerMagic ∧ field 32 4 12 y = kContainerVersion ∧
      (field 32 4 16 y).toNat ≤ kMaxPayload ∧ y.length = kHeaderSize + (field 32 4 16 y).toNat ∧
      crc32 (y.take (kHeaderSize - 4) ++ y.drop kHeaderSize) = field 32 4 20 y ∧
      payload = y.drop kHeaderSize := by
  unfold openContainer at accepted
  simp only [bind, Except.bind, pure, Except.pure, throw, throwThe, MonadExceptOf.throw] at accepted
  split_ifs at accepted with truncated magic version long length sum
  all_goals try cases accepted
  rw [not_not] at magic version length sum
  exact ⟨Nat.not_lt.mp truncated, magic, version, Nat.not_lt.mp long, length, sum, rfl⟩

theorem openContainer_raises {y : ByteString} {e : Exn} (h : openContainer y = .error e) :
    ∃ p, e = .persistence p := by
  unfold openContainer at h
  simp only [bind, Except.bind, pure, Except.pure, throw, throwThe, MonadExceptOf.throw] at h
  split_ifs at h
  all_goals
    cases h
    exact ⟨_, rfl⟩

theorem tmp_ne (path : ByteString) : path ≠ path ++ ascii ".tmp" := by
  intro h
  have := congrArg List.length h
  rw [List.length_append] at this
  have pos : 0 < (ascii ".tmp").length := by decide
  omega

theorem save_run {s : PersistedState} (h : Counted s) (path : ByteString) (disk : Disk) :
    ∃ disk', (save none s path).run disk = .ok () disk' ∧
      disk' path = some (container (payloadOf s)) := by
  refine ⟨_, by rw [save, serialize_eq h]; rfl, ?_⟩
  simp [Disk.put, tmp_ne path]

/-- What `save` leaves at the path. -/
theorem container_of_save {s : PersistedState} {path : ByteString} {disk disk' : Disk}
    (saved : (save none s path).run disk = .ok () disk') :
    ∃ payload, serialize s = .ok payload ∧ disk' path = some (container payload) := by
  cases hs : serialize s with
  | error e =>
    rw [save, hs] at saved
    cases saved
  | ok payload =>
    obtain ⟨counted, rfl⟩ := serialize_eq_ok.mp hs
    obtain ⟨disk'', run, content⟩ := save_run counted path disk
    rw [run] at saved
    cases saved
    exact ⟨_, rfl, content⟩

theorem load_run {path bytes payload : ByteString} {disk : Disk} {s : PersistedState}
    (found : disk path = some bytes) (opened : openContainer bytes = .ok payload)
    (read : deserialize payload = .ok s) : (load path).run disk = .ok s disk := by
  rw [load, run_bind_of_ok (EStateM.run_get disk), found]
  dsimp only
  rw [opened]
  change (MonadExcept.ofExcept (deserialize payload) : Exec Disk PersistedState).run disk = _
  rw [read]
  rfl

theorem load_refused {path bytes : ByteString} {disk : Disk} {e : Exn}
    (found : disk path = some bytes) (refused : openContainer bytes = .error e) :
    (load path).run disk = .error e disk := by
  rw [load, run_bind_of_ok (EStateM.run_get disk), found]
  dsimp only
  rw [refused]
  rfl

/-- A storable state is serialized within the limit, read back field for field and in
order, and survives being saved to any path and loaded again. -/
theorem persisted_state_roundtrip (s : PersistedState) (h : Storable s) :
    ∃ bytes, serialize s = .ok bytes ∧ bytes.length ≤ kMaxPayload ∧ deserialize bytes = .ok s ∧
      ∀ (path : ByteString) (disk : Disk), ∃ disk', (save none s path).run disk = .ok () disk' ∧
        disk' path = some (container bytes) ∧ (load path).run disk' = .ok s disk' := by
  refine ⟨payloadOf s, serialize_eq h.counted, length_payloadOf_le h.counted,
    deserialize_payloadOf h, fun path disk => ?_⟩
  obtain ⟨disk', hrun, hpath⟩ := save_run h.counted path disk
  refine ⟨disk', hrun, hpath, ?_⟩
  exact load_run hpath (openContainer_container (length_payloadOf_le h.counted))
    (deserialize_payloadOf h)

theorem persisted_state_roundtrip_mixed :
    let s : PersistedState :=
      { coordinatorEpoch := 3, workers := [{ id := ⟨1⟩, boot := ⟨7⟩, alive := true }]
        reservations := [{ id := ⟨4⟩, node := ⟨2⟩, bytes := 4096, active := true }]
        placements := [{ id := ⟨9⟩, source := .measured }]
        observations := [{ id := ⟨5⟩, stale := true }, { id := ⟨6⟩ }] }
    ∃ bytes, serialize s = .ok bytes ∧ deserialize bytes = .ok s := by
  intro s
  have h : Storable s := by constructor <;> decide
  obtain ⟨bytes, written, -, read, -⟩ := persisted_state_roundtrip s h
  exact ⟨bytes, written, read⟩

/-- A state with records of every kind. -/
def recorded : PersistedState where
  coordinatorEpoch := 3
  hostGeneration := 2
  workers := [{ id := ⟨1⟩, boot := ⟨7⟩, alive := true, node := ⟨2⟩ }, { id := ⟨2⟩, boot := ⟨8⟩ }]
  reservations := [{ id := ⟨4⟩, node := ⟨2⟩, bytes := 4096, active := true }]
  placements := [{ id := ⟨9⟩, worker := ⟨1⟩, workerBoot := ⟨7⟩, node := ⟨2⟩, source := .measured }]
  observations := [{ id := ⟨5⟩, worker := ⟨2⟩, boot := ⟨8⟩, stale := true }]

theorem storable_recorded : Storable recorded := by constructor <;> decide

end NumaFabric.Persistence
