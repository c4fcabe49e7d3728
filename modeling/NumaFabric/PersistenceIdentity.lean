import NumaFabric.PersistenceCanonical

/-! The identities of an accepted payload. The decoder reads each record on its own, so
two records of one list share an identity exactly when their first words do. -/
namespace NumaFabric.Persistence
open FaultState ByteCodec

/-- No two records of one list carry the same identity. -/
structure DistinctIds (s : PersistedState) : Prop where
  workers : (s.workers.map PersistedWorker.id).Nodup
  reservations : (s.reservations.map PersistedReservation.id).Nodup
  placements : (s.placements.map PersistedPlacement.id).Nodup
  observations : (s.observations.map PersistedObservation.id).Nodup

/-- The first words of `n` records of the same width. -/
def headWords (width : ℕ) : ℕ → ByteString → List U64
  | 0, _ => []
  | n + 1, x => field 64 8 0 x :: headWords width n (x.drop width)

/-- The records of each list start with different words. -/
def DistinctHeads (x : ByteString) : Prop :=
  let workers := (field 32 4 24 x).toNat
  let reservations := (field 32 4 (28 + 65 * workers) x).toNat
  let placements := (field 32 4 (32 + 65 * workers + 46 * reservations) x).toNat
  let observations :=
    (field 32 4 (36 + 65 * workers + 46 * reservations + 49 * placements) x).toNat
  (headWords 65 workers (x.drop 28)).Nodup ∧
    (headWords 46 reservations (x.drop (32 + 65 * workers))).Nodup ∧
    (headWords 49 placements (x.drop (36 + 65 * workers + 46 * reservations))).Nodup ∧
    (headWords 42 observations
      (x.drop (40 + 65 * workers + 46 * reservations + 49 * placements))).Nodup

section Heads
variable {α : Type} {mask : List Bool} {write : α → ByteString} {key : α → U64}

theorem take_overlay {m : List Bool} {x : ByteString} {k : ℕ} (long : k ≤ x.length)
    (plain : m.take k = List.replicate k false) : (overlay m x).take k = x.take k := by
  have first : (x.take k).length = k := by
    rw [List.length_take]
    omega
  rw [overlay, List.take_zipWith, plain]
  exact overlay_replicate k first

/-- A settled record still starts with its identity. -/
theorem head_of_settles (plain : mask.take 8 = List.replicate 8 false)
    (starts : ∀ a, (write a).take 8 = toBytes 8 (key a)) {a : α} {bytes : ByteString}
    (h : Settles mask write a bytes) (more : ByteString) :
    field 64 8 0 (bytes ++ more) = key a := by
  have long : 8 ≤ bytes.length := by
    have marks := congrArg List.length plain
    rw [List.length_take, List.length_replicate] at marks
    have same := h.1
    omega
  apply field_eq (by decide)
  rw [List.drop_zero, List.take_append_of_le_length long, ← take_overlay long plain, ← h.2, starts]

/-- Records written back to back are accepted one behind the other. -/
theorem settles_cons (wide : ∀ a, (write a).length = mask.length) {a : α} {xs : List α}
    {body : ByteString}
    (h : Settles (List.replicate (a :: xs).length mask).flatten (List.flatMap write) (a :: xs) body) :
    ∃ bytes rest, body = bytes ++ rest ∧ Settles mask write a bytes ∧
      Settles (List.replicate xs.length mask).flatten (List.flatMap write) xs rest := by
  obtain ⟨length, settles⟩ := h
  rw [List.length_cons, List.replicate_succ, List.flatten_cons] at length settles
  rw [List.length_append] at length
  have first : (body.take mask.length).length = mask.length := by
    rw [List.length_take]
    omega
  rw [← List.take_append_drop mask.length body, overlay_append first.symm, List.flatMap_cons]
    at settles
  obtain ⟨head, tail⟩ := List.append_inj settles (by
    rw [wide, overlay, List.length_zipWith, first, min_self])
  refine ⟨_, _, (List.take_append_drop mask.length body).symm, ⟨first, head⟩, ?_, tail⟩
  rw [List.length_drop]
  omega

/-- The first words of accepted records are their identities. -/
theorem headWords_settles (wide : ∀ a, (write a).length = mask.length)
    (plain : mask.take 8 = List.replicate 8 false)
    (starts : ∀ a, (write a).take 8 = toBytes 8 (key a)) {xs : List α} {body : ByteString}
    (h : Settles (List.replicate xs.length mask).flatten (List.flatMap write) xs body)
    (more : ByteString) : headWords mask.length xs.length (body ++ more) = xs.map key := by
  induction xs generalizing body with
  | nil => rfl
  | cons a xs ih =>
    obtain ⟨bytes, rest, rfl, first, others⟩ := settles_cons wide h
    simp only [List.length_cons, headWords, List.append_assoc, List.map_cons]
    rw [head_of_settles plain starts first, List.drop_left' first.1, ih others]

/-- The identities of the records that start at an offset. -/
theorem headWords_at (key : α → U64) (wide : ∀ a, (write a).length = mask.length)
    (plain : mask.take 8 = List.replicate 8 false)
    (starts : ∀ a, (write a).take 8 = toBytes 8 (key a)) {xs : List α} {body : ByteString}
    (h : Settles (List.replicate xs.length mask).flatten (List.flatMap write) xs body)
    (before more : ByteString) :
    headWords mask.length xs.length ((before ++ (body ++ more)).drop before.length) = xs.map key := by
  rw [List.drop_left, headWords_settles wide plain starts h]

end Heads

/-- The first words of an accepted payload's records are the identities of its state. -/
theorem distinctHeads_of_accepted {x : ByteString} {s : PersistedState}
    (read : readState.run x = .ok s []) :
    DistinctHeads x ↔
      (s.workers.map fun w => w.id.value).Nodup ∧ (s.reservations.map fun r => r.id.value).Nodup ∧
      (s.placements.map fun p => p.id.value).Nodup ∧
      (s.observations.map fun o => o.id.value).Nodup := by
  obtain ⟨counted, head, workers, reservations, placements, observations, hh, hw, hr, hp, ho, rfl⟩ :=
    readState_eq_ok read
  have lh : head.length = 24 := by rw [hh]; rfl
  have lw : workers.length = 65 * s.workers.length := hw.1.trans (length_replicate_flatten _ _)
  have lr : reservations.length = 46 * s.reservations.length :=
    hr.1.trans (length_replicate_flatten _ _)
  have lp : placements.length = 49 * s.placements.length := hp.1.trans (length_replicate_flatten _ _)
  obtain ⟨cw, cr, cp, co⟩ := counts_cut counted observations lh lw lr lp
  let b1 := head ++ toBytes 4 (BitVec.ofNat 32 s.workers.length)
  let b2 := b1 ++ workers ++ toBytes 4 (BitVec.ofNat 32 s.reservations.length)
  let b3 := b2 ++ reservations ++ toBytes 4 (BitVec.ofNat 32 s.placements.length)
  let b4 := b3 ++ placements ++ toBytes 4 (BitVec.ofNat 32 s.observations.length)
  have l1 : b1.length = 28 := by simp [b1, lh]
  have l2 : b2.length = 32 + 65 * s.workers.length := by
    simp only [b2, List.length_append, length_toBytes, l1, lw]
    omega
  have l3 : b3.length = 36 + 65 * s.workers.length + 46 * s.reservations.length := by
    simp only [b3, List.length_append, length_toBytes, l2, lr]
    omega
  have l4 : b4.length =
      40 + 65 * s.workers.length + 46 * s.reservations.length + 49 * s.placements.length := by
    simp only [b4, List.length_append, length_toBytes, l3, lp]
    omega
  have iw := headWords_at (fun w => w.id.value) (fun _ => rfl) rfl (fun _ => rfl) hw b1
    (toBytes 4 (BitVec.ofNat 32 s.reservations.length) ++ (reservations ++
      (toBytes 4 (BitVec.ofNat 32 s.placements.length) ++ (placements ++
      (toBytes 4 (BitVec.ofNat 32 s.observations.length) ++ observations)))))
  have ir := headWords_at (fun w => w.id.value) (fun _ => rfl) rfl (fun _ => rfl) hr b2
    (toBytes 4 (BitVec.ofNat 32 s.placements.length) ++ (placements ++
      (toBytes 4 (BitVec.ofNat 32 s.observations.length) ++ observations)))
  have ip := headWords_at (fun w => w.id.value) (fun _ => rfl) rfl (fun _ => rfl) hp b3
    (toBytes 4 (BitVec.ofNat 32 s.observations.length) ++ observations)
  have io := headWords_at (fun w => w.id.value) (fun _ => rfl) rfl (fun _ => rfl) ho b4 []
  rw [l1] at iw
  rw [l2] at ir
  rw [l3] at ip
  rw [l4] at io
  simp only [b1, b2, b3, b4, List.append_assoc, List.append_nil] at iw ir ip io
  simp only [DistinctHeads, cw, cr, cp, co]
  rw [← iw, ← ir, ← ip, ← io]
  exact Iff.rfl

/-- An identity is its word. -/
theorem nodup_values {α : Type} {t : Tag} (id : α → Id t) (xs : List α) :
    (xs.map fun a => (id a).value).Nodup ↔ (xs.map id).Nodup := by
  have split : (xs.map fun a => (id a).value) = (xs.map id).map Id.value := by simp
  rw [split]
  apply List.nodup_map_iff
  intro u v same
  cases u
  cases v
  simpa using same

/-- The identities of an accepted state are distinct exactly when the first words of the
payload's records are. -/
theorem distinct_ids_iff (x : ByteString) (s : PersistedState) (accepted : deserialize x = .ok s) :
    DistinctIds s ↔ DistinctHeads x := by
  obtain ⟨-, read⟩ := deserialize_eq_ok accepted
  rw [distinctHeads_of_accepted read]
  simp only [nodup_values]
  constructor
  · rintro ⟨hw, hr, hp, ho⟩
    exact ⟨hw, hr, hp, ho⟩
  · rintro ⟨hw, hr, hp, ho⟩
    exact ⟨hw, hr, hp, ho⟩

theorem distinct_ids_iff_two_workers :
    deserialize (payloadOf { workers := [{ id := ⟨1⟩ }, { id := ⟨2⟩ }] }) =
        .ok { workers := [{ id := ⟨1⟩ }, { id := ⟨2⟩ }] } ∧
      DistinctHeads (payloadOf { workers := [{ id := ⟨1⟩ }, { id := ⟨2⟩ }] }) := by
  have accepted : deserialize (payloadOf { workers := [{ id := ⟨1⟩ }, { id := ⟨2⟩ }] }) =
      .ok { workers := [{ id := ⟨1⟩ }, { id := ⟨2⟩ }] } :=
    deserialize_payloadOf (by constructor <;> simp [kMaxPersistedRecords, Id.isValid])
  refine ⟨accepted, (distinct_ids_iff _ _ accepted).mp ?_⟩
  constructor <;> simp

/-- Two records of one worker are accepted side by side. -/
theorem duplicate_worker_accepted :
    ¬ ∀ (x : ByteString) (s : PersistedState), deserialize x = .ok s → DistinctIds s := by
  intro rejected
  have accepted : deserialize (payloadOf { workers := [{ id := ⟨1⟩ }, { id := ⟨1⟩ }] }) =
      .ok { workers := [{ id := ⟨1⟩ }, { id := ⟨1⟩ }] } :=
    deserialize_payloadOf (by constructor <;> simp [kMaxPersistedRecords, Id.isValid])
  have distinct := (rejected _ _ accepted).workers
  simp at distinct

end NumaFabric.Persistence
