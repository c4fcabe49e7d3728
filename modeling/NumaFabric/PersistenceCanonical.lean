import NumaFabric.PersistenceRoundtrip

/-! What the strict decoder accepts. Every field but the flags has one encoding, so a
payload is determined by the state it denotes up to its flag bytes, and no accepted
payload is a prefix of another. -/
namespace NumaFabric.Persistence
open FaultState ByteCodec

section Prefixes

/-- The exceptions of the decoder are all of its own class. -/
def OwnError (e : Exn) : Prop := ∃ p, e = .persistence p

theorem strict_u8 : Strict OwnError u8 := strict_word 1 ⟨_, rfl⟩

theorem strict_u32 : Strict OwnError u32 := strict_word 4 ⟨_, rfl⟩

theorem strict_u64 : Strict OwnError u64 := strict_word 8 ⟨_, rfl⟩

theorem strict_provenance : Strict OwnError provenance := by
  refine strict_u8.bind fun b => ?_
  cases ProvenanceSource.ofU8? b with
  | none => exact strict_throw ⟨_, rfl⟩
  | some p => exact strict_pure p

theorem strict_worker : Strict OwnError readWorker :=
  strict_u64.bind fun _ => strict_u64.bind fun _ => strict_u64.bind fun _ => strict_u8.bind fun _ =>
  strict_u64.bind fun _ => strict_u64.bind fun _ => strict_u64.bind fun _ => strict_u64.bind fun _ =>
  strict_u64.bind fun _ => (strict_throwIf _ ⟨_, rfl⟩).bind fun _ => strict_pure _

theorem strict_res : Strict OwnError readRes :=
  strict_u64.bind fun _ => strict_u64.bind fun _ => strict_u64.bind fun _ => strict_u32.bind fun _ =>
  strict_u64.bind fun _ => strict_u8.bind fun _ => strict_u64.bind fun _ => strict_u8.bind fun _ =>
  (strict_throwIf _ ⟨_, rfl⟩).bind fun _ => strict_pure _

theorem strict_place : Strict OwnError readPlace :=
  strict_u64.bind fun _ => strict_u64.bind fun _ => strict_u64.bind fun _ => strict_u64.bind fun _ =>
  strict_u64.bind fun _ => strict_provenance.bind fun _ => strict_u64.bind fun _ =>
  (strict_throwIf _ ⟨_, rfl⟩).bind fun _ => strict_pure _

theorem strict_obs : Strict OwnError readObs :=
  strict_u64.bind fun _ => strict_u64.bind fun _ => strict_u64.bind fun _ => strict_u64.bind fun _ =>
  strict_u64.bind fun _ => strict_provenance.bind fun _ => strict_u8.bind fun _ =>
  (strict_throwIf _ ⟨_, rfl⟩).bind fun _ => strict_pure _

theorem strict_many {α : Type} (kind : RecordKind) {read : Reader Exn α} (h : Strict OwnError read) :
    Strict OwnError (readMany kind read) :=
  strict_u32.bind fun _ => (strict_throwIf _ ⟨_, rfl⟩).bind fun _ => h.times _

theorem strict_state : Strict OwnError readState :=
  strict_u64.bind fun _ => strict_u64.bind fun _ => strict_u64.bind fun _ =>
  (strict_many _ strict_worker).bind fun _ => (strict_many _ strict_res).bind fun _ =>
  (strict_many _ strict_place).bind fun _ => (strict_many _ strict_obs).bind fun _ => strict_pure _

theorem deserialize_eq_ok {x : ByteString} {s : PersistedState} (h : deserialize x = .ok s) :
    x.length ≤ kMaxPayload ∧ readState.run x = .ok s [] := by
  unfold deserialize at h
  split_ifs at h with large
  cases hr : readState.run x with
  | error e rest =>
    rw [hr] at h
    cases h
  | ok s' rest =>
    rw [hr] at h
    dsimp only at h
    split_ifs at h with ended
    cases h
    exact ⟨Nat.not_lt.mp large, by rw [ended]⟩

/-- Bytes appended to an accepted payload are found behind its last record. -/
theorem deserialize_extension {x more : ByteString} {s : PersistedState}
    (accepted : deserialize x = .ok s) (proper : more ≠ []) :
    ∃ e, deserialize (x ++ more) = .error (.persistence e) := by
  obtain ⟨-, read⟩ := deserialize_eq_ok accepted
  have longer := strict_state.extend _ _ _ read more
  unfold deserialize
  split_ifs with large
  · exact ⟨_, rfl⟩
  · rw [longer, List.nil_append]
    dsimp only
    rw [if_neg proper]
    exact ⟨_, rfl⟩

theorem deserialize_raises {x : ByteString} {e : Exn} (h : deserialize x = .error e) : OwnError e := by
  unfold deserialize at h
  split_ifs at h with large
  · cases h
    exact ⟨_, rfl⟩
  · cases hr : readState.run x with
    | error e' rest =>
      rw [hr] at h
      cases h
      exact strict_state.raise _ _ _ hr
    | ok s rest =>
      rw [hr] at h
      dsimp only at h
      split_ifs at h
      cases h
      exact ⟨_, rfl⟩

/-- A payload cut short is refused, since its continuation would be garbage behind it. -/
theorem deserialize_truncation {x more : ByteString} {s : PersistedState}
    (accepted : deserialize (x ++ more) = .ok s) (proper : more ≠ []) :
    ∃ e, deserialize x = .error (.persistence e) := by
  cases hx : deserialize x with
  | ok s' =>
    obtain ⟨e, refused⟩ := deserialize_extension hx proper
    rw [refused] at accepted
    cases accepted
  | error e =>
    obtain ⟨p, rfl⟩ := deserialize_raises hx
    exact ⟨p, rfl⟩

/-- The length field settles how long an accepted container is. -/
theorem length_of_openContainer {payload y payload' : ByteString}
    (small : payload.length ≤ kMaxPayload) (accepted : openContainer y = .ok payload')
    (comparable : y <+: container payload ∨ container payload <+: y) :
    y.length = (container payload).length := by
  obtain ⟨long, -, -, -, length, -, -⟩ := openContainer_eq_ok accepted
  obtain ⟨-, -, -, -, written, -, -⟩ := openContainer_eq_ok (openContainer_container small)
  have size : kHeaderSize = 24 := rfl
  have total := length_container payload
  have same : field 32 4 16 y = field 32 4 16 (container payload) := by
    rcases comparable with ⟨more, whole⟩ | ⟨more, whole⟩
    · rw [← whole, field_append more (by omega)]
    · rw [← whole, field_append more (by omega)]
  rw [length, written, same]

theorem openContainer_comparable {payload y : ByteString} (small : payload.length ≤ kMaxPayload)
    (comparable : y <+: container payload ∨ container payload <+: y) (proper : y ≠ container payload) :
    ∃ e, openContainer y = .error (.persistence e) := by
  cases accepted : openContainer y with
  | error e =>
    obtain ⟨p, rfl⟩ := openContainer_raises accepted
    exact ⟨p, rfl⟩
  | ok payload' =>
    have length := length_of_openContainer small accepted comparable
    rcases comparable with shorter | longer
    · exact absurd (shorter.eq_of_length length) proper
    · exact absurd (longer.eq_of_length length.symm).symm proper

/-- Of a byte string and a proper prefix of it at most one is accepted, so payloads and
containers cut short or continued are refused. -/
theorem persisted_prefix_free :
    (∀ x y : ByteString, x <+: y → x ≠ y → ¬ ((∃ s, deserialize x = .ok s) ∧ ∃ s, deserialize y = .ok s)) ∧
    (∀ (x y : ByteString) (s : PersistedState), deserialize x = .ok s →
      (x <+: y ∨ y <+: x) → x ≠ y → ∃ e, deserialize y = .error (.persistence e)) ∧
    (∀ (s : PersistedState) (path : ByteString) (disk disk' : Disk) (x y : ByteString),
      (save none s path).run disk = .ok () disk' → disk' path = some x →
      (x <+: y ∨ y <+: x) → x ≠ y →
      ∃ e, (load path).run (disk'.put path (some y)) =
        .error (.persistence e) (disk'.put path (some y))) := by
  refine ⟨?_, ?_, ?_⟩
  · rintro x y ⟨more, rfl⟩ proper ⟨⟨s, accepted⟩, s', accepted'⟩
    have rest : more ≠ [] := fun h => proper (by rw [h, List.append_nil])
    obtain ⟨e, refused⟩ := deserialize_extension accepted rest
    rw [refused] at accepted'
    cases accepted'
  · rintro x y s accepted (⟨more, rfl⟩ | ⟨more, rfl⟩) proper
    · exact deserialize_extension accepted fun h => proper (by rw [h, List.append_nil])
    · exact deserialize_truncation accepted fun h => proper (by rw [h, List.append_nil])
  · intro s path disk disk' x y saved found comparable proper
    obtain ⟨payload, written, content⟩ := container_of_save saved
    obtain ⟨counted, rfl⟩ := serialize_eq_ok.mp written
    rw [content, Option.some.injEq] at found
    subst found
    obtain ⟨e, refused⟩ :=
      openContainer_comparable (length_payloadOf_le counted) comparable.symm proper.symm
    exact ⟨e, load_refused (by simp [Disk.put]) refused⟩

theorem persisted_prefix_free_recorded :
    (∃ e, deserialize (payloadOf recorded ++ [0]) = .error (.persistence e)) ∧
      ∃ disk' e, (save none recorded [1]).run (fun _ => none) = .ok () disk' ∧
        (load [1]).run (disk'.put [1] (some [0x4E])) =
          .error (.persistence e) (disk'.put [1] (some [0x4E])) := by
  obtain ⟨-, payloads, containers⟩ := persisted_prefix_free
  obtain ⟨disk', run, content⟩ := save_run storable_recorded.counted [1] fun _ => none
  obtain ⟨e, refused⟩ := containers recorded [1] _ disk' _ [0x4E] run content
    (.inr ⟨(container (payloadOf recorded)).tail, rfl⟩) (by decide)
  exact ⟨payloads _ _ recorded (deserialize_payloadOf storable_recorded) (.inl ⟨[0], rfl⟩) (by simp),
    disk', e, run, refused⟩

end Prefixes

section Flags

/-- The byte written for a flag that was read from this one. -/
def settled (b : U8) : U8 := flag (b != 0)

/-- Bytes with the marked ones settled. -/
def overlay (mask : List Bool) (bytes : ByteString) : ByteString :=
  List.zipWith (fun marked b => if marked then settled b else b) mask bytes

theorem settled_eq_iff (b : U8) : settled b = b ↔ b = 0 ∨ b = 1 := by
  by_cases h : b = 0
  · subst h
    decide
  · have set : (b != 0) = true := by simpa using h
    rw [settled, set]
    constructor
    · intro e
      exact .inr e.symm
    · rintro (e | rfl)
      · exact absurd e h
      · rfl

theorem overlay_append {m n : List Bool} {x y : ByteString} (h : m.length = x.length) :
    overlay (m ++ n) (x ++ y) = overlay m x ++ overlay n y := List.zipWith_append h

theorem overlay_replicate (n : ℕ) {x : ByteString} (h : x.length = n) :
    overlay (List.replicate n false) x = x := by
  subst h
  induction x with
  | nil => rfl
  | cons b x ih =>
    simp only [overlay, List.length_cons, List.replicate_succ, List.zipWith_cons_cons] at ih ⊢
    simp [ih]

/-- Settling changes nothing exactly when the marked bytes are zeros and ones. -/
theorem overlay_eq_iff {m : List Bool} {x : ByteString} (h : m.length = x.length) :
    overlay m x = x ↔ ∀ p ∈ m.zip x, p.1 = true → p.2 = 0 ∨ p.2 = 1 := by
  induction x generalizing m with
  | nil => simp [overlay]
  | cons b x ih =>
    cases m with
    | nil => cases h
    | cons c m =>
      have rest := ih (m := m) (by simpa using h)
      simp only [overlay, List.zipWith_cons_cons, List.cons.injEq, List.zip_cons_cons,
        List.forall_mem_cons] at rest ⊢
      rw [rest]
      cases c <;> simp [settled_eq_iff]

def workerMask : List Bool := List.replicate 24 false ++ [true] ++ List.replicate 40 false

def resMask : List Bool :=
  List.replicate 36 false ++ [true] ++ List.replicate 8 false ++ [true]

def placeMask : List Bool := List.replicate 49 false

def obsMask : List Bool := List.replicate 41 false ++ [true]

/-- A record as it was accepted, and as it is written. -/
def Settles {α : Type} (mask : List Bool) (write : α → ByteString) (x : α) (bytes : ByteString) : Prop :=
  bytes.length = mask.length ∧ write x = overlay mask bytes

theorem u8_eq_ok {l rest : ByteString} {v : U8} (h : u8.run l = .ok v rest) : l = toBytes 1 v ++ rest :=
  word_eq_ok rfl h

theorem u32_eq_ok {l rest : ByteString} {v : U32} (h : u32.run l = .ok v rest) :
    l = toBytes 4 v ++ rest := word_eq_ok rfl h

theorem u64_eq_ok {l rest : ByteString} {v : U64} (h : u64.run l = .ok v rest) :
    l = toBytes 8 v ++ rest := word_eq_ok rfl h

theorem toU8_of_ofU8? {b : U8} {p : ProvenanceSource} (h : ProvenanceSource.ofU8? b = some p) :
    p.toU8 = b := by
  obtain ⟨bound, rfl⟩ := List.getElem?_eq_some_iff.mp h
  have few : b.toNat < 6 := bound
  rw [← BitVec.toNat_inj]
  generalize b.toNat = n at *
  interval_cases n <;> rfl

theorem provenance_eq_ok {l rest : ByteString} {p : ProvenanceSource}
    (h : provenance.run l = .ok p rest) : l = toBytes 1 p.toU8 ++ rest := by
  obtain ⟨b, u, read, made⟩ := run_bind_eq_ok.mp h
  cases hp : ProvenanceSource.ofU8? b with
  | none =>
    rw [hp] at made
    cases made
  | some q =>
    rw [hp] at made
    obtain ⟨rfl, rfl⟩ := run_pure_eq_ok.mp made
    rw [u8_eq_ok read, toU8_of_ofU8? hp]

theorem decodes_worker : Decodes readWorker (Settles workerMask writeWorker) := by
  intro l x rest read
  simp only [readWorker, run_bind_eq_ok, run_throwIf_eq_ok, run_pure_eq_ok] at read
  obtain ⟨id, _, h1, boot, _, h2, incarnation, _, h3, alive, _, h4, node, _, h5, placement, _, h6,
    binding, _, h7, policy, _, h8, live, _, h9, _, _, ⟨-, rfl⟩, rfl, rfl⟩ := read
  rw [u64_eq_ok h1, u64_eq_ok h2, u64_eq_ok h3, u8_eq_ok h4, u64_eq_ok h5, u64_eq_ok h6,
    u64_eq_ok h7, u64_eq_ok h8, u64_eq_ok h9]
  refine ⟨[toBytes 8 id, toBytes 8 boot, toBytes 8 incarnation, toBytes 1 alive, toBytes 8 node,
    toBytes 8 placement, toBytes 8 binding, toBytes 8 policy, toBytes 8 live].flatten, ⟨rfl, rfl⟩, ?_⟩
  simp only [List.flatten_cons, List.flatten_nil, List.append_assoc, List.nil_append]

theorem decodes_res : Decodes readRes (Settles resMask writeRes) := by
  intro l x rest read
  simp only [readRes, run_bind_eq_ok, run_throwIf_eq_ok, run_pure_eq_ok] at read
  obtain ⟨id, _, h1, node, _, h2, bytes, _, h3, slots, _, h4, accelerator, _, h5, capacity, _, h6,
    generation, _, h7, active, _, h8, _, _, ⟨-, rfl⟩, rfl, rfl⟩ := read
  rw [u64_eq_ok h1, u64_eq_ok h2, u64_eq_ok h3, u32_eq_ok h4, u64_eq_ok h5, u8_eq_ok h6,
    u64_eq_ok h7, u8_eq_ok h8]
  refine ⟨[toBytes 8 id, toBytes 8 node, toBytes 8 bytes, toBytes 4 slots, toBytes 8 accelerator,
    toBytes 1 capacity, toBytes 8 generation, toBytes 1 active].flatten, ⟨rfl, rfl⟩, ?_⟩
  simp only [List.flatten_cons, List.flatten_nil, List.append_assoc, List.nil_append]

theorem decodes_place : Decodes readPlace (Settles placeMask writePlace) := by
  intro l x rest read
  simp only [readPlace, run_bind_eq_ok, run_throwIf_eq_ok, run_pure_eq_ok] at read
  obtain ⟨id, _, h1, generation, _, h2, worker, _, h3, boot, _, h4, node, _, h5, source, _, h6,
    committed, _, h7, _, _, ⟨-, rfl⟩, rfl, rfl⟩ := read
  rw [u64_eq_ok h1, u64_eq_ok h2, u64_eq_ok h3, u64_eq_ok h4, u64_eq_ok h5, provenance_eq_ok h6,
    u64_eq_ok h7]
  refine ⟨[toBytes 8 id, toBytes 8 generation, toBytes 8 worker, toBytes 8 boot, toBytes 8 node,
    toBytes 1 source.toU8, toBytes 8 committed].flatten, ⟨rfl, rfl⟩, ?_⟩
  simp only [List.flatten_cons, List.flatten_nil, List.append_assoc, List.nil_append]

theorem decodes_obs : Decodes readObs (Settles obsMask writeObs) := by
  intro l x rest read
  simp only [readObs, run_bind_eq_ok, run_throwIf_eq_ok, run_pure_eq_ok] at read
  obtain ⟨id, _, h1, generation, _, h2, worker, _, h3, boot, _, h4, node, _, h5, source, _, h6,
    stale, _, h7, _, _, ⟨-, rfl⟩, rfl, rfl⟩ := read
  rw [u64_eq_ok h1, u64_eq_ok h2, u64_eq_ok h3, u64_eq_ok h4, u64_eq_ok h5, provenance_eq_ok h6,
    u8_eq_ok h7]
  refine ⟨[toBytes 8 id, toBytes 8 generation, toBytes 8 worker, toBytes 8 boot, toBytes 8 node,
    toBytes 1 source.toU8, toBytes 1 stale].flatten, ⟨rfl, rfl⟩, ?_⟩
  simp only [List.flatten_cons, List.flatten_nil, List.append_assoc, List.nil_append]

theorem settles_flatten {α : Type} {mask : List Bool} {write : α → ByteString} {xs : List α}
    {parts : List ByteString} (each : List.Forall₂ (Settles mask write) xs parts) :
    Settles (List.replicate xs.length mask).flatten (List.flatMap write) xs parts.flatten := by
  induction each with
  | nil => exact ⟨rfl, rfl⟩
  | @cons x bytes xs parts first others ih =>
    obtain ⟨length, settles⟩ := first
    obtain ⟨lengths, rest⟩ := ih
    constructor
    · simp only [List.flatten_cons, List.length_append, List.length_cons, List.replicate_succ, length,
        lengths]
    · rw [List.flatMap_cons, List.length_cons, List.replicate_succ, List.flatten_cons,
        List.flatten_cons, overlay_append length.symm, settles, rest]

/-- A list of records as it was accepted: its count, and its records one by one. -/
theorem decodes_many {α : Type} (kind : RecordKind) {read : Reader Exn α} {mask : List Bool}
    {write : α → ByteString} (h : Decodes read (Settles mask write)) :
    Decodes (readMany kind read) fun xs bytes =>
      xs.length ≤ kMaxPersistedRecords ∧
        ∃ body, Settles (List.replicate xs.length mask).flatten (List.flatMap write) xs body ∧
          bytes = toBytes 4 (BitVec.ofNat 32 xs.length) ++ body := by
  intro l xs rest read
  simp only [readMany, run_bind_eq_ok, run_throwIf_eq_ok] at read
  obtain ⟨count, _, hc, _, _, ⟨few, rfl⟩, read⟩ := read
  rw [decide_eq_false_iff_not, Nat.not_lt] at few
  obtain ⟨_, ⟨length, parts, each, rfl⟩, rfl⟩ := h.times _ _ _ _ read
  rw [u32_eq_ok hc]
  refine ⟨_, ⟨by rw [length]; exact few, _, settles_flatten each, rfl⟩, ?_⟩
  rw [length, BitVec.ofNat_toNat, BitVec.setWidth_eq, List.append_assoc]

/-- Which bytes of a payload with these many records are flags. -/
def layout (workers reservations placements observations : ℕ) : List Bool :=
  List.replicate 28 false ++ (List.replicate workers workerMask).flatten ++
    List.replicate 4 false ++ (List.replicate reservations resMask).flatten ++
    List.replicate 4 false ++ (List.replicate placements placeMask).flatten ++
    List.replicate 4 false ++ (List.replicate observations obsMask).flatten

/-- The layout that the counts in a payload give it. -/
def flagMask (x : ByteString) : List Bool :=
  let workers := (field 32 4 24 x).toNat
  let reservations := (field 32 4 (28 + 65 * workers) x).toNat
  let placements := (field 32 4 (32 + 65 * workers + 46 * reservations) x).toNat
  let observations :=
    (field 32 4 (36 + 65 * workers + 46 * reservations + 49 * placements) x).toNat
  layout workers reservations placements observations

/-- Every flag byte is a zero or a one. -/
def CanonicalFlags (x : ByteString) : Prop :=
  ∀ p ∈ (flagMask x).zip x, p.1 = true → p.2 = 0 ∨ p.2 = 1

instance (x : ByteString) : Decidable (CanonicalFlags x) :=
  inferInstanceAs (Decidable (∀ p ∈ (flagMask x).zip x, p.1 = true → p.2 = 0 ∨ p.2 = 1))

theorem count_at {k n : ℕ} (before after : ByteString) (small : n ≤ kMaxPersistedRecords)
    (h : before.length = k) :
    (field 32 4 k (before ++ (toBytes 4 (BitVec.ofNat 32 n) ++ after))).toNat = n := by
  have slice : ((before ++ (toBytes 4 (BitVec.ofNat 32 n) ++ after)).drop k).take 4 =
      toBytes 4 (BitVec.ofNat 32 n) := by
    rw [List.drop_left' h, List.take_left' (length_toBytes 4 _)]
  rw [kMaxPersistedRecords] at small
  rw [field_eq (v := BitVec.ofNat 32 n) (by decide) slice, BitVec.toNat_ofNat,
    Nat.mod_eq_of_lt (by omega)]

theorem length_replicate_flatten (n : ℕ) (mask : List Bool) :
    (List.replicate n mask).flatten.length = mask.length * n := by
  rw [List.length_flatten, List.map_replicate, List.sum_replicate, smul_eq_mul, Nat.mul_comm]

/-- The payload cut at its counts. -/
def cutPayload (s : PersistedState) (head workers reservations placements observations : ByteString) :
    ByteString :=
  head ++ (toBytes 4 (BitVec.ofNat 32 s.workers.length) ++ (workers ++
    (toBytes 4 (BitVec.ofNat 32 s.reservations.length) ++ (reservations ++
    (toBytes 4 (BitVec.ofNat 32 s.placements.length) ++ (placements ++
    (toBytes 4 (BitVec.ofNat 32 s.observations.length) ++ observations)))))))

/-- What is accepted is the counts and, for each, settled records. -/
theorem readState_eq_ok {x : ByteString} {s : PersistedState} (read : readState.run x = .ok s []) :
    Counted s ∧ ∃ head workers reservations placements observations : ByteString,
      head = toBytes 8 s.coordinatorEpoch ++ toBytes 8 s.hostGeneration ++
        toBytes 8 s.policyGeneration ∧
      Settles (List.replicate s.workers.length workerMask).flatten (List.flatMap writeWorker)
        s.workers workers ∧
      Settles (List.replicate s.reservations.length resMask).flatten (List.flatMap writeRes)
        s.reservations reservations ∧
      Settles (List.replicate s.placements.length placeMask).flatten (List.flatMap writePlace)
        s.placements placements ∧
      Settles (List.replicate s.observations.length obsMask).flatten (List.flatMap writeObs)
        s.observations observations ∧
      x = cutPayload s head workers reservations placements observations := by
  simp only [readState, run_bind_eq_ok, run_pure_eq_ok] at read
  obtain ⟨epoch, _, h1, host, _, h2, policy, _, h3, ws, _, h4, rs, _, h5, ps, _, h6, os, _, h7, rfl,
    rfl⟩ := read
  obtain ⟨_, ⟨few4, workers, settles4, rfl⟩, rfl⟩ := decodes_many .worker decodes_worker _ _ _ h4
  obtain ⟨_, ⟨few5, reservations, settles5, rfl⟩, rfl⟩ :=
    decodes_many .reservation decodes_res _ _ _ h5
  obtain ⟨_, ⟨few6, placements, settles6, rfl⟩, rfl⟩ := decodes_many .placement decodes_place _ _ _ h6
  obtain ⟨_, ⟨few7, observations, settles7, rfl⟩, rfl⟩ :=
    decodes_many .observation decodes_obs _ _ _ h7
  refine ⟨⟨few4, few5, few6, few7⟩, _, workers, reservations, placements, observations, rfl, settles4,
    settles5, settles6, settles7, ?_⟩
  rw [u64_eq_ok h1, u64_eq_ok h2, u64_eq_ok h3]
  simp only [cutPayload, List.append_assoc, List.append_nil]

section Accepted
variable {s : PersistedState} {head workers reservations placements observations : ByteString}

/-- The counts are found where the records before them end. -/
theorem counts_cut (counted : Counted s) (observations : ByteString) (lh : head.length = 24)
    (lw : workers.length = 65 * s.workers.length)
    (lr : reservations.length = 46 * s.reservations.length)
    (lp : placements.length = 49 * s.placements.length) :
    let x := cutPayload s head workers reservations placements observations
    (field 32 4 24 x).toNat = s.workers.length ∧
      (field 32 4 (28 + 65 * s.workers.length) x).toNat = s.reservations.length ∧
      (field 32 4 (32 + 65 * s.workers.length + 46 * s.reservations.length) x).toNat =
        s.placements.length ∧
      (field 32 4 (36 + 65 * s.workers.length + 46 * s.reservations.length +
        49 * s.placements.length) x).toNat = s.observations.length := by
  have cw := count_at head (workers ++
    (toBytes 4 (BitVec.ofNat 32 s.reservations.length) ++ (reservations ++
    (toBytes 4 (BitVec.ofNat 32 s.placements.length) ++ (placements ++
    (toBytes 4 (BitVec.ofNat 32 s.observations.length) ++ observations))))))
    counted.workers_le lh
  have cr := count_at (k := 28 + 65 * s.workers.length)
    (head ++ (toBytes 4 (BitVec.ofNat 32 s.workers.length) ++ workers)) (reservations ++
    (toBytes 4 (BitVec.ofNat 32 s.placements.length) ++ (placements ++
    (toBytes 4 (BitVec.ofNat 32 s.observations.length) ++ observations))))
    counted.reservations_le (by simp only [List.length_append, length_toBytes]; omega)
  have cp := count_at (k := 32 + 65 * s.workers.length + 46 * s.reservations.length)
    (head ++ (toBytes 4 (BitVec.ofNat 32 s.workers.length) ++ (workers ++
      (toBytes 4 (BitVec.ofNat 32 s.reservations.length) ++ reservations)))) (placements ++
    (toBytes 4 (BitVec.ofNat 32 s.observations.length) ++ observations))
    counted.placements_le (by simp only [List.length_append, length_toBytes]; omega)
  have co := count_at
    (k := 36 + 65 * s.workers.length + 46 * s.reservations.length + 49 * s.placements.length)
    (head ++ (toBytes 4 (BitVec.ofNat 32 s.workers.length) ++ (workers ++
      (toBytes 4 (BitVec.ofNat 32 s.reservations.length) ++ (reservations ++
      (toBytes 4 (BitVec.ofNat 32 s.placements.length) ++ placements)))))) observations
    counted.observations_le (by simp only [List.length_append, length_toBytes]; omega)
  simp only [List.append_assoc] at cr cp co
  exact ⟨cw, cr, cp, co⟩

theorem flagMask_cut (counted : Counted s) (lh : head.length = 24)
    (lw : workers.length = 65 * s.workers.length)
    (lr : reservations.length = 46 * s.reservations.length)
    (lp : placements.length = 49 * s.placements.length) :
    flagMask (cutPayload s head workers reservations placements observations) =
      layout s.workers.length s.reservations.length s.placements.length s.observations.length := by
  obtain ⟨cw, cr, cp, co⟩ := counts_cut counted observations lh lw lr lp
  simp only [flagMask, cw, cr, cp, co]

end Accepted

/-- Writing an accepted state settles the flags of its payload and nothing else. -/
theorem payloadOf_eq_overlay {x : ByteString} {s : PersistedState}
    (read : readState.run x = .ok s []) :
    Counted s ∧ (flagMask x).length = x.length ∧ payloadOf s = overlay (flagMask x) x := by
  obtain ⟨counted, head, workers, reservations, placements, observations, hh, hw, hr, hp, ho, hx⟩ :=
    readState_eq_ok read
  have lh : head.length = 24 := by rw [hh]; rfl
  have lw := hw.1.trans (length_replicate_flatten _ _)
  have lr := hr.1.trans (length_replicate_flatten _ _)
  have lp := hp.1.trans (length_replicate_flatten _ _)
  have mask : flagMask x = layout s.workers.length s.reservations.length s.placements.length
      s.observations.length := by
    rw [hx]
    exact flagMask_cut counted lh lw lr lp
  have first : (head ++ toBytes 4 (BitVec.ofNat 32 s.workers.length)).length = 28 := by
    rw [List.length_append, lh, length_toBytes]
  rw [mask, hx, layout, cutPayload]
  refine ⟨counted, ?_, ?_⟩
  · simp only [List.length_append, List.length_replicate, length_toBytes, lh, hw.1, hr.1, hp.1, ho.1]
    omega
  · simp only [List.append_assoc]
    rw [← List.append_assoc head, overlay_append (by rw [first, List.length_replicate]),
      overlay_replicate 28 first, overlay_append hw.1.symm, ← hw.2,
      overlay_append (by rw [length_toBytes, List.length_replicate]),
      overlay_replicate 4 (length_toBytes 4 _), overlay_append hr.1.symm, ← hr.2,
      overlay_append (by rw [length_toBytes, List.length_replicate]),
      overlay_replicate 4 (length_toBytes 4 _), overlay_append hp.1.symm, ← hp.2,
      overlay_append (by rw [length_toBytes, List.length_replicate]),
      overlay_replicate 4 (length_toBytes 4 _), ← ho.2, hh]
    simp only [payloadOf, List.flatten_cons, List.flatten_nil, List.append_assoc, List.append_nil]

/-- An accepted payload is what its state is written as exactly when its flags are zeros
and ones. -/
theorem canonical_iff (x : ByteString) (s : PersistedState) (accepted : deserialize x = .ok s) :
    serialize s = .ok x ↔ CanonicalFlags x := by
  obtain ⟨-, read⟩ := deserialize_eq_ok accepted
  obtain ⟨counted, length, settled⟩ := payloadOf_eq_overlay read
  rw [serialize_eq counted, Except.ok.injEq, settled]
  exact overlay_eq_iff length

/-- The payload of one worker, with the given byte for its flag. -/
def oneWorker (alive : U8) : ByteString :=
  List.replicate 24 0 ++ toBytes 4 (1 : U32) ++ toBytes 8 (1 : U64) ++ List.replicate 16 0 ++
    [alive] ++ List.replicate 40 0 ++ List.replicate 12 0

theorem canonical_iff_live_worker :
    serialize { workers := [{ id := ⟨1⟩, alive := true }] } = .ok (oneWorker 1) ↔
      CanonicalFlags (oneWorker 1) :=
  canonical_iff _ _ rfl

/-- A flag byte of two is read as a set flag, and written as a one. -/
theorem flag_byte_two_accepted :
    ¬ ∀ (x : ByteString) (s : PersistedState), deserialize x = .ok s → serialize s = .ok x := by
  intro canonical
  have written := canonical (oneWorker 2) { workers := [{ id := ⟨1⟩, alive := true }] } rfl
  revert written
  decide

end Flags

end NumaFabric.Persistence
