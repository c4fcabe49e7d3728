import NumaFabric.PersistenceCanonical
import NumaFabric.RuntimeRecovery

/-! Saves that fail or are cut off. A save prepares its container beside the file and
replaces the file in one rename, so a file always is what the last save that came to its
rename has put there. -/
namespace NumaFabric.PersistenceCrash
open FaultState ByteCodec Persistence

/-- The file that `save` writes before it renames. -/
def temporary (path : ByteString) : ByteString := path ++ ascii ".tmp"

/-- One call of `save`, with the system call at which it ends early if any. A process that
is killed in it leaves the disk as one of these failures does. -/
structure Save where
  state : PersistedState
  path : ByteString
  fault : Option SaveFault := none
  deriving DecidableEq

instance (s : PersistedState) : Decidable (Counted s) :=
  decidable_of_iff (s.workers.length ≤ kMaxPersistedRecords ∧
      s.reservations.length ≤ kMaxPersistedRecords ∧ s.placements.length ≤ kMaxPersistedRecords ∧
      s.observations.length ≤ kMaxPersistedRecords)
    ⟨fun ⟨w, r, p, o⟩ => ⟨w, r, p, o⟩, fun h => ⟨h.1, h.2, h.3, h.4⟩⟩

/-- The disk after a call, whether it returned or not. -/
def Save.step (disk : Disk) (x : Save) : Disk := stateAfter (save x.fault x.state x.path) disk

/-- The calls that replace the file. -/
def Save.Renames (x : Save) : Prop := x.fault = none ∧ Counted x.state

instance (x : Save) : Decidable x.Renames := inferInstanceAs (Decidable (_ ∧ _))

/-- A call that writes more records than the format allows ends before it opens a file. -/
theorem Save.step_uncounted (disk : Disk) {x : Save} (h : ¬Counted x.state) : x.step disk = disk := by
  cases hs : serialize x.state with
  | ok payload => exact absurd (serialize_eq_ok.mp hs).1 h
  | error e =>
    rw [Save.step, stateAfter, save, hs]
    rfl

/-- What a call leaves at a file that is not its temporary one. -/
theorem Save.step_apply (disk : Disk) (x : Save) {path : ByteString}
    (apart : path ≠ temporary x.path) :
    x.step disk path =
      if x.path = path ∧ x.Renames then some (container (payloadOf x.state)) else disk path := by
  obtain ⟨state, target, fault⟩ := x
  by_cases counted : Counted state
  · have written := serialize_eq counted
    have own := tmp_ne target
    simp only [temporary] at apart own
    cases fault with
    | none =>
      let prepared := disk.put (temporary target) (some (container (payloadOf state)))
      have renamed : Save.step disk ⟨state, target, none⟩ =
          (prepared.put target (prepared (temporary target))).put (temporary target) none := by
        rw [Save.step, stateAfter, save, written]
        rfl
      rw [renamed]
      by_cases same : target = path
      · subst same
        simp [prepared, Disk.put, temporary, own, Save.Renames, counted]
      · have away : path ≠ target := fun h => same h.symm
        simp [prepared, Disk.put, temporary, apart, same, away]
    | some failed =>
      rw [if_neg (by simp [Save.Renames]), Save.step, stateAfter, save, written]
      cases failed with
      | openTemp => rfl
      | write written => exact if_neg apart
      | rename => exact if_neg apart
  · rw [Save.step_uncounted disk counted, if_neg fun h => counted h.2.2]

/-- The state that was last renamed onto the file. -/
def lastRename (path : ByteString) : List Save → Option PersistedState
  | [] => none
  | x :: xs => (lastRename path xs).or (if x.path = path ∧ x.Renames then some x.state else none)

/-- After any calls a file holds the container of the state last renamed onto it. -/
theorem foldl_step_apply {saves : List Save} {path : ByteString}
    (apart : ∀ x ∈ saves, path ≠ temporary x.path) (disk : Disk) :
    saves.foldl Save.step disk path =
      ((lastRename path saves).map fun s => container (payloadOf s)).or (disk path) := by
  induction saves generalizing disk with
  | nil => simp [lastRename]
  | cons x xs ih =>
    rw [List.foldl_cons, ih (fun y hy => apart y (by simp [hy])), x.step_apply disk (apart x (by simp)),
      lastRename]
    cases lastRename path xs with
    | some s => rfl
    | none => split_ifs <;> simp [*]

/-- How the contents of a file are read. -/
def opened : Option ByteString → Except Exn PersistedState
  | none => .error (.persistence .cannotOpen)
  | some bytes => openContainer bytes >>= deserialize

theorem loaded_eq (disk : Disk) (path : ByteString) :
    Runtime.loaded disk path = opened (disk path) := by
  cases content : disk path with
  | none =>
    have refused : (load path).run disk = .error (.persistence .cannotOpen) disk := by
      rw [load, run_bind_of_ok (EStateM.run_get disk), content]
      rfl
    rw [Runtime.loaded, refused, opened]
  | some bytes =>
    cases hp : openContainer bytes with
    | error e =>
      rw [Runtime.loaded, load_refused content hp, opened, hp]
      rfl
    | ok payload =>
      cases hd : deserialize payload with
      | ok state =>
        rw [Runtime.loaded, load_run content hp hd, opened, hp]
        exact hd.symm
      | error e =>
        have refused : (load path).run disk = .error e disk := by
          rw [load, run_bind_of_ok (EStateM.run_get disk), content]
          dsimp only
          rw [hp]
          change (MonadExcept.ofExcept (deserialize payload) : Exec Disk PersistedState).run disk = _
          rw [hd]
          rfl
        rw [Runtime.loaded, refused, opened, hp]
        exact hd.symm

/-- A file that holds the container of a storable state is read as that state. -/
theorem loaded_of_container {disk : Disk} {path : ByteString} {s : PersistedState} (h : Storable s)
    (content : disk path = some (container (payloadOf s))) : Runtime.loaded disk path = .ok s := by
  rw [Runtime.loaded, load_run content (openContainer_container (length_payloadOf_le h.counted))
    (deserialize_payloadOf h)]

section Settling
variable {ε α γ : Type}

/-- A reader that accepts the bytes at all gets this value from them. -/
def Settles (r : Reader ε α) (bytes : ByteString) (a : α) : Prop :=
  ∀ rest c more, r.run (bytes ++ rest) = .ok c more → c = a ∧ more = rest

theorem settles_of_reads {r : Reader ε α} {bytes : ByteString} {a : α} (h : Reads r bytes a) :
    Settles r bytes a := by
  intro rest c more read
  rw [h rest] at read
  cases read
  exact ⟨rfl, rfl⟩

theorem Settles.bind {r : Reader ε α} {f : α → Reader ε γ} {xs ys : ByteString} {a : α} {c : γ}
    (hr : Settles r xs a) (hf : Settles (f a) ys c) : Settles (r >>= f) (xs ++ ys) c := by
  intro rest d more read
  rw [List.append_assoc] at read
  cases first : r.run (xs ++ (ys ++ rest)) with
  | error e unread =>
    rw [run_bind_of_error first] at read
    cases read
  | ok a' unread =>
    obtain ⟨rfl, rfl⟩ := hr _ _ _ first
    rw [run_bind_of_ok first] at read
    exact hf rest d more read

theorem Settles.pure_bind {r : Reader ε α} {f : α → γ} {xs : ByteString} {a : α}
    (hr : Settles r xs a) : Settles (r >>= fun x => pure (f x)) xs (f a) := by
  have h := hr.bind (f := fun x => pure (f x)) (settles_of_reads (reads_pure (f a)))
  rwa [List.append_nil] at h

theorem settles_checked {failed : Bool} {e : Exn} {x y : α} (same : x = y) :
    Settles (do throwIf failed e; return x : Reader Exn α) [] y := by
  cases failed with
  | true =>
    intro rest c more read
    cases read
  | false => exact settles_of_reads (reads_checked rfl same)

theorem settles_times {r : Reader ε α} {write : α → ByteString} (h : ∀ a, Settles r (write a) a)
    (as : List α) : Settles (times as.length r) (as.flatMap write) as := by
  induction as with
  | nil => exact settles_of_reads (reads_pure [])
  | cons a as ih => exact (h a).bind ih.pure_bind

end Settling

section Records

theorem settles_worker (x : PersistedWorker) : Settles readWorker (writeWorker x) x := by
  refine (settles_of_reads (reads_u64 x.id.value)).bind ?_
  refine (settles_of_reads (reads_u64 x.boot.value)).bind ?_
  refine (settles_of_reads (reads_u64 x.incarnation)).bind ?_
  refine (settles_of_reads (reads_u8 (flag x.alive))).bind ?_
  refine (settles_of_reads (reads_u64 x.node.value)).bind ?_
  refine (settles_of_reads (reads_u64 x.placementGeneration.value)).bind ?_
  refine (settles_of_reads (reads_u64 x.bindingGeneration.value)).bind ?_
  refine (settles_of_reads (reads_u64 x.policyGeneration.value)).bind ?_
  refine (settles_of_reads (reads_u64 x.liveGeneration)).bind ?_
  exact settles_checked (by rw [flag_ne_zero])

theorem settles_res (x : PersistedReservation) : Settles readRes (writeRes x) x := by
  refine (settles_of_reads (reads_u64 x.id.value)).bind ?_
  refine (settles_of_reads (reads_u64 x.node.value)).bind ?_
  refine (settles_of_reads (reads_u64 x.bytes)).bind ?_
  refine (settles_of_reads (reads_u32 x.cpuSlots)).bind ?_
  refine (settles_of_reads (reads_u64 x.accelerator.value)).bind ?_
  refine (settles_of_reads (reads_u8 (flag x.acceleratorCapacity))).bind ?_
  refine (settles_of_reads (reads_u64 x.generation.value)).bind ?_
  refine (settles_of_reads (reads_u8 (flag x.active))).bind ?_
  exact settles_checked (by rw [flag_ne_zero, flag_ne_zero])

theorem settles_place (x : PersistedPlacement) : Settles readPlace (writePlace x) x := by
  refine (settles_of_reads (reads_u64 x.id.value)).bind ?_
  refine (settles_of_reads (reads_u64 x.generation.value)).bind ?_
  refine (settles_of_reads (reads_u64 x.worker.value)).bind ?_
  refine (settles_of_reads (reads_u64 x.workerBoot.value)).bind ?_
  refine (settles_of_reads (reads_u64 x.node.value)).bind ?_
  refine (settles_of_reads (reads_provenance x.source)).bind ?_
  refine (settles_of_reads (reads_u64 x.committedGeneration)).bind ?_
  exact settles_checked rfl

theorem settles_obs (x : PersistedObservation) : Settles readObs (writeObs x) x := by
  refine (settles_of_reads (reads_u64 x.id.value)).bind ?_
  refine (settles_of_reads (reads_u64 x.generation.value)).bind ?_
  refine (settles_of_reads (reads_u64 x.worker.value)).bind ?_
  refine (settles_of_reads (reads_u64 x.boot.value)).bind ?_
  refine (settles_of_reads (reads_u64 x.node.value)).bind ?_
  refine (settles_of_reads (reads_provenance x.source)).bind ?_
  refine (settles_of_reads (reads_u8 (flag x.stale))).bind ?_
  exact settles_checked (by rw [flag_ne_zero])

/-- A list within the limit is counted without a wrap. -/
theorem settles_many {α : Type} (kind : RecordKind) {read : Reader Exn α} {write : α → ByteString}
    (h : ∀ a, Settles read (write a) a) {xs : List α} (le : xs.length ≤ kMaxPersistedRecords) :
    Settles (readMany kind read) (toBytes 4 (BitVec.ofNat 32 xs.length) ++ xs.flatMap write) xs := by
  have limit : kMaxPersistedRecords = 1048576 := rfl
  have count : (BitVec.ofNat 32 xs.length).toNat = xs.length := by
    rw [BitVec.toNat_ofNat, Nat.mod_eq_of_lt (by omega)]
  refine (settles_of_reads (reads_u32 _)).bind ?_
  rw [count, decide_eq_false (by omega)]
  exact settles_times h xs

/-- A payload denotes no other state than the one it was written from. -/
theorem settles_state {s : PersistedState} (h : Counted s) : Settles readState (payloadOf s) s := by
  refine (settles_of_reads (reads_u64 s.coordinatorEpoch)).bind ?_
  refine (settles_of_reads (reads_u64 s.hostGeneration)).bind ?_
  refine (settles_of_reads (reads_u64 s.policyGeneration)).bind ?_
  refine (settles_many .worker settles_worker h.workers_le).bind ?_
  refine (settles_many .reservation settles_res h.reservations_le).bind ?_
  refine (settles_many .placement settles_place h.placements_le).bind ?_
  refine (settles_many .observation settles_obs h.observations_le).bind ?_
  exact settles_of_reads (reads_pure s)

theorem deserialize_settles {s t : PersistedState} (h : Counted s)
    (read : deserialize (payloadOf s) = .ok t) : t = s := by
  have accepted := (deserialize_eq_ok read).2
  rw [← List.append_nil (payloadOf s)] at accepted
  exact (settles_state h _ _ _ accepted).1

end Records

/-- A file that a save has replaced is read as the state of that save or not at all. -/
theorem loaded_settles {disk : Disk} {path : ByteString} {s t : PersistedState} (h : Counted s)
    (content : disk path = some (container (payloadOf s)))
    (read : Runtime.loaded disk path = .ok t) : t = s := by
  rw [loaded_eq, content, opened, openContainer_container (length_payloadOf_le h)] at read
  exact deserialize_settles h read

theorem counted_of_lastRename {path : ByteString} {saves : List Save} {s : PersistedState}
    (h : lastRename path saves = some s) : Counted s := by
  induction saves with
  | nil => cases h
  | cons x xs ih =>
    rw [lastRename, Option.or_eq_some_iff] at h
    rcases h with later | ⟨-, here⟩
    · exact ih later
    · split_ifs at here with renamed
      cases here
      exact renamed.2.2

/-- Whatever saves are made, to whatever files, and wherever each of them fails or is cut
off: a file that is no temporary file of theirs is read as the last state that was renamed
onto it, and as before when there was none. It is never read as anything else. -/
theorem saves_atomic (disk : Disk) {saves : List Save} {path : ByteString}
    (apart : ∀ x ∈ saves, path ≠ temporary x.path) :
    (∀ s, lastRename path saves = some s →
      (Storable s → Runtime.loaded (saves.foldl Save.step disk) path = .ok s) ∧
        ∀ t, Runtime.loaded (saves.foldl Save.step disk) path = .ok t → t = s) ∧
    (lastRename path saves = none →
      Runtime.loaded (saves.foldl Save.step disk) path = Runtime.loaded disk path) := by
  have content := foldl_step_apply apart disk
  constructor
  · intro s last
    have written : saves.foldl Save.step disk path = some (container (payloadOf s)) := by
      simp [content, last]
    exact ⟨fun storable => loaded_of_container storable written,
      fun t read => loaded_settles (counted_of_lastRename last) written read⟩
  · intro never
    simp [loaded_eq, content, never]

/-- A save that returned, one cut off while it writes and one whose rename fails. -/
theorem saves_atomic_cut_off :
    let kept : PersistedState := { workers := [{ id := ⟨1⟩, boot := ⟨7⟩, alive := true }] }
    let path := ascii "state"
    Runtime.loaded ([⟨{}, path, none⟩, ⟨kept, path, none⟩, ⟨{}, path, some (.write [1, 2])⟩,
      ⟨{}, path, some .rename⟩].foldl Save.step fun _ => none) path = .ok kept := by
  intro kept path
  have storable : Storable kept := by constructor <;> decide
  exact ((saves_atomic _ (by decide)).1 kept (by decide)).1 storable

end NumaFabric.PersistenceCrash
