import NumaFabric.PlacementPromise
import NumaFabric.WorkerProgram

/-! The reservations of one worker against those it had at the start. What it has been granted
since it gives back in the same round, unless it is cut off or its work throws. -/
namespace NumaFabric.WorkerBooks
open Std FaultState LedgerCounter ByteCodec Coordinator CoordinatorAuthority ReservationIdentity
  ReservationLedger ReservationTotals ReservationIsolation PlacementPromise WorkerProgram
open ReservationStore hiding step run
open SessionAgreement (Request)

section Store
variable {cap : CapacityFn} {s : ReservationStore} {c : Call}

/-- Accounted, and the number zero belongs to no reservation. -/
structure Numbered (s : ReservationStore) : Prop extends Accounted s where
  unused : s.reservations[(⟨0⟩ : ReservationId)]? = none
  counting : s.watermark.value ≠ u64Max → 0 < s.nextId.toNat

theorem numbered_empty : Numbered {} :=
  ⟨accounted_empty, by simp, fun _ => by decide⟩

/-- The counter goes up with the watermark, so it does not wrap before. -/
theorem counting_advanced {g : ReservationGeneration} (h : Dominated s)
    (next : s.watermark.next = .ok g) (last : g.value ≠ u64Max) : 0 < (s.nextId + 1).toNat := by
  have below := h.next_le (Generation.ne_max_of_next next)
  have raised := Generation.next_ok next
  have room := value_lt_max last
  rw [u64_succ below (by omega)]
  omega

/-- No number of a reservation is zero. -/
theorem nextId_ne_zero (h : Numbered s) (going : s.watermark.value ≠ u64Max) :
    (⟨s.nextId⟩ : ReservationId) ≠ ⟨0⟩ := by
  intro same
  have positive := h.counting going
  have zero : s.nextId = 0 := congrArg Id.value same
  rw [zero] at positive
  exact absurd positive (by decide)

theorem Numbered.afterReserve (h : Numbered s) (cap : CapacityFn) (req : ReserveRequest) :
    (stateAfter (reserve cap req) s).reservations[(⟨0⟩ : ReservationId)]? = none ∧
      ((stateAfter (reserve cap req) s).watermark.value ≠ u64Max →
        0 < (stateAfter (reserve cap req) s).nextId.toNat) := by
  have outcome := reserve_outcome cap req s
  generalize returned : (reserve cap req).run s = res at outcome
  cases outcome with
  | malformed e bad => rw [stateAfter_of_error returned]; exact ⟨h.unused, h.counting⟩
  | exhausted wf last =>
    rw [stateAfter_of_error returned]
    exact ⟨h.unused, fun going => absurd last going⟩
  | overMemory g wf next ex =>
    rw [stateAfter_of_error returned, touchMemory_eq]
    exact ⟨h.unused, counting_advanced h.dominated next⟩
  | overAccelerator g wf next fits ex =>
    rw [stateAfter_of_error returned, touchMemory_eq]
    exact ⟨h.unused, counting_advanced h.dominated next⟩
  | granted g wf next fits below r record_eq =>
    rw [stateAfter_of_ok returned, record_eq]
    refine ⟨?_, counting_advanced h.dominated next⟩
    have other := nextId_ne_zero h (Generation.ne_max_of_next next)
    change (s.reservations.insert ⟨s.nextId⟩ _)[(⟨0⟩ : ReservationId)]? = none
    rw [ExtTreeMap.getElem?_insert, if_neg fun same => other (Std.compare_eq_iff_eq.mp same)]
    exact h.unused

theorem Numbered.afterRelease (h : Numbered s) (id : ReservationId)
    (expected : Option ReservationGeneration) :
    (stateAfter (release id expected) s).reservations[(⟨0⟩ : ReservationId)]? = none ∧
      ((stateAfter (release id expected) s).watermark.value ≠ u64Max →
        0 < (stateAfter (release id expected) s).nextId.toNat) := by
  have outcome := release_outcome id expected s
  generalize returned : (release id expected).run s = res at outcome
  cases outcome with
  | unknown absent => rw [stateAfter_of_error returned]; exact ⟨h.unused, h.counting⟩
  | refused r e found bad => rw [stateAfter_of_error returned]; exact ⟨h.unused, h.counting⟩
  | memory r found good under => rw [stateAfter_of_error returned]; exact ⟨h.unused, h.counting⟩
  | slots r m found good mem under =>
    rw [stateAfter_of_error returned]
    exact ⟨h.unused, h.counting⟩
  | accelerator r m k found good mem slot under =>
    rw [stateAfter_of_error returned]
    exact ⟨h.unused, h.counting⟩
  | released r m k a found good mem slot accel =>
    rw [stateAfter_of_ok returned]
    refine ⟨?_, h.counting⟩
    have other : id ≠ ⟨0⟩ := by
      rintro rfl
      rw [h.unused] at found
      cases found
    change (s.reservations.insert id _)[(⟨0⟩ : ReservationId)]? = none
    rw [ExtTreeMap.getElem?_insert, if_neg fun same => other (Std.compare_eq_iff_eq.mp same)]
    exact h.unused

theorem Numbered.step (h : Numbered s) (exact : Exact cap AllNodes s c) :
    Numbered (ReservationStore.step cap s c) := by
  obtain ⟨dominated, tracks⟩ := step_tracks h.dominated h.tracks exact
  cases c with
  | reserve req =>
    obtain ⟨unused, counting⟩ := h.afterReserve cap req
    exact { dominated, tracks, unused, counting }
  | release id expected =>
    obtain ⟨unused, counting⟩ := h.afterRelease id expected
    exact { dominated, tracks, unused, counting }
  | restore r => exact exact.elim

end Store

section Phases
variable {c : CommandLine} {p : Phase} {q : Request} {reply : Option Frame}

/-- The reservation that the process has been granted in this round, and the boot it gives it back
under. -/
def owing : Phase → Option (WorkerBootId × ReservationId)
  | .working reg _ id | .releasing reg _ id => if id = 0 then none else some (reg.boot, ⟨id⟩)
  | _ => none

@[simp]
theorem owing_rounds (reg : RegisterInfo) (left : ℕ) : owing (Phase.rounds c reg left) = none := by
  cases left with
  | zero => rfl
  | succ left => rfl

@[simp]
theorem owing_ended (e : Ending) : owing (.ended e) = none := rfl

theorem owing_releasing {reg : RegisterInfo} {left : ℕ} {id : U64} (counted : id ≠ 0) :
    owing (.releasing reg left id) = some (reg.boot, ⟨id⟩) := if_neg counted

theorem owing_reading {α : Type} {r : Reader Exn α} {f : Frame} {next : α → Phase}
    (h : ∀ a, owing (next a) = none) : owing (Phase.reading r f next) = none := by
  rw [Phase.reading]
  cases r.run f.payload with
  | ok a rest => exact h a
  | error e rest => rfl

/-- Only the reply to a reserve request makes a process owe anything. -/
theorem owing_receive (asked : p.request c = some q)
    (other : ∀ reg left node, p ≠ .reserving reg left node) : owing (p.receive c reply) = none := by
  have registered : ∀ reg, owing (Phase.registered reg) = none := by
    intro reg
    rw [Phase.registered]
    split_ifs <;> rfl
  cases p with
  | registering =>
    cases reply with
    | none => exact registered {}
    | some f => exact owing_reading registered
  | discovering reg =>
    cases reply with
    | none => exact owing_rounds reg _
    | some f => exact owing_reading fun _ => owing_rounds reg _
  | placing reg left =>
    rw [Phase.receive]
    cases WorkerSession.accepted reply with
    | none => rfl
    | some f => exact owing_reading fun _ => rfl
  | reserving reg left node => exact absurd rfl (other reg left node)
  | working reg left id => cases asked
  | releasing reg left id => exact owing_rounds reg left
  | ended e => cases asked

/-- A reserve request that is not accepted leaves nothing owed. -/
theorem owing_refused (asked : p.request c = some q) (silent : WorkerSession.accepted reply = none) :
    owing (p.receive c reply) = none := by
  by_cases reserving : ∃ reg left node, p = .reserving reg left node
  · obtain ⟨reg, left, node, rfl⟩ := reserving
    rw [Phase.receive, silent]
    rfl
  · exact owing_receive asked fun reg left node same => reserving ⟨reg, left, node, same⟩

theorem receive_granted {reg : RegisterInfo} {left : ℕ} {node : U64} (x : Reservation) :
    Phase.receive c (some { type := MsgType.reserveReply.toU16
                            payload := WireWriter.u64 x.id.value ++ WireWriter.u64 x.generation.value })
      (.reserving reg left node) = .working reg left x.id.value := by
  have read := SessionAgreement.run_of_reads
    (SessionAgreement.reads_pair x.id.value x.generation.value)
  rw [Phase.receive, SessionAgreement.accepted_some (SessionAgreement.toU16_ne_error (by decide))]
  dsimp only
  rw [Phase.reading, read]

end Phases

section Books

/-- None of the reservations of a worker at the start is gone, and one that has been added is about
to be given back, or its worker could not or would not give it back. -/
structure Books (c : CommandLine) (base store : ReservationStore) (p : Phase) (excused : Bool)
    (registry : WorkerRegistry) : Prop where
  old : ∀ (k : ReservationId) (x : Reservation), x.worker = c.workerId →
    base.reservations[k]? = some x → store.reservations[k]? = some x
  new : ∀ (k : ReservationId) (x : Reservation), x.worker = c.workerId → x.active = true →
    store.reservations[k]? = some x → base.reservations[k]? = some x ∨
      (∃ boot, owing p = some (boot, k)) ∨ excused = true ∨ c.releaseAtEnd = false
  owed : ∀ boot k, owing p = some (boot, k) →
    ∃ x, store.reservations[k]? = some x ∧ x.active = true ∧ x.worker = c.workerId ∧
      (∀ y, y.worker = c.workerId → base.reservations[k]? ≠ some y) ∧
      (excused = false → authority registry c.workerId = some (boot, true))

variable {c : CommandLine} {base store store' : ReservationStore} {p p' : Phase} {excused : Bool}
  {registry registry' : WorkerRegistry}

theorem books_start : Books c base base .registering false registry where
  old _ _ _ found := found
  new _ _ _ _ found := .inl found
  owed _ _ h := by cases h

/-- What leaves the records of the worker and its boot alone leaves its books in order. -/
theorem Books.untouched (h : Books c base store p excused registry)
    (same : Untouched c.workerId store store')
    (live : ∀ boot, excused = false → authority registry c.workerId = some (boot, true) →
      authority registry' c.workerId = some (boot, true)) :
    Books c base store' p excused registry' where
  old k x worker found := (same.records k x worker).mpr (h.old k x worker found)
  new k x worker active found := h.new k x worker active ((same.records k x worker).mp found)
  owed boot k owes := by
    obtain ⟨x, found, active, worker, fresh, current⟩ := h.owed boot k owes
    exact ⟨x, (same.records _ x worker).mpr found, active, worker, fresh,
      fun whole => live boot whole (current whole)⟩

/-- A phase that owes nothing may follow one that owes nothing. -/
theorem Books.idle (h : Books c base store p excused registry) (before : owing p = none)
    (after : owing p' = none) : Books c base store p' excused registry' where
  old := h.old
  new k x worker active found := by
    rcases h.new k x worker active found with kept | ⟨boot, owes⟩ | rest
    · exact .inl kept
    · rw [before] at owes
      cases owes
    · exact .inr (.inr rest)
  owed boot k owes := by
    rw [after] at owes
    cases owes

/-- The worker has lost its connection. -/
theorem Books.severed (h : Books c base store p excused registry) (registry' : WorkerRegistry) :
    Books c base store p true registry' where
  old := h.old
  new _ _ _ _ _ := .inr (.inr (.inl rfl))
  owed boot k owes := by
    obtain ⟨x, found, active, worker, fresh, -⟩ := h.owed boot k owes
    exact ⟨x, found, active, worker, fresh, fun whole => absurd whole (by decide)⟩

/-- A worker that is excused may come to owe nothing. -/
theorem Books.dropped (h : Books c base store p true registry) (after : owing p' = none) :
    Books c base store p' true registry where
  old := h.old
  new _ _ _ _ _ := .inr (.inr (.inl rfl))
  owed boot k owes := by
    rw [after] at owes
    cases owes

/-- The work of a round leads to the release, to the next round or to the end by an exception. -/
theorem Books.work (h : Books c base store p excused registry) (allocates : Bool)
    {reg : RegisterInfo} {left : ℕ} {id : U64} (phase : p = .working reg left id) :
    Books c base store (p.work c allocates) (excused || !allocates) registry := by
  subst phase
  rw [Phase.work]
  cases allocates with
  | false =>
    rw [Bool.not_false, Bool.or_true]
    exact (h.severed registry).dropped rfl
  | true =>
    rw [Bool.not_true, Bool.or_false, if_pos rfl, Phase.worked]
    split_ifs with releases
    · exact ⟨h.old, h.new, h.owed⟩
    · refine ⟨h.old, fun k x worker active found => ?_, fun boot k owes => ?_⟩
      · refine (h.new k x worker active found).imp_right fun _ => .inr (.inr ?_)
        exact Bool.eq_false_iff.mpr releases
      · rw [owing_rounds] at owes
        cases owes

/-- A worker that owes nothing has been granted a reservation. -/
theorem Books.granted (h : Books c base store p excused registry) (before : owing p = none)
    {x : Reservation} (worker : x.worker = c.workerId) (active : x.active = true)
    (unrecorded : store.reservations[x.id]? = none)
    (recorded : store'.reservations = store.reservations.insert x.id x)
    (owes : ∀ boot k, owing p' = some (boot, k) →
      k = x.id ∧ (excused = false → authority registry' c.workerId = some (boot, true)))
    (told : (∃ boot, owing p' = some (boot, x.id)) ∨ excused = true) :
    Books c base store' p' excused registry' where
  old k y own found := by
    have kept := h.old k y own found
    rw [recorded, ExtTreeMap.getElem?_insert, if_neg]
    · exact kept
    · intro same
      rw [← Std.compare_eq_iff_eq.mp same, unrecorded] at kept
      cases kept
  new k y own live found := by
    rw [recorded, ExtTreeMap.getElem?_insert] at found
    split_ifs at found with same
    · rw [← Std.compare_eq_iff_eq.mp same]
      exact .inr (told.imp_right .inl)
    · rcases h.new k y own live found with kept | ⟨boot, held⟩ | rest
      · exact .inl kept
      · rw [before] at held
        cases held
      · exact .inr (.inr rest)
  owed boot k owed := by
    obtain ⟨rfl, current⟩ := owes boot k owed
    refine ⟨x, ?_, active, worker, fun y own found => ?_, current⟩
    · rw [recorded, ExtTreeMap.getElem?_insert_self]
    · have kept := h.old _ y own found
      rw [unrecorded] at kept
      cases kept

/-- A worker has given back what it owed. -/
theorem Books.returned (h : Books c base store p excused registry) {boot : WorkerBootId}
    {id : ReservationId} (owes : owing p = some (boot, id)) {x : Reservation}
    (closed : store'.reservations = store.reservations.insert id { x with active := false })
    (after : owing p' = none) : Books c base store' p' excused registry' where
  old k y own kept := by
    obtain ⟨-, -, -, -, fresh, -⟩ := h.owed boot id owes
    rw [closed, ExtTreeMap.getElem?_insert, if_neg]
    · exact h.old k y own kept
    · intro same
      rw [← Std.compare_eq_iff_eq.mp same] at kept
      exact fresh y own kept
  new k y own live here := by
    rw [closed, ExtTreeMap.getElem?_insert] at here
    split_ifs at here with same
    · cases here
      cases live
    · rcases h.new k y own live here with kept | ⟨boot', held⟩ | rest
      · exact .inl kept
      · rw [owes] at held
        cases held
        exact absurd (Std.compare_eq_iff_eq.mpr rfl) same
      · exact .inr (.inr rest)
  owed boot k owed := by
    rw [after] at owed
    cases owed

end Books

end NumaFabric.WorkerBooks
