import NumaFabric.ReservationAtomicity
import NumaFabric.RecoveryRefinement
import NumaFabric.PlannedExecution
import NumaFabric.QuantityArithmetic

/-! The planner adds the active reservations up with checked sums, the store keeps running
totals that wrap. The two agree exactly as long as each running total is the exact sum. -/
namespace NumaFabric.PlannerView
open Std FaultState FaultRun LedgerCounter LedgerTotal ReservationStore ReservationIdentity
  ReservationLedger ReservationClosure ReservationAtomicity RuntimeFrames
open RecoveryRefinement (sum_active)
open PlannedExecution (tinyHost)
open NumaFabric.Runtime

section Tally

/-- The bytes a table of the planner has for a node. -/
def held (m : ExtTreeMap NumaNodeId Bytes) (n : NumaNodeId) : U64 := (m[n]?.getD .zero).value

/-- One pass of the planner's loop. -/
def tally (m : ExtTreeMap NumaNodeId Bytes) (r : Reservation) :
    Except Exn (ExtTreeMap NumaNodeId Bytes) := do
  return m.insert r.node (← (m[r.node]?.getD .zero).add r.bytes)

theorem held_insert (m : ExtTreeMap NumaNodeId Bytes) (k n : NumaNodeId) (b : Bytes) :
    held (m.insert k b) n = if k = n then b.value else held m n := by
  unfold held
  rw [ExtTreeMap.getElem?_insert]
  simp only [Std.compare_eq_iff_eq]
  split_ifs <;> rfl

theorem held_tally {m m' : ExtTreeMap NumaNodeId Bytes} {r : Reservation}
    (h : tally m r = .ok m') (n : NumaNodeId) :
    (held m' n).toNat = (held m n).toNat + bytesOn n r := by
  unfold tally at h
  cases sum : (m[r.node]?.getD .zero).add r.bytes with
  | error e => rw [sum] at h; cases h
  | ok c =>
    rw [sum] at h
    cases h
    rw [held_insert, bytesOn]
    split_ifs with here
    · subst here
      exact Quantity.add_eq_ok sum
    · rfl

theorem tally_isOk {m : ExtTreeMap NumaNodeId Bytes} {r : Reservation}
    (fits : (held m r.node).toNat + bytesOn r.node r < 2 ^ 64) : ∃ m', tally m r = .ok m' := by
  rw [bytesOn, if_pos rfl] at fits
  obtain ⟨c, sum⟩ := Quantity.add_isOk (a := m[r.node]?.getD .zero) fits
  exact ⟨m.insert r.node c, by rw [tally, sum]; rfl⟩

/-- The loop returns exact sums. -/
theorem held_foldlM {rs : List Reservation} {m m' : ExtTreeMap NumaNodeId Bytes}
    (h : rs.foldlM tally m = .ok m') (n : NumaNodeId) :
    (held m' n).toNat = (held m n).toNat + (rs.map (bytesOn n)).sum := by
  induction rs generalizing m with
  | nil => cases h; rfl
  | cons r rs ih =>
    rw [List.foldlM_cons] at h
    cases first : tally m r with
    | error e => rw [first] at h; cases h
    | ok u =>
      rw [first] at h
      rw [ih h, held_tally first, List.map_cons, List.sum_cons, Nat.add_assoc]

/-- It throws only for a sum that does not fit. -/
theorem foldlM_isOk {rs : List Reservation} {m : ExtTreeMap NumaNodeId Bytes}
    (fits : ∀ n, (held m n).toNat + (rs.map (bytesOn n)).sum < 2 ^ 64) :
    ∃ m', rs.foldlM tally m = .ok m' := by
  induction rs generalizing m with
  | nil => exact ⟨m, rfl⟩
  | cons r rs ih =>
    have room := fits r.node
    rw [List.map_cons, List.sum_cons] at room
    obtain ⟨u, first⟩ := tally_isOk (m := m) (r := r) (by omega)
    rw [List.foldlM_cons, first]
    apply ih
    intro n
    have sum := fits n
    rw [List.map_cons, List.sum_cons] at sum
    rw [held_tally first]
    omega

end Tally

section Agreement
variable {β : Type} (b : Backend β) (float : FloatCosts)

/-- The planner's model can be built, and has for every node the bytes the store has. -/
def Agrees (s : Runtime β) : Prop :=
  ∃ model, buildPlacementModel b float s = .ok model ∧
    ∀ n, (model.reservedCapacity[n]?.getD .zero).value = s.reservations.nodeReservedMemory n

/-- The running total of every node is the exact sum over the active reservations. -/
def Balanced (s : ReservationStore) : Prop :=
  ∀ n, (entry s.nodeMem n).toNat = activeTotal (bytesOn n) s

theorem buildPlacementModel_ok {s : Runtime β} {model : PlacementModel}
    (h : buildPlacementModel b float s = .ok model) : s.reservedCapacity = .ok model.reservedCapacity := by
  unfold buildPlacementModel at h
  cases sums : s.reservedCapacity with
  | error e => rw [sums] at h; cases h
  | ok m => rw [sums] at h; cases h; rfl

theorem agrees_iff (s : Runtime β) : Agrees b float s ↔ Balanced s.reservations := by
  have total : ∀ n, ((s.reservations.all.filter (·.active)).map (bytesOn n)).sum =
      activeTotal (bytesOn n) s.reservations := fun n => sum_active _ _
  have nothing : ∀ n, (held ∅ n).toNat = 0 := fun n => by simp [held, Quantity.zero]
  constructor
  · rintro ⟨model, built, same⟩ n
    have sum := held_foldlM (buildPlacementModel_ok b float built) n
    rw [total, nothing, Nat.zero_add] at sum
    rw [← sum]
    exact congrArg BitVec.toNat (same n).symm
  · intro balanced
    have fits : ∀ n, (held ∅ n).toNat +
        ((s.reservations.all.filter (·.active)).map (bytesOn n)).sum < 2 ^ 64 := by
      intro n
      rw [total, nothing, Nat.zero_add, ← balanced n]
      exact (entry s.reservations.nodeMem n).isLt
    obtain ⟨m, sums⟩ := foldlM_isOk fits
    have built : s.reservedCapacity = .ok m := sums
    refine ⟨_, by rw [buildPlacementModel, built]; rfl, fun n => BitVec.toNat_inj.mp ?_⟩
    have sum := held_foldlM sums n
    rw [total, nothing, Nat.zero_add, ← balanced n] at sum
    exact sum

end Agreement

section Store
variable {s t : ReservationStore}

theorem Balanced.congr (h : Balanced s) (table : t.reservations = s.reservations)
    (mem : ∀ n, entry t.nodeMem n = entry s.nodeMem n) : Balanced t := by
  intro n
  rw [mem, h n, activeTotal_congr _ table]

/-- A granted request keeps the balance exactly when its own sum does not wrap. -/
theorem balanced_reserve {cap : CapacityFn} {req : ReserveRequest} (d : Dominated s)
    (h : Balanced s) :
    Balanced (stateAfter (reserve cap req) s) ↔
      (Admitted cap s req →
        (entry s.nodeMem req.node).toNat + req.bytes.value.toNat < 2 ^ 64) := by
  cases hres : (reserve cap req).run s with
  | error e t =>
    obtain ⟨table, mem, -, -⟩ := reserve_refused_ledgers hres
    rw [stateAfter_of_error hres]
    refine ⟨fun _ admitted => ?_, fun _ => h.congr table mem⟩
    obtain ⟨g, -, granted⟩ := reserve_of_admitted admitted
    rw [hres] at granted
    cases granted
  | ok r t =>
    have admitted := admitted_of_reserve hres
    obtain ⟨g, next, granted⟩ := reserve_of_admitted admitted
    rw [stateAfter_of_ok granted]
    have grown : ∀ n, activeTotal (bytesOn n) (record (.granted ⟨s.nextId⟩ g req)
        (chargeAll (.granted ⟨s.nextId⟩ g req) (advanced g s))) =
        activeTotal (bytesOn n) s + bytesOn n (.granted ⟨s.nextId⟩ g req) :=
      fun n => activeTotal_record _ (s := chargeAll _ (advanced g s)) (d.fresh next) rfl
    constructor
    · intro balanced _
      have sum := balanced req.node
      have added : bytesOn req.node (.granted ⟨s.nextId⟩ g req) = req.bytes.value.toNat := if_pos rfl
      rw [grown, ← h req.node, added] at sum
      rw [← sum]
      exact BitVec.isLt _
    · intro fits n
      rw [grown, ← h n]
      exact entry_chargeAll_mem (s := advanced g s) n fun _ => fits admitted

/-- A reservation that is closed takes its bytes out of both sums. -/
theorem Balanced.close (h : Balanced s) {id : ReservationId} {r : Reservation}
    {m : Ledger NumaNodeId 64} (found : s.reservations[id]? = some r) (live : r.active = true)
    (mem : discharge s.nodeMem r.node r.bytes.value = some m) (ledger : t.nodeMem = m)
    (closed : t.reservations = s.reservations.insert id { r with active := false }) :
    Balanced t := by
  intro n
  have covered : r.node = n → r.bytes.value ≤ entry s.nodeMem r.node := by
    rintro rfl
    have le := le_activeTotal (bytesOn r.node) found live
    rw [bytesOn, if_pos rfl, ← h r.node] at le
    exact BitVec.le_def.mpr le
  have new : (entry m n).toNat + bytesOn n r = (entry s.nodeMem n).toNat :=
    toNat_entry_discharge n mem covered
  have sum := activeTotal_close (bytesOn n) found live closed
  have old := h n
  rw [ledger]
  omega

/-- Bytes taken off for a reservation that stays active unbalance its node. -/
theorem Balanced.short_of_bytes (h : Balanced s) {id : ReservationId} {r : Reservation}
    {m : Ledger NumaNodeId 64} (found : s.reservations[id]? = some r) (live : r.active = true)
    (mem : discharge s.nodeMem r.node r.bytes.value = some m) (ledger : t.nodeMem = m)
    (table : t.reservations = s.reservations) : Balanced t ↔ r.bytes.value = 0 := by
  have le := le_activeTotal (bytesOn r.node) found live
  rw [bytesOn, if_pos rfl, ← h r.node] at le
  have taken : ∀ n, (entry m n).toNat + bytesOn n r = (entry s.nodeMem n).toNat :=
    fun n => toNat_entry_discharge n mem fun _ => BitVec.le_def.mpr le
  constructor
  · intro balanced
    have new := balanced r.node
    rw [ledger, activeTotal_congr _ table, ← h r.node, ← taken r.node, bytesOn, if_pos rfl] at new
    apply BitVec.toNat_inj.mp
    rw [BitVec.ofNat_eq_ofNat, BitVec.toNat_zero]
    omega
  · intro nothing n
    have none_taken : bytesOn n r = 0 := by simp [bytesOn, nothing]
    rw [ledger, activeTotal_congr _ table, ← h n, ← taken n, none_taken, Nat.add_zero]

/-- A release keeps the balance unless it has bytes to give back and then stops. -/
theorem balanced_release {id : ReservationId} (h : Balanced s) :
    Balanced (stateAfter (release id none) s) ↔
      ∀ r, s.reservations[id]? = some r → r.active = true → r.bytes.value ≠ 0 →
        ¬Short s.nodeSlots r.node r.cpuSlots ∧
          ¬(r.usesAccelerator = true ∧ Short s.accelMem r.accelerator r.bytes.value) := by
  have ho := release_outcome id none s
  generalize hres : (release id none).run s = res at ho
  cases ho with
  | unknown absent => simp [stateAfter_of_error hres, h, absent]
  | refused r e found bad =>
    rw [stateAfter_of_error hres]
    refine ⟨fun _ q same live => ?_, fun _ => h⟩
    rw [found] at same
    cases same
    simp [releaseRefusal, live] at bad
  | memory r found good under =>
    have le := le_activeTotal (bytesOn r.node) found (active_of_releaseRefusal good)
    rw [bytesOn, if_pos rfl, ← h r.node] at le
    obtain ⟨m, mem⟩ := discharge_isSome_of_le (BitVec.le_def.mpr le)
    rw [mem] at under
    cases under
  | slots r m found good mem under =>
    have live := active_of_releaseRefusal good
    have lost : Balanced { s with nodeMem := m } ↔ _ := h.short_of_bytes found live mem rfl rfl
    rw [stateAfter_of_error hres, lost]
    have short : Short s.nodeSlots r.node r.cpuSlots := discharge_eq_none.mp under
    simp [found, live, short]
  | accelerator r m k found good mem slot under =>
    have live := active_of_releaseRefusal good
    have lost : Balanced { s with nodeMem := m, nodeSlots := k } ↔ _ :=
      h.short_of_bytes found live mem rfl rfl
    rw [stateAfter_of_error hres, lost]
    have short := accelDischarged_eq_none.mp under
    simp [found, live, short]
  | released r m k a found good mem slot accel =>
    have live := active_of_releaseRefusal good
    rw [stateAfter_of_ok hres]
    refine ⟨fun _ q same _ _ => ?_, fun _ => h.close found live mem rfl rfl⟩
    rw [found] at same
    cases same
    refine ⟨not_short slot, fun under => ?_⟩
    rw [accelDischarged_eq_none.mpr under] at accel
    cases accel

end Store

section Run
variable {β : Type} {b : Backend β} {probe : HostProbe β} {float : FloatCosts} {s : Runtime β}

/-- A granted request does not wrap the total of its node, and a release that has bytes to give
back finds the two other ledgers covered. -/
def Counts (s : Runtime β) : Op → Prop
  | .reserve req => Admitted s.nodeCapacityProvider s.reservations req →
      (entry s.reservations.nodeMem req.node).toNat + req.bytes.value.toNat < 2 ^ 64
  | .releaseReservation id => ∀ r, s.reservations.reservations[id]? = some r → r.active = true →
      r.bytes.value ≠ 0 → ¬Short s.reservations.nodeSlots r.node r.cpuSlots ∧
        ¬(r.usesAccelerator = true ∧ Short s.reservations.accelMem r.accelerator r.bytes.value)
  | _ => True

/-- The call reads reservations from disk. -/
def recovers : Op → Bool
  | .recover _ _ => true
  | _ => false

/-- The call reserves or releases. -/
def books : Op → Bool
  | .reserve _ => true
  | .releaseReservation _ => true
  | _ => false

theorem sameReservations_step (b : Backend β) (probe : HostProbe β) (s : Runtime β) {op : Op}
    (own : recovers op = false) (other : books op = false) :
    SameReservations s (step b probe s op) := by
  cases op with
  | discover => exact ignoresMemory_sameReservations.discover (fun _ _ => rfl) probe s
  | refreshAccelerators =>
    exact ignoresMemory_sameReservations.refreshAccelerators (fun _ _ => rfl) probe s
  | registerAccelerators accelerators => rfl
  | allocate req => exact ignoresMemory_sameReservations.onMigrator _ s
  | release id => exact ignoresMemory_sameReservations.onMigrator _ s
  | allocateOnNode bytes node kind => exact ignoresMemory_sameReservations.onMigrator _ s
  | execute d opts => exact ignoresMemory_sameReservations.execute b d opts s
  | reserve req => cases other
  | releaseReservation id => cases other
  | registerWorker id pid => exact ignoresRegistry_sameReservations.onRegistry _ s
  | restartWorker id pid => exact ignoresRegistry_sameReservations.onRegistry _ s
  | markWorkerDead id boot => rfl
  | bindWorker id boot node applyAffinity =>
    exact ignoresMemory_sameReservations.bindWorker b id boot node applyAffinity
      (ignoresRegistry_sameReservations.recordBinding id node) s
  | observe id boot => exact ignoresRegistry_sameReservations.observe (fun _ _ => rfl) id boot s
  | migrate region target worker auth reason =>
    exact ignoresMemory_sameReservations.migrate b region target worker auth reason s
  | advanceEpoch => exact preserves_advanceEpoch (R := SameReservations) (fun _ _ => rfl) s
  | advancePolicyGeneration => rfl
  | recover disk path => cases own

theorem step_reserve (b : Backend β) (probe : HostProbe β) (s : Runtime β) (req : ReserveRequest) :
    (step b probe s (.reserve req)).reservations =
      stateAfter (ReservationStore.reserve s.nodeCapacityProvider req) s.reservations := by
  change (stateAfter (Runtime.onReservations
    (ReservationStore.reserve s.nodeCapacityProvider req)) s).reservations = _
  rw [Runtime.onReservations, stateAfter_zoom]

theorem step_releaseReservation (b : Backend β) (probe : HostProbe β) (s : Runtime β)
    (id : ReservationId) :
    (step b probe s (.releaseReservation id)).reservations =
      stateAfter (ReservationStore.release id none) s.reservations := by
  change (stateAfter (Runtime.onReservations (ReservationStore.release id none)) s).reservations = _
  rw [Runtime.onReservations, stateAfter_zoom]

/-- One call of the runtime keeps the balance exactly when it counts. -/
theorem step_balanced {op : Op} (own : recovers op = false) (d : Dominated s.reservations)
    (h : Balanced s.reservations) :
    Dominated (step b probe s op).reservations ∧
      (Balanced (step b probe s op).reservations ↔ Counts s op) := by
  by_cases other : books op = false
  · rw [sameReservations_step b probe s own other]
    refine ⟨d, ?_⟩
    cases op with
    | reserve req => cases other
    | releaseReservation id => cases other
    | _ => exact ⟨fun _ => trivial, fun _ => h⟩
  · cases op with
    | reserve req =>
      rw [step_reserve]
      exact ⟨reserve_dominated _ req d, balanced_reserve d h⟩
    | releaseReservation id =>
      rw [step_releaseReservation]
      exact ⟨release_dominated id none d, balanced_release h⟩
    | _ => exact absurd rfl other

/-- Over a run of the runtime's calls, any but a recovery, the planner's view can be built and
agrees with the store in every state reached exactly when every step counts. -/
theorem planner_agrees_iff (b : Backend β) (probe : HostProbe β) (float : FloatCosts)
    (s : Runtime β) (empty : s.reservations = {}) (ops : List Op)
    (own : ∀ op ∈ ops, recovers op = false) :
    (∀ pre, pre <+: ops → Agrees b float (run b probe s pre)) ↔
      Meets (step b probe) Counts s ops := by
  have balanced : Balanced s.reservations := by
    rw [empty]
    exact fun n => (initial_tracks fun _ => True).mem n trivial
  simp only [agrees_iff]
  refine forall_prefix_iff (P := fun t : Runtime β => Dominated t.reservations)
    (Q := fun t : Runtime β => Balanced t.reservations) (fun t op hop => ?_)
    (empty ▸ initial_dominated) balanced
  exact step_balanced (own op hop)

end Run

open SyntheticBackend in
theorem planner_agrees_iff_refused_request :
    let ops : List Op := [.discover, .reserve { node := ⟨1⟩, bytes := ⟨60⟩ },
      .reserve { node := ⟨1⟩, bytes := ⟨60⟩ }, .reserve { node := ⟨2⟩, bytes := ⟨60⟩ }]
    Agrees (backend tinyHost) ⟨fun _ _ => 0, fun _ => 0⟩
      (run (backend tinyHost) (probe tinyHost) (.create {} fun _ => 0) ops) := by
  intro ops
  refine (planner_agrees_iff (backend tinyHost) (probe tinyHost) ⟨fun _ _ => 0, fun _ => 0⟩
    (.create {} fun _ => 0) rfl ops (by decide)).mpr ?_ ops List.prefix_rfl
  exact ⟨trivial, fun _ => by decide, fun _ => by decide, fun _ => by decide, trivial⟩

open SyntheticBackend in
/-- Two reservations on a node without a limit, each of as many bytes as a number can count. The
store wraps, and the planner cannot plan for anyone. -/
theorem planner_blocked :
    ¬ ∀ {β : Type} (b : Backend β) (probe : HostProbe β) (float : FloatCosts) (s : Runtime β),
      s.reservations = {} → ∀ ops : List Op, (∀ op ∈ ops, recovers op = false) →
      Agrees b float (run b probe s ops) := by
  intro agrees
  have balanced := (agrees_iff _ _ _).mp (agrees (backend tinyHost) (probe tinyHost)
    ⟨fun _ _ => 0, fun _ => 0⟩ (.create {} fun _ => 0) rfl
    [.reserve { node := ⟨1⟩, bytes := ⟨u64Max⟩ }, .reserve { node := ⟨1⟩, bytes := ⟨u64Max⟩ }]
    (by decide)) ⟨1⟩
  exact absurd balanced (by decide)

end NumaFabric.PlannerView
