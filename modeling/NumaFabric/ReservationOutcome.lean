import NumaFabric.ReservationStore
import NumaFabric.FaultRun

/-! What one call of the reservation store can do: every way it returns or throws,
with the guards that lead there and the state it leaves. -/
namespace NumaFabric
open Std FaultState LedgerCounter

namespace ReservationStore

/-- The 64-bit sum the store compares with the node's limit exceeds it. -/
def overMemory (cap : CapacityFn) (req : ReserveRequest) (s : ReservationStore) : Bool :=
  !req.bytes.isZero && cap.exceeded req.node (entry s.nodeMem req.node + req.bytes.value)

def overAccelerator (req : ReserveRequest) (s : ReservationStore) : Bool :=
  req.usesAccelerator &&
    decide (kAccelCeiling < entry s.accelMem req.accelerator + req.bytes.value)

def advanced (g : ReservationGeneration) (s : ReservationStore) : ReservationStore :=
  { s with nextId := s.nextId + 1, watermark := g }

/-- The lookup of the memory check, made only for a request with bytes. -/
def touchMemory (req : ReserveRequest) (s : ReservationStore) : ReservationStore :=
  if req.bytes.isZero then s else { s with nodeMem := touch s.nodeMem req.node }

def touchAccelerator (req : ReserveRequest) (s : ReservationStore) : ReservationStore :=
  { s with accelMem := touch s.accelMem req.accelerator }

inductive ReserveOutcome (cap : CapacityFn) (req : ReserveRequest) (s : ReservationStore) :
    EStateM.Result Exn ReservationStore Reservation → Prop
  | malformed (e : ReservationError) (bad : req.malformed = some e) :
      ReserveOutcome cap req s (.error (.reservation e) s)
  | exhausted (wellFormed : req.malformed = none) (last : s.watermark.value = u64Max) :
      ReserveOutcome cap req s (.error .invalidId { s with nextId := s.nextId + 1 })
  | overMemory (g : ReservationGeneration) (wellFormed : req.malformed = none)
      (next : s.watermark.next = .ok g) (exceeds : overMemory cap req s = true) :
      ReserveOutcome cap req s (.error (.reservation (.oversubscription req.node))
        (touchMemory req (advanced g s)))
  | overAccelerator (g : ReservationGeneration) (wellFormed : req.malformed = none)
      (next : s.watermark.next = .ok g) (fits : overMemory cap req s = false)
      (exceeds : overAccelerator req s = true) :
      ReserveOutcome cap req s (.error (.reservation .acceleratorCeiling)
        (touchAccelerator req (touchMemory req (advanced g s))))
  | granted (g : ReservationGeneration) (wellFormed : req.malformed = none)
      (next : s.watermark.next = .ok g) (fits : overMemory cap req s = false)
      (below : overAccelerator req s = false) (r : Reservation)
      (record_eq : r = Reservation.granted ⟨s.nextId⟩ g req) :
      ReserveOutcome cap req s (.ok r (record r (chargeAll r (advanced g s))))

theorem takeIdentity_run (s : ReservationStore) :
    takeIdentity.run s =
      match s.watermark.next with
      | .ok g => .ok (⟨s.nextId⟩, g) (advanced g s)
      | .error e => .error e { s with nextId := s.nextId + 1 } := by
  simp only [takeIdentity, EStateM.run_bind, EStateM.run_get, EStateM.run_modify]
  cases s.watermark.next <;> rfl

theorem admitMemory_run (cap : CapacityFn) (req : ReserveRequest) (s : ReservationStore) :
    (admitMemory cap req).run s =
      if overMemory cap req s then
        .error (.reservation (.oversubscription req.node)) (touchMemory req s)
      else .ok () (touchMemory req s) := by
  unfold admitMemory overMemory touchMemory
  cases req.bytes.isZero
  · simp [run_throwIf]
  · simp

theorem admitAccelerator_run (req : ReserveRequest) (s : ReservationStore) :
    (admitAccelerator req).run s =
      if overAccelerator req s then
        .error (.reservation .acceleratorCeiling) (touchAccelerator req s)
      else .ok () (if req.usesAccelerator then touchAccelerator req s else s) := by
  unfold admitAccelerator overAccelerator touchAccelerator
  cases req.usesAccelerator
  · simp
  · simp [run_throwIf]

/-- Charging absorbs the lookups of the two capacity checks. -/
theorem chargeAll_touch (id : ReservationId) (g : ReservationGeneration) (req : ReserveRequest)
    (s : ReservationStore) :
    chargeAll (.granted id g req)
        (if req.usesAccelerator then touchAccelerator req (touchMemory req s)
          else touchMemory req s) =
      chargeAll (.granted id g req) s := by
  have hu : (Reservation.granted id g req).usesAccelerator = req.usesAccelerator := rfl
  have hb : (Reservation.granted id g req).bytes.isZero = req.bytes.isZero := rfl
  unfold chargeAll touchAccelerator touchMemory
  rw [hu, hb]
  cases req.bytes.isZero <;> cases req.usesAccelerator <;>
    simp only [Bool.false_eq_true, if_false, if_true, Reservation.granted, charge_touch] <;> rfl

theorem overAccelerator_touchMemory (req : ReserveRequest) (g : ReservationGeneration)
    (s : ReservationStore) :
    overAccelerator req (touchMemory req (advanced g s)) = overAccelerator req s := by
  unfold overAccelerator touchMemory advanced
  split_ifs <;> rfl

theorem reserve_outcome (cap : CapacityFn) (req : ReserveRequest) (s : ReservationStore) :
    ReserveOutcome cap req s ((reserve cap req).run s) := by
  unfold reserve
  cases hm : req.malformed with
  | some e => exact .malformed e hm
  | none =>
    simp only [EStateM.run_bind, takeIdentity_run]
    cases hn : s.watermark.next with
    | error e =>
      have he : e = .invalidId := by
        unfold Generation.next at hn
        split_ifs at hn
        exact (Except.error.inj hn).symm
      subst he
      exact .exhausted hm (Generation.next_error hn)
    | ok g =>
      simp only [admitMemory_run, admitAccelerator_run, EStateM.run_modify, EStateM.run_pure]
      have ho : overMemory cap req (advanced g s) = overMemory cap req s := rfl
      rw [ho]
      cases hmem : overMemory cap req s with
      | true => exact .overMemory g hm hn hmem
      | false =>
        simp only [Bool.false_eq_true, if_false, overAccelerator_touchMemory]
        cases hacc : overAccelerator req s with
        | true => exact .overAccelerator g hm hn hmem hacc
        | false =>
          simp only [Bool.false_eq_true, if_false, chargeAll_touch]
          exact .granted g hm hn hmem hacc _ rfl

/-- The accelerator ledger after a release, when that ledger does not underflow. -/
def accelDischarged (r : Reservation) (s : ReservationStore) : Option (Ledger AcceleratorId 64) :=
  if r.usesAccelerator then discharge s.accelMem r.accelerator r.bytes.value else some s.accelMem

inductive ReleaseOutcome (id : ReservationId) (expected : Option ReservationGeneration)
    (s : ReservationStore) : EStateM.Result Exn ReservationStore Unit → Prop
  | unknown (absent : s.reservations[id]? = none) :
      ReleaseOutcome id expected s (.error (.reservation (.unknown id)) s)
  | refused (r : Reservation) (e : ReservationError) (found : s.reservations[id]? = some r)
      (bad : releaseRefusal r id expected = some e) :
      ReleaseOutcome id expected s (.error (.reservation e) s)
  | memory (r : Reservation) (found : s.reservations[id]? = some r)
      (good : releaseRefusal r id expected = none)
      (under : discharge s.nodeMem r.node r.bytes.value = none) :
      ReleaseOutcome id expected s (.error (.reservation (.underflow r.node)) s)
  | slots (r : Reservation) (m : Ledger NumaNodeId 64) (found : s.reservations[id]? = some r)
      (good : releaseRefusal r id expected = none)
      (mem : discharge s.nodeMem r.node r.bytes.value = some m)
      (under : discharge s.nodeSlots r.node r.cpuSlots = none) :
      ReleaseOutcome id expected s (.error (.reservation .slotUnderflow) { s with nodeMem := m })
  | accelerator (r : Reservation) (m : Ledger NumaNodeId 64) (k : Ledger NumaNodeId 32)
      (found : s.reservations[id]? = some r) (good : releaseRefusal r id expected = none)
      (mem : discharge s.nodeMem r.node r.bytes.value = some m)
      (slot : discharge s.nodeSlots r.node r.cpuSlots = some k)
      (under : accelDischarged r s = none) :
      ReleaseOutcome id expected s
        (.error (.reservation .acceleratorUnderflow) { s with nodeMem := m, nodeSlots := k })
  | released (r : Reservation) (m : Ledger NumaNodeId 64) (k : Ledger NumaNodeId 32)
      (a : Ledger AcceleratorId 64) (found : s.reservations[id]? = some r)
      (good : releaseRefusal r id expected = none)
      (mem : discharge s.nodeMem r.node r.bytes.value = some m)
      (slot : discharge s.nodeSlots r.node r.cpuSlots = some k)
      (accel : accelDischarged r s = some a) :
      ReleaseOutcome id expected s (.ok ()
        { s with
          nodeMem := m, nodeSlots := k, accelMem := a
          reservations := s.reservations.insert id { r with active := false } })

theorem dischargeMemory_run (r : Reservation) (s : ReservationStore) :
    (dischargeMemory r).run s =
      match discharge s.nodeMem r.node r.bytes.value with
      | none => .error (.reservation (.underflow r.node)) s
      | some m => .ok () { s with nodeMem := m } := rfl

theorem dischargeSlots_run (r : Reservation) (s : ReservationStore) :
    (dischargeSlots r).run s =
      match discharge s.nodeSlots r.node r.cpuSlots with
      | none => .error (.reservation .slotUnderflow) s
      | some m => .ok () { s with nodeSlots := m } := rfl

theorem dischargeAccelerator_run (r : Reservation) (s : ReservationStore) :
    (dischargeAccelerator r).run s =
      match accelDischarged r s with
      | none => .error (.reservation .acceleratorUnderflow) s
      | some a => .ok () { s with accelMem := a } := by
  unfold dischargeAccelerator accelDischarged
  cases r.usesAccelerator <;> rfl

theorem release_outcome (id : ReservationId) (expected : Option ReservationGeneration)
    (s : ReservationStore) : ReleaseOutcome id expected s ((release id expected).run s) := by
  unfold release
  simp only [EStateM.run_bind, EStateM.run_get]
  cases hr : s.reservations[id]? with
  | none => exact .unknown hr
  | some r =>
    dsimp only
    cases hf : releaseRefusal r id expected with
    | some e => exact .refused r e hr hf
    | none =>
      simp only [EStateM.run_bind, dischargeMemory_run]
      cases hm : discharge s.nodeMem r.node r.bytes.value with
      | none => exact .memory r hr hf hm
      | some m =>
        simp only [dischargeSlots_run]
        cases hk : discharge s.nodeSlots r.node r.cpuSlots with
        | none => exact .slots r m hr hf hm hk
        | some k =>
          simp only [dischargeAccelerator_run]
          have ha : accelDischarged r { s with nodeMem := m, nodeSlots := k } =
              accelDischarged r s := rfl
          rw [ha]
          cases hx : accelDischarged r s with
          | none => exact .accelerator r m k hr hf hm hk hx
          | some a => exact .released r m k a hr hf hm hk hx

/-- The capacity test of `restore` fails. -/
def restoreOver (cap : CapacityFn) (r : Reservation) (s : ReservationStore) : Bool :=
  !r.bytes.isZero && cap.exceeded r.node (entry s.nodeMem r.node + r.bytes.value)

inductive RestoreOutcome (cap : CapacityFn) (r : Reservation) (s : ReservationStore) :
    EStateM.Result Exn ReservationStore Bool → Prop
  | invalid (bad : r.id.isValid = false) :
      RestoreOutcome cap r s (.error (.reservation .restoreInvalid) s)
  | duplicate (present : s.reservations.contains r.id = true) :
      RestoreOutcome cap r s (.error (.reservation (.restoreDuplicate r.id)) s)
  | inactive (valid : r.id.isValid = true) (fresh : s.reservations.contains r.id = false)
      (closed : r.active = false) : RestoreOutcome cap r s (.ok true (record r s))
  | refused (valid : r.id.isValid = true) (fresh : s.reservations.contains r.id = false)
      (live : r.active = true) (exceeds : restoreOver cap r s = true) :
      RestoreOutcome cap r s (.ok false { s with nodeMem := touch s.nodeMem r.node })
  | readmitted (valid : r.id.isValid = true) (fresh : s.reservations.contains r.id = false)
      (live : r.active = true) (fits : restoreOver cap r s = false) :
      RestoreOutcome cap r s (.ok true (reinstate r s))

theorem restoreFits_run (cap : CapacityFn) (r : Reservation) (s : ReservationStore) :
    (restoreFits cap r).run s =
      .ok (!restoreOver cap r s)
        (if !r.bytes.isZero && cap.limit r.node != 0 then
          { s with nodeMem := touch s.nodeMem r.node } else s) := by
  unfold restoreFits restoreOver CapacityFn.exceeded
  cases r.bytes.isZero <;> cases cap.limit r.node != 0 <;>
    simp only [Bool.not_false, Bool.not_true, Bool.and_true, Bool.and_false, Bool.true_and,
      Bool.false_and, Bool.false_eq_true, if_true, if_false, EStateM.run_bind, EStateM.run_modify,
      EStateM.run_get, EStateM.run_pure, entry_touch]

theorem reinstate_touch (cap : CapacityFn) (r : Reservation) (s : ReservationStore) :
    reinstate r (if !r.bytes.isZero && cap.limit r.node != 0 then
      { s with nodeMem := touch s.nodeMem r.node } else s) = reinstate r s := by
  unfold reinstate record chargeAll
  cases r.bytes.isZero <;> cases cap.limit r.node != 0 <;>
    simp only [Bool.not_false, Bool.not_true, Bool.and_true, Bool.and_false, Bool.false_eq_true,
      if_true, if_false, charge_touch]

theorem restore_outcome (cap : CapacityFn) (r : Reservation) (s : ReservationStore) :
    RestoreOutcome cap r s ((restore cap r).run s) := by
  unfold restore
  simp only [EStateM.run_bind, run_throwIf, EStateM.run_get]
  cases hv : r.id.isValid with
  | false => exact .invalid hv
  | true =>
    simp only [Bool.not_true, Bool.false_eq_true, if_false]
    cases hc : s.reservations.contains r.id with
    | true => exact .duplicate hc
    | false =>
      simp only [Bool.false_eq_true, if_false]
      cases ha : r.active with
      | false => exact .inactive hv hc ha
      | true =>
        simp only [Bool.not_true, Bool.false_eq_true, if_false, EStateM.run_bind, restoreFits_run]
        cases ho : restoreOver cap r s with
        | true =>
          obtain ⟨hz, hx⟩ := Bool.and_eq_true_iff.mp ho
          have hl : (cap.limit r.node != 0) = true := (Bool.and_eq_true_iff.mp hx).1
          simp only [hz, hl, Bool.and_self, if_true, Bool.not_true, Bool.false_eq_true, if_false]
          exact .refused hv hc ha ho
        | false =>
          simp only [Bool.not_false, if_true, EStateM.run_bind, EStateM.run_modify,
            EStateM.run_pure, reinstate_touch]
          exact .readmitted hv hc ha ho

/-- A call on the store, by a client or by recovery. -/
inductive Call
  | reserve (req : ReserveRequest)
  | release (id : ReservationId) (expected : Option ReservationGeneration)
  | restore (r : Reservation)
  deriving DecidableEq, Repr

def Call.isClient : Call → Bool
  | reserve _ => true
  | release _ _ => true
  | restore _ => false

/-- The store after a call, whether it returned or threw. -/
def step (cap : CapacityFn) (s : ReservationStore) : Call → ReservationStore
  | .reserve req => stateAfter (ReservationStore.reserve cap req) s
  | .release id expected => stateAfter (ReservationStore.release id expected) s
  | .restore r => stateAfter (ReservationStore.restore cap r) s

def run (cap : CapacityFn) (calls : List Call) : ReservationStore := calls.foldl (step cap) {}

end ReservationStore

end NumaFabric
