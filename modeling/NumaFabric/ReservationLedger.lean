import NumaFabric.ReservationIdentity
import NumaFabric.LedgerTotal

/-! The ledgers against the table: when no counter wraps, every entry is the exact sum
over the active reservations, so the capacity check bounds that sum. -/
namespace NumaFabric.ReservationLedger
open Std FaultState FaultRun LedgerCounter LedgerTotal ReservationStore ReservationIdentity

/-- Exact sum over the active reservations. -/
def activeTotal (f : Reservation → ℕ) (s : ReservationStore) : ℕ :=
  total (fun _ r => if r.active then f r else 0) s.reservations

def bytesOn (n : NumaNodeId) (r : Reservation) : ℕ := if r.node = n then r.bytes.value.toNat else 0

def slotsOn (n : NumaNodeId) (r : Reservation) : ℕ := if r.node = n then r.cpuSlots.toNat else 0

def bytesAt (a : AcceleratorId) (r : Reservation) : ℕ :=
  if r.usesAccelerator = true ∧ r.accelerator = a then r.bytes.value.toNat else 0

theorem activeTotal_congr (f : Reservation → ℕ) {s t : ReservationStore}
    (h : t.reservations = s.reservations) : activeTotal f t = activeTotal f s := by
  rw [activeTotal, h, activeTotal]

theorem activeTotal_record (f : Reservation → ℕ) {s : ReservationStore} {r : Reservation}
    (fresh : s.reservations[r.id]? = none) (live : r.active = true) :
    activeTotal f (record r s) = activeTotal f s + f r := by
  rw [activeTotal, record, total_insert_of_none _ _ fresh, if_pos live, activeTotal]

theorem activeTotal_record_inactive (f : Reservation → ℕ) {s : ReservationStore} {r : Reservation}
    (fresh : s.reservations[r.id]? = none) (closed : r.active = false) :
    activeTotal f (record r s) = activeTotal f s := by
  rw [activeTotal, record, total_insert_of_none _ _ fresh, if_neg (by simp [closed]), activeTotal,
    Nat.add_zero]

theorem activeTotal_close (f : Reservation → ℕ) {s t : ReservationStore} {id : ReservationId}
    {r : Reservation} (found : s.reservations[id]? = some r) (live : r.active = true)
    (closed : t.reservations = s.reservations.insert id { r with active := false }) :
    activeTotal f t + f r = activeTotal f s := by
  have h := total_insert_of_some (fun (_ : ReservationId) (q : Reservation) =>
    if q.active then f q else 0) { r with active := false } found
  simp only [live, if_true, Bool.false_eq_true, if_false, Nat.add_zero] at h
  rw [activeTotal, closed, h, activeTotal]

theorem le_activeTotal (f : Reservation → ℕ) {s : ReservationStore} {id : ReservationId}
    {r : Reservation} (found : s.reservations[id]? = some r) (live : r.active = true) :
    f r ≤ activeTotal f s := by
  have h := le_total (fun (_ : ReservationId) (q : Reservation) =>
    if q.active then f q else 0) found
  rw [if_pos live] at h
  exact h

theorem active_of_releaseRefusal {r : Reservation} {id : ReservationId}
    {expected : Option ReservationGeneration} (h : releaseRefusal r id expected = none) :
    r.active = true := by
  unfold releaseRefusal at h
  cases ha : r.active with
  | true => rfl
  | false => simp [ha] at h

/-- The counters of the selected nodes, and of every accelerator, are exact. -/
structure Tracks (P : NumaNodeId → Prop) (s : ReservationStore) : Prop where
  mem : ∀ n, P n → (entry s.nodeMem n).toNat = activeTotal (bytesOn n) s
  slots : ∀ n, P n → (entry s.nodeSlots n).toNat = activeTotal (slotsOn n) s
  accel : ∀ a, (entry s.accelMem a).toNat = activeTotal (bytesAt a) s

/-- Granting the request wraps no counter of a selected node or of its accelerator. -/
def NoWrap (P : NumaNodeId → Prop) (s : ReservationStore) (req : ReserveRequest) : Prop :=
  (P req.node → (entry s.nodeMem req.node).toNat + req.bytes.value.toNat < 2 ^ 64 ∧
    (entry s.nodeSlots req.node).toNat + req.cpuSlots.toNat < 2 ^ 32) ∧
  (req.usesAccelerator = true →
    (entry s.accelMem req.accelerator).toNat + req.bytes.value.toNat < 2 ^ 64)

/-- The request passes every check of `reserve`. -/
def Admitted (cap : CapacityFn) (s : ReservationStore) (req : ReserveRequest) : Prop :=
  req.malformed = none ∧ s.watermark.value ≠ u64Max ∧ overMemory cap req s = false ∧
    overAccelerator req s = false

instance (cap : CapacityFn) (s : ReservationStore) (req : ReserveRequest) :
    Decidable (Admitted cap s req) := inferInstanceAs (Decidable (_ ∧ _))

instance (P : NumaNodeId → Prop) [DecidablePred P] (s : ReservationStore) (req : ReserveRequest) :
    Decidable (NoWrap P s req) := inferInstanceAs (Decidable (_ ∧ _))

theorem Tracks.ledgers {P : NumaNodeId → Prop} {s t : ReservationStore} (h : Tracks P s)
    (hr : t.reservations = s.reservations) (hm : ∀ n, entry t.nodeMem n = entry s.nodeMem n)
    (hk : t.nodeSlots = s.nodeSlots) (ha : ∀ a, entry t.accelMem a = entry s.accelMem a) :
    Tracks P t := by
  refine ⟨fun n hn => ?_, fun n hn => ?_, fun a => ?_⟩
  · rw [hm, h.mem n hn, activeTotal_congr _ hr]
  · rw [hk, h.slots n hn, activeTotal_congr _ hr]
  · rw [ha, h.accel a, activeTotal_congr _ hr]

theorem entry_chargeAll_mem {r : Reservation} {s : ReservationStore} (n : NumaNodeId)
    (fits : r.node = n → (entry s.nodeMem r.node).toNat + r.bytes.value.toNat < 2 ^ 64) :
    (entry (chargeAll r s).nodeMem n).toNat = (entry s.nodeMem n).toNat + bytesOn n r := by
  unfold chargeAll bytesOn
  by_cases hz : r.bytes.value = 0
  · simp [Quantity.isZero, hz]
  · simp only [Quantity.isZero, beq_iff_eq, hz, if_false]
    exact toNat_entry_charge n fits

theorem entry_chargeAll_slots {r : Reservation} {s : ReservationStore} (n : NumaNodeId)
    (fits : r.node = n → (entry s.nodeSlots r.node).toNat + r.cpuSlots.toNat < 2 ^ 32) :
    (entry (chargeAll r s).nodeSlots n).toNat = (entry s.nodeSlots n).toNat + slotsOn n r := by
  unfold chargeAll slotsOn
  by_cases hz : r.cpuSlots = 0
  · simp [hz]
  · simp only [hz, if_false]
    exact toNat_entry_charge n fits

theorem entry_chargeAll_accel {r : Reservation} {s : ReservationStore} (a : AcceleratorId)
    (fits : r.usesAccelerator = true →
      (entry s.accelMem r.accelerator).toNat + r.bytes.value.toNat < 2 ^ 64) :
    (entry (chargeAll r s).accelMem a).toNat = (entry s.accelMem a).toNat + bytesAt a r := by
  unfold chargeAll bytesAt
  cases hu : r.usesAccelerator with
  | false => simp
  | true =>
    simp only [if_true, true_and]
    exact toNat_entry_charge a fun _ => fits hu

/-- The request that a record answers. -/
def askedFor (r : Reservation) : ReserveRequest where
  node := r.node
  bytes := r.bytes
  cpuSlots := r.cpuSlots
  accelerator := r.accelerator
  acceleratorCapacity := r.acceleratorCapacity
  owner := r.owner
  worker := r.worker

/-- Recording a reservation and charging it, where the sums grow by just that. -/
theorem Tracks.enter {P : NumaNodeId → Prop} {s : ReservationStore} (h : Tracks P s)
    {r : Reservation} (grown : ∀ f, activeTotal f (record r s) = activeTotal f s + f r)
    (fits : NoWrap P s (askedFor r)) : Tracks P (record r (chargeAll r s)) := by
  have sums : ∀ f, activeTotal f (record r (chargeAll r s)) = activeTotal f s + f r :=
    fun f => (activeTotal_congr f rfl).trans (grown f)
  refine ⟨fun n hn => ?_, fun n hn => ?_, fun a => ?_⟩
  · rw [sums, ← h.mem n hn]
    apply entry_chargeAll_mem
    rintro rfl
    exact (fits.1 hn).1
  · rw [sums, ← h.slots n hn]
    apply entry_chargeAll_slots
    rintro rfl
    exact (fits.1 hn).2
  · rw [sums, ← h.accel a]
    exact entry_chargeAll_accel a fits.2

theorem Tracks.advanced {P : NumaNodeId → Prop} {s : ReservationStore} (h : Tracks P s)
    (g : ReservationGeneration) : Tracks P (advanced g s) :=
  h.ledgers rfl (fun _ => rfl) rfl fun _ => rfl

theorem reserve_of_admitted {cap : CapacityFn} {s : ReservationStore} {req : ReserveRequest}
    (admitted : Admitted cap s req) :
    ∃ g, s.watermark.next = .ok g ∧ (reserve cap req).run s =
      .ok (.granted ⟨s.nextId⟩ g req) (record (.granted ⟨s.nextId⟩ g req)
        (chargeAll (.granted ⟨s.nextId⟩ g req) (ReservationStore.advanced g s))) := by
  obtain ⟨good, notLast, below, under⟩ := admitted
  have ho := reserve_outcome cap req s
  generalize (reserve cap req).run s = res at ho
  cases ho with
  | malformed e bad => rw [good] at bad; cases bad
  | exhausted wf last => exact absurd last notLast
  | overMemory g wf next ex => rw [below] at ex; cases ex
  | overAccelerator g wf next fits ex => rw [under] at ex; cases ex
  | granted g wf next fits low r record_eq => exact ⟨g, next, by rw [record_eq]⟩

theorem admitted_of_reserve {cap : CapacityFn} {s t : ReservationStore} {req : ReserveRequest}
    {r : Reservation} (granted : (reserve cap req).run s = .ok r t) : Admitted cap s req := by
  have ho := reserve_outcome cap req s
  rw [granted] at ho
  cases ho with
  | granted g wf next below under r record_eq => exact ⟨wf, Generation.ne_max_of_next next, below, under⟩

/-- A request that is not granted changes no counter, only which entries exist. -/
theorem reserve_refused_ledgers {cap : CapacityFn} {req : ReserveRequest} {s t : ReservationStore}
    {e : Exn} (refused : (reserve cap req).run s = .error e t) :
    t.reservations = s.reservations ∧ (∀ n, entry t.nodeMem n = entry s.nodeMem n) ∧
      t.nodeSlots = s.nodeSlots ∧ ∀ a, entry t.accelMem a = entry s.accelMem a := by
  have ho := reserve_outcome cap req s
  rw [refused] at ho
  have touched : ∀ g n, entry (touchMemory req (ReservationStore.advanced g s)).nodeMem n =
      entry s.nodeMem n := by
    intro g n
    unfold touchMemory
    split_ifs
    · rfl
    · exact entry_touch _ _ _
  cases ho with
  | malformed e bad => exact ⟨rfl, fun _ => rfl, rfl, fun _ => rfl⟩
  | exhausted wf last => exact ⟨rfl, fun _ => rfl, rfl, fun _ => rfl⟩
  | overMemory g wf next ex =>
    rw [touchMemory_eq]
    exact ⟨rfl, touched g, rfl, fun _ => rfl⟩
  | overAccelerator g wf next below ex =>
    rw [touchMemory_eq]
    exact ⟨rfl, touched g, rfl, fun a => entry_touch _ _ _⟩

theorem reserve_refused_tracks {P : NumaNodeId → Prop} {cap : CapacityFn} {req : ReserveRequest}
    {s t : ReservationStore} {e : Exn} (h : Tracks P s)
    (refused : (reserve cap req).run s = .error e t) : Tracks P t := by
  obtain ⟨table, mem, slots, accel⟩ := reserve_refused_ledgers refused
  exact h.ledgers table mem slots accel

theorem reserve_tracks {P : NumaNodeId → Prop} (cap : CapacityFn) (req : ReserveRequest)
    {s : ReservationStore} (h : Tracks P s) (d : Dominated s)
    (fits : Admitted cap s req → NoWrap P s req) :
    Tracks P (stateAfter (reserve cap req) s) := by
  cases hres : (reserve cap req).run s with
  | error e t => rw [stateAfter_of_error hres]; exact reserve_refused_tracks h hres
  | ok r t =>
    have admitted := admitted_of_reserve hres
    obtain ⟨g, next, granted⟩ := reserve_of_admitted admitted
    rw [stateAfter_of_ok granted]
    exact (h.advanced g).enter (fun f => activeTotal_record f (d.fresh next) rfl) (fits admitted)

theorem Tracks.mem_covered {P : NumaNodeId → Prop} {s : ReservationStore} (h : Tracks P s)
    {id : ReservationId} {r : Reservation} (found : s.reservations[id]? = some r)
    (live : r.active = true) (hP : P r.node) : r.bytes.value ≤ entry s.nodeMem r.node := by
  have hle := le_activeTotal (bytesOn r.node) found live
  rw [bytesOn, if_pos rfl, ← h.mem r.node hP] at hle
  exact BitVec.le_def.mpr hle

theorem Tracks.slots_covered {P : NumaNodeId → Prop} {s : ReservationStore} (h : Tracks P s)
    {id : ReservationId} {r : Reservation} (found : s.reservations[id]? = some r)
    (live : r.active = true) (hP : P r.node) : r.cpuSlots ≤ entry s.nodeSlots r.node := by
  have hle := le_activeTotal (slotsOn r.node) found live
  rw [slotsOn, if_pos rfl, ← h.slots r.node hP] at hle
  exact BitVec.le_def.mpr hle

theorem Tracks.accel_covered {P : NumaNodeId → Prop} {s : ReservationStore} (h : Tracks P s)
    {id : ReservationId} {r : Reservation} (found : s.reservations[id]? = some r)
    (live : r.active = true) (uses : r.usesAccelerator = true) :
    r.bytes.value ≤ entry s.accelMem r.accelerator := by
  have hle := le_activeTotal (bytesAt r.accelerator) found live
  rw [bytesAt, if_pos ⟨uses, rfl⟩, ← h.accel r.accelerator] at hle
  exact BitVec.le_def.mpr hle

theorem Tracks.accelDischarged_isSome {P : NumaNodeId → Prop} {s : ReservationStore}
    (h : Tracks P s) {id : ReservationId} {r : Reservation}
    (found : s.reservations[id]? = some r) (live : r.active = true) :
    ∃ a, accelDischarged r s = some a := by
  unfold accelDischarged
  cases hu : r.usesAccelerator with
  | false => exact ⟨s.accelMem, rfl⟩
  | true => exact discharge_isSome_of_le (h.accel_covered found live hu)

theorem Tracks.entry_accelDischarged {P : NumaNodeId → Prop} {s : ReservationStore}
    (h : Tracks P s) {id : ReservationId} {r : Reservation} {m : Ledger AcceleratorId 64}
    (found : s.reservations[id]? = some r) (live : r.active = true)
    (accel : accelDischarged r s = some m) (a : AcceleratorId) :
    (entry m a).toNat + bytesAt a r = (entry s.accelMem a).toNat := by
  unfold accelDischarged at accel
  unfold bytesAt
  cases hu : r.usesAccelerator with
  | false =>
    rw [hu] at accel
    cases accel
    simp
  | true =>
    rw [hu, if_pos rfl] at accel
    simp only [true_and]
    exact toNat_entry_discharge a accel fun _ => h.accel_covered found live hu

/-- On a selected node no ledger underflows; elsewhere a partial discharge may happen,
but it stays on its own node. -/
theorem release_tracks {P : NumaNodeId → Prop} (id : ReservationId)
    (expected : Option ReservationGeneration) {s : ReservationStore} (h : Tracks P s) :
    Tracks P (stateAfter (release id expected) s) := by
  have ho := release_outcome id expected s
  generalize hres : (release id expected).run s = res at ho
  cases ho with
  | unknown absent => rw [stateAfter_of_error hres]; exact h
  | refused r e found bad => rw [stateAfter_of_error hres]; exact h
  | memory r found good under => rw [stateAfter_of_error hres]; exact h
  | slots r m found good mem under =>
    rw [stateAfter_of_error hres]
    have live := active_of_releaseRefusal good
    refine ⟨fun n hn => ?_, h.slots, h.accel⟩
    have hne : r.node ≠ n := by
      rintro rfl
      obtain ⟨k, hk⟩ := discharge_isSome_of_le (h.slots_covered found live hn)
      rw [hk] at under
      cases under
    rw [entry_discharge_of_ne mem hne]
    exact h.mem n hn
  | accelerator r m k found good mem slot under =>
    obtain ⟨a, ha⟩ := h.accelDischarged_isSome found (active_of_releaseRefusal good)
    rw [ha] at under
    cases under
  | released r m k a found good mem slot accel =>
    rw [stateAfter_of_ok hres]
    have live := active_of_releaseRefusal good
    have closed := fun f => activeTotal_close f (t := { s with
      nodeMem := m, nodeSlots := k, accelMem := a
      reservations := s.reservations.insert id { r with active := false } }) found live rfl
    refine ⟨fun n hn => ?_, fun n hn => ?_, fun x => ?_⟩
    · have hold := h.mem n hn
      have hnew : (entry m n).toNat + bytesOn n r = (entry s.nodeMem n).toNat :=
        toNat_entry_discharge n mem fun hrn => h.mem_covered found live (hrn ▸ hn)
      have hsum := closed (bytesOn n)
      dsimp only
      omega
    · have hold := h.slots n hn
      have hnew : (entry k n).toNat + slotsOn n r = (entry s.nodeSlots n).toNat :=
        toNat_entry_discharge n slot fun hrn => h.slots_covered found live (hrn ▸ hn)
      have hsum := closed (slotsOn n)
      dsimp only
      omega
    · have hold := h.accel x
      have hnew := h.entry_accelDischarged found live accel x
      have hsum := closed (bytesAt x)
      dsimp only
      omega

theorem initial_tracks (P : NumaNodeId → Prop) : Tracks P {} := by
  refine ⟨fun n _ => ?_, fun n _ => ?_, fun a => ?_⟩ <;> rw [activeTotal, total_empty] <;> rfl

/-- A client call, and if it is a request that will be granted, one that wraps no
counter of a selected node or of its accelerator. -/
def Exact (cap : CapacityFn) (P : NumaNodeId → Prop) (s : ReservationStore) : Call → Prop
  | .reserve req => Admitted cap s req → NoWrap P s req
  | .release _ _ => True
  | .restore _ => False

instance (cap : CapacityFn) (P : NumaNodeId → Prop) [DecidablePred P] (s : ReservationStore) :
    (c : Call) → Decidable (Exact cap P s c)
  | .reserve req => inferInstanceAs (Decidable (Admitted cap s req → NoWrap P s req))
  | .release _ _ => inferInstanceAs (Decidable True)
  | .restore _ => inferInstanceAs (Decidable False)

theorem step_tracks {cap : CapacityFn} {P : NumaNodeId → Prop} {s : ReservationStore} {c : Call}
    (d : Dominated s) (h : Tracks P s) (exact : Exact cap P s c) :
    Dominated (step cap s c) ∧ Tracks P (step cap s c) := by
  cases c with
  | reserve req => exact ⟨reserve_dominated cap req d, reserve_tracks cap req h d exact⟩
  | release id expected => exact ⟨release_dominated id expected d, release_tracks id expected h⟩
  | restore r => exact exact.elim

/-- The nodes with a declared limit. -/
def Limited (cap : CapacityFn) (n : NumaNodeId) : Prop := cap.limit n ≠ 0

instance (cap : CapacityFn) : DecidablePred (Limited cap) :=
  fun n => inferInstanceAs (Decidable (cap.limit n ≠ 0))

structure WithinCapacity (cap : CapacityFn) (s : ReservationStore) : Prop where
  dominated : Dominated s
  tracks : Tracks (Limited cap) s
  bounded : ∀ n, Limited cap n → activeTotal (bytesOn n) s ≤ (cap.limit n).toNat

/-- An unrefused request fits: its exact new total is what the check compared. -/
theorem fits_of_not_overMemory {cap : CapacityFn} {req : ReserveRequest} {s : ReservationStore}
    (fits : overMemory cap req s = false) (limited : Limited cap req.node)
    (noWrap : (entry s.nodeMem req.node).toNat + req.bytes.value.toNat < 2 ^ 64) :
    req.bytes.value = 0 ∨
      (entry s.nodeMem req.node).toNat + req.bytes.value.toNat ≤ (cap.limit req.node).toNat := by
  by_cases hz : req.bytes.value = 0
  · exact .inl hz
  · right
    have hl : (cap.limit req.node != 0) = true := bne_iff_ne.mpr limited
    simp only [overMemory, CapacityFn.exceeded, Quantity.isZero, hl, Bool.true_and,
      Bool.and_eq_false_iff, Bool.not_eq_false', beq_iff_eq, hz, false_or,
      decide_eq_false_iff_not, BitVec.not_lt] at fits
    rw [← BitVec.toNat_add_of_lt noWrap]
    exact BitVec.le_def.mp fits

theorem reserve_bounded {cap : CapacityFn} {req : ReserveRequest} {s : ReservationStore}
    (h : WithinCapacity cap s) (exact : Exact cap (Limited cap) s (.reserve req)) (n : NumaNodeId)
    (limited : Limited cap n) :
    activeTotal (bytesOn n) (stateAfter (reserve cap req) s) ≤ (cap.limit n).toNat := by
  have old := h.bounded n limited
  have ho := reserve_outcome cap req s
  generalize hres : (reserve cap req).run s = res at ho
  cases ho with
  | malformed e bad => rw [stateAfter_of_error hres]; exact old
  | exhausted wf last => rw [stateAfter_of_error hres]; exact old
  | overMemory g wf next ex => rw [stateAfter_of_error hres, touchMemory_eq]; exact old
  | overAccelerator g wf next below ex =>
    rw [stateAfter_of_error hres, touchMemory_eq]; exact old
  | granted g wf next below under r record_eq =>
    rw [stateAfter_of_ok hres]
    have fresh : s.reservations[r.id]? = none := by
      rw [record_eq]; exact h.dominated.fresh next
    have grown : activeTotal (bytesOn n) (record r (chargeAll r (advanced g s))) =
        activeTotal (bytesOn n) s + bytesOn n r :=
      activeTotal_record _ (s := chargeAll r (advanced g s)) fresh (by rw [record_eq]; rfl)
    have added : bytesOn n r = if req.node = n then req.bytes.value.toNat else 0 := by
      rw [record_eq]; rfl
    rw [grown, added]
    split_ifs with hn
    · subst hn
      have track := h.tracks.mem req.node limited
      have noWrap := ((exact ⟨wf, Generation.ne_max_of_next next, below, under⟩).1 limited).1
      obtain hz | hle := fits_of_not_overMemory below limited noWrap
      · rw [hz]
        exact old
      · omega
    · exact old

theorem release_bounded {cap : CapacityFn} {s : ReservationStore} (id : ReservationId)
    (expected : Option ReservationGeneration) (n : NumaNodeId)
    (old : activeTotal (bytesOn n) s ≤ (cap.limit n).toNat) :
    activeTotal (bytesOn n) (stateAfter (release id expected) s) ≤ (cap.limit n).toNat := by
  have ho := release_outcome id expected s
  generalize hres : (release id expected).run s = res at ho
  cases ho with
  | released r m k a found good mem slot accel =>
    rw [stateAfter_of_ok hres]
    have closed := activeTotal_close (bytesOn n) (t := { s with
      nodeMem := m, nodeSlots := k, accelMem := a
      reservations := s.reservations.insert id { r with active := false } }) found
      (active_of_releaseRefusal good) rfl
    omega
  | _ => rw [stateAfter_of_error hres]; exact old

theorem step_withinCapacity (cap : CapacityFn) (s : ReservationStore) (c : Call)
    (h : WithinCapacity cap s) (exact : Exact cap (Limited cap) s c) :
    WithinCapacity cap (step cap s c) := by
  obtain ⟨dominated, tracks⟩ := step_tracks h.dominated h.tracks exact
  refine ⟨dominated, tracks, fun n hn => ?_⟩
  cases c with
  | reserve req => exact reserve_bounded h exact n hn
  | release id expected => exact release_bounded id expected n (h.bounded n hn)
  | restore r => exact exact.elim

theorem initial_withinCapacity (cap : CapacityFn) : WithinCapacity cap {} :=
  ⟨initial_dominated, initial_tracks _, fun n _ => by rw [activeTotal, total_empty]; omega⟩

/-- In a run of client calls whose granted requests wrap no counter, the exact bytes
reserved on every limited node stay within its capacity. -/
theorem active_bytes_le_capacity (cap : CapacityFn) (calls : List Call)
    (meets : Meets (step cap) (Exact cap (Limited cap)) {} calls) (n : NumaNodeId)
    (limited : cap.limit n ≠ 0) :
    activeTotal (bytesOn n) (run cap calls) ≤ (cap.limit n).toNat :=
  (foldl_invariant (step_withinCapacity cap) (initial_withinCapacity cap) meets).bounded n limited

theorem active_bytes_le_capacity_two_clients :
    let cap : CapacityFn := some fun _ => ⟨100⟩
    let calls : List Call :=
      [.reserve { node := ⟨1⟩, bytes := ⟨60⟩ }, .reserve { node := ⟨1⟩, bytes := ⟨50⟩ },
        .reserve { node := ⟨1⟩, bytes := ⟨40⟩ }, .release ⟨1⟩ none]
    activeTotal (bytesOn ⟨1⟩) (run cap calls) = 40 ∧
      activeTotal (bytesOn ⟨1⟩) (run cap calls) ≤ 100 := by
  intro cap calls
  have meets : Meets (step cap) (Exact cap (Limited cap)) {} calls := by decide
  exact ⟨by decide, active_bytes_le_capacity cap calls meets ⟨1⟩ (by decide)⟩

/-- The sum wraps below the limit, and 2^64 + 50 bytes are admitted where 100 fit. -/
theorem wrapped_sum_oversubscribes :
    let cap : CapacityFn := some fun _ => ⟨100⟩
    let calls : List Call :=
      [.reserve { node := ⟨1⟩, bytes := ⟨100⟩ },
        .reserve { node := ⟨1⟩, bytes := ⟨18446744073709551566⟩ }]
    cap.limit ⟨1⟩ ≠ 0 ∧ activeTotal (bytesOn ⟨1⟩) (run cap calls) = 2 ^ 64 + 50 ∧
      ¬ activeTotal (bytesOn ⟨1⟩) (run cap calls) ≤ (cap.limit ⟨1⟩).toNat := by
  decide

end NumaFabric.ReservationLedger
