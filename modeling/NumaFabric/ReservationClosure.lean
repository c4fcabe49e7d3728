import NumaFabric.ReservationLedger

/-! Closing the accounts: an entry of a ledger outlives its last reservation only when a
refused call left it behind or a grant overwrote an active record. -/
namespace NumaFabric.ReservationClosure
open Std FaultState FaultRun LedgerCounter LedgerTotal ReservationStore ReservationLedger
  ReservationIdentity

/-- Some active reservation satisfies the predicate. -/
def Live (s : ReservationStore) (P : Reservation → Prop) : Prop :=
  ∃ (id : ReservationId) (r : Reservation),
    s.reservations[id]? = some r ∧ r.active = true ∧ P r

/-- No active record stands under the identity about to be written. -/
def Free (s : ReservationStore) (id : ReservationId) : Prop :=
  ∀ q, s.reservations[id]? = some q → q.active = false

instance (s : ReservationStore) (id : ReservationId) : Decidable (Free s id) :=
  decidable_of_iff (s.reservations[id]?.all (fun q => !q.active) = true) (by
    unfold Free
    cases s.reservations[id]? <;> simp)

theorem activeTotal_record_of_free (f : Reservation → ℕ) {s : ReservationStore} {r : Reservation}
    (free : Free s r.id) (live : r.active = true) :
    activeTotal f (record r s) = activeTotal f s + f r := by
  cases hq : s.reservations[r.id]? with
  | none => exact activeTotal_record f hq live
  | some q =>
    have h := total_insert_of_some (fun (_ : ReservationId) (q : Reservation) =>
      if q.active then f q else 0) r hq
    simp only [free q hq, live, if_true, Bool.false_eq_true, if_false, Nat.add_zero] at h
    exact h

theorem Live.record {s : ReservationStore} {r : Reservation} {P : Reservation → Prop}
    (h : Live s P) (free : Free s r.id) : Live (record r s) P := by
  obtain ⟨id, q, hq, ha, hu⟩ := h
  refine ⟨id, q, ?_, ha, hu⟩
  rw [ReservationStore.record, ExtTreeMap.getElem?_insert, if_neg, hq]
  intro hc
  rw [← Std.compare_eq_iff_eq.mp hc] at hq
  rw [free q hq] at ha
  cases ha

theorem Live.close {s t : ReservationStore} {id : ReservationId} {r : Reservation}
    {P : Reservation → Prop} (h : Live s P) (found : s.reservations[id]? = some r)
    (closed : t.reservations = s.reservations.insert id { r with active := false })
    (other : ¬ P r) : Live t P := by
  obtain ⟨id', q, hq, ha, hu⟩ := h
  refine ⟨id', q, ?_, ha, hu⟩
  rw [closed, ExtTreeMap.getElem?_insert, if_neg, hq]
  intro hc
  rw [← Std.compare_eq_iff_eq.mp hc, found] at hq
  cases hq
  exact other hu

section Sound
variable {κ : Type} [Ord κ] [TransOrd κ] {w : ℕ}

/-- A ledger never exceeds the exact sums it stands for, and each entry belongs to an
active reservation. -/
structure Sound (m : Ledger κ w) (amount : κ → Reservation → ℕ) (uses : κ → Reservation → Prop)
    (s : ReservationStore) : Prop where
  le : ∀ k, (entry m k).toNat ≤ activeTotal (amount k) s
  live : ∀ k v, m[k]? = some v → Live s (uses k)

variable {m m' : Ledger κ w} {amount : κ → Reservation → ℕ} {uses : κ → Reservation → Prop}
  {s t : ReservationStore} {r : Reservation} {id : ReservationId} {k : κ} {b : BitVec w}

theorem Sound.empty : Sound (∅ : Ledger κ w) amount uses s := by
  refine ⟨fun k => ?_, fun k v hv => ?_⟩
  · rw [entry_empty]
    exact Nat.zero_le _
  · simp at hv

theorem Sound.congr (h : Sound m amount uses s) (hr : t.reservations = s.reservations) :
    Sound m amount uses t := by
  refine ⟨fun k => ?_, fun k v hv => ?_⟩
  · rw [activeTotal_congr _ hr]
    exact h.le k
  · rw [Live, hr]
    exact h.live k v hv

theorem Sound.isEmpty (h : Sound m amount uses s)
    (closed : ∀ (id : ReservationId) (q : Reservation), s.reservations[id]? = some q →
      q.active = false) : m.isEmpty = true := by
  rw [ExtTreeMap.isEmpty_iff, ExtTreeMap.eq_empty_iff_forall_not_mem]
  intro k hk
  obtain ⟨v, hv⟩ := Option.isSome_iff_exists.mp (ExtTreeMap.mem_iff_isSome_getElem?.mp hk)
  obtain ⟨id, q, hq, ha, -⟩ := h.live k v hv
  rw [closed id q hq] at ha
  cases ha

/-- A new record that is not charged to this ledger. -/
theorem Sound.record_only (h : Sound m amount uses s) (free : Free s r.id)
    (live : r.active = true) : Sound m amount uses (record r s) := by
  refine ⟨fun j => ?_, fun j v hv => (h.live j v hv).record free⟩
  rw [activeTotal_record_of_free _ free live]
  exact Nat.le_add_right_of_le (h.le j)

/-- Closing a record that was not charged to this ledger. -/
theorem Sound.close_only (h : Sound m amount uses s) (found : s.reservations[id]? = some r)
    (live : r.active = true)
    (closed : t.reservations = s.reservations.insert id { r with active := false })
    (hb : ∀ j, amount j r = 0) (other : ∀ j, ¬ uses j r) : Sound m amount uses t := by
  refine ⟨fun j => ?_, fun j v hv => (h.live j v hv).close found closed (other j)⟩
  have hsum := activeTotal_close (amount j) found live closed
  have hle := h.le j
  rw [hb] at hsum
  omega

variable [LawfulEqOrd κ] [DecidableEq κ]

theorem Sound.record_charge (h : Sound m amount uses s) (free : Free s r.id)
    (live : r.active = true) (hb : ∀ j, amount j r = if k = j then b.toNat else 0)
    (hk : uses k r) : Sound (charge m k b) amount uses (record r s) := by
  refine ⟨fun j => ?_, fun j v hv => ?_⟩
  · rw [activeTotal_record_of_free _ free live, hb]
    exact Nat.le_trans (toNat_entry_charge_le m j k b) (Nat.add_le_add_right (h.le j) _)
  · rw [getElem?_charge] at hv
    split_ifs at hv with hj
    · subst hj
      exact ⟨r.id, r, by simp [record], live, hk⟩
    · exact (h.live j v hv).record free

/-- An entry that survives the discharge still has an active amount behind it. -/
theorem Sound.close_discharge (h : Sound m amount uses s) (found : s.reservations[id]? = some r)
    (live : r.active = true)
    (closed : t.reservations = s.reservations.insert id { r with active := false })
    (hm : discharge m k b = some m') (hb : ∀ j, amount j r = if k = j then b.toNat else 0)
    (only : ∀ j, uses j r → k = j) (backed : ∀ j q, 0 < amount j q → uses j q) :
    Sound m' amount uses t := by
  have hle : ∀ j, (entry m' j).toNat ≤ activeTotal (amount j) t := by
    intro j
    have hsum := activeTotal_close (amount j) found live closed
    have hnew := toNat_entry_discharge_le j hm
    have hold := h.le j
    rw [hb] at hsum
    omega
  refine ⟨hle, fun j v hv => ?_⟩
  by_cases hj : k = j
  · subst hj
    have hpos := pos_of_getElem?_discharge hm hv
    have htot : 0 < activeTotal (amount k) t := by
      have := hle k
      rw [entry_of_some hv] at this
      omega
    obtain ⟨id', q, hq, hqpos⟩ := total_pos htot
    split_ifs at hqpos with ha
    · exact ⟨id', q, hq, ha, backed k q hqpos⟩
    · omega
  · rw [getElem?_discharge_of_ne hm hj] at hv
    exact (h.live j v hv).close found closed fun hu => hj (only j hu)

/-- A discharge whose release then failed: the record is still active. -/
theorem Sound.discharge_only (h : Sound m amount uses s) (found : s.reservations[id]? = some r)
    (live : r.active = true) (hm : discharge m k b = some m') (hk : uses k r) :
    Sound m' amount uses s := by
  refine ⟨fun j => ?_, fun j v hv => ?_⟩
  · have hnew := toNat_entry_discharge_le j hm
    have hold := h.le j
    omega
  · by_cases hj : k = j
    · subst hj
      exact ⟨id, r, found, live, hk⟩
    · rw [getElem?_discharge_of_ne hm hj] at hv
      exact h.live j v hv

end Sound

def placedOn (n : NumaNodeId) (r : Reservation) : Prop := r.node = n

def chargedTo (a : AcceleratorId) (r : Reservation) : Prop :=
  r.usesAccelerator = true ∧ r.accelerator = a

structure Backed (s : ReservationStore) : Prop where
  mem : Sound s.nodeMem bytesOn placedOn s
  slots : Sound s.nodeSlots slotsOn placedOn s
  accel : Sound s.accelMem bytesAt chargedTo s

theorem Backed.counters {s : ReservationStore} (h : Backed s) (id : U64)
    (g : ReservationGeneration) : Backed { s with nextId := id, watermark := g } :=
  ⟨h.mem.congr rfl, h.slots.congr rfl, h.accel.congr rfl⟩

theorem placedOn_of_bytesOn {n : NumaNodeId} {r : Reservation} (h : 0 < bytesOn n r) :
    placedOn n r := by
  unfold bytesOn at h
  split_ifs at h with hn
  · exact hn
  · omega

theorem placedOn_of_slotsOn {n : NumaNodeId} {r : Reservation} (h : 0 < slotsOn n r) :
    placedOn n r := by
  unfold slotsOn at h
  split_ifs at h with hn
  · exact hn
  · omega

theorem chargedTo_of_bytesAt {a : AcceleratorId} {r : Reservation} (h : 0 < bytesAt a r) :
    chargedTo a r := by
  unfold bytesAt at h
  split_ifs at h with hn
  · exact hn
  · omega

theorem bytesAt_of_uses {r : Reservation} (uses : r.usesAccelerator = true) (a : AcceleratorId) :
    bytesAt a r = if r.accelerator = a then r.bytes.value.toNat else 0 := by
  simp only [bytesAt, uses, true_and]

theorem Backed.clean {s : ReservationStore} (h : Backed s)
    (closed : ∀ (id : ReservationId) (r : Reservation), s.reservations[id]? = some r →
      r.active = false) : accountingClean s = true := by
  have none_active : s.reservations.toList.any (fun p => p.2.active) = false := by
    rw [List.any_eq_false]
    rintro ⟨id, r⟩ hr
    rw [closed id r (ExtTreeMap.mem_toList_iff_getElem?_eq_some.mp hr)]
    decide
  rw [accountingClean, none_active, h.mem.isEmpty closed, h.slots.isEmpty closed,
    h.accel.isEmpty closed]
  rfl

/-- Recording an active reservation and charging it keeps every ledger sound. -/
theorem Backed.enter {s : ReservationStore} {r : Reservation} (h : Backed s)
    (free : Free s r.id) (live : r.active = true) : Backed (record r (chargeAll r s)) := by
  refine ⟨Sound.congr (s := record r s) ?_ rfl, Sound.congr (s := record r s) ?_ rfl,
    Sound.congr (s := record r s) ?_ rfl⟩
  · change Sound (if r.bytes.isZero then s.nodeMem else charge s.nodeMem r.node r.bytes.value) _ _ _
    split_ifs
    · exact h.mem.record_only free live
    · exact h.mem.record_charge free live (fun _ => rfl) rfl
  · change Sound (if r.cpuSlots = 0 then s.nodeSlots else charge s.nodeSlots r.node r.cpuSlots) _ _ _
    split_ifs
    · exact h.slots.record_only free live
    · exact h.slots.record_charge free live (fun _ => rfl) rfl
  · change Sound (if r.usesAccelerator then charge s.accelMem r.accelerator r.bytes.value
      else s.accelMem) _ _ _
    split_ifs with uses
    · exact h.accel.record_charge free live (bytesAt_of_uses uses) ⟨uses, rfl⟩
    · exact h.accel.record_only free live

/-- An inactive record moves no sum. -/
theorem Backed.record_inactive {s : ReservationStore} {r : Reservation} (h : Backed s)
    (fresh : s.reservations[r.id]? = none) (closed : r.active = false) : Backed (record r s) := by
  have same := fun f => activeTotal_record_inactive f fresh closed
  have free : Free s r.id := fun q hq => by rw [fresh] at hq; cases hq
  exact ⟨⟨fun k => same (bytesOn k) ▸ h.mem.le k, fun k v hv => (h.mem.live k v hv).record free⟩,
    ⟨fun k => same (slotsOn k) ▸ h.slots.le k, fun k v hv => (h.slots.live k v hv).record free⟩,
    ⟨fun k => same (bytesAt k) ▸ h.accel.le k, fun k v hv => (h.accel.live k v hv).record free⟩⟩

/-- The step writes over no active record and, if it is refused for capacity, finds the
entries it looks up already there. -/
def Closes (cap : CapacityFn) (s : ReservationStore) : Call → Prop
  | .reserve req => req.malformed = none → s.watermark.value ≠ u64Max →
      (overMemory cap req s = true → s.nodeMem[req.node]?.isSome) ∧
      (overMemory cap req s = false → overAccelerator req s = true →
        (req.bytes.isZero = true ∨ s.nodeMem[req.node]?.isSome) ∧
          s.accelMem[req.accelerator]?.isSome) ∧
      (overMemory cap req s = false → overAccelerator req s = false → Free s ⟨s.nextId⟩)
  | .release _ _ => True
  | .restore r => r.id.isValid = true → s.reservations.contains r.id = false → r.active = true →
      restoreOver cap r s = true → s.nodeMem[r.node]?.isSome

instance (cap : CapacityFn) (s : ReservationStore) : (c : Call) → Decidable (Closes cap s c)
  | .reserve req => inferInstanceAs (Decidable (req.malformed = none → _))
  | .release _ _ => inferInstanceAs (Decidable True)
  | .restore r => inferInstanceAs (Decidable (r.id.isValid = true → _))

theorem touch_of_isSome {κ : Type} [Ord κ] [TransOrd κ] [LawfulEqOrd κ] {w : ℕ} {m : Ledger κ w}
    {k : κ} (h : m[k]?.isSome) : touch m k = m := by
  obtain ⟨v, hv⟩ := Option.isSome_iff_exists.mp h
  exact touch_of_some hv

theorem touchMemory_of_present {req : ReserveRequest} {s : ReservationStore}
    (h : req.bytes.isZero = true ∨ s.nodeMem[req.node]?.isSome) : touchMemory req s = s := by
  unfold touchMemory
  split_ifs with hz
  · rfl
  · rw [touch_of_isSome (h.resolve_left hz)]

/-- A refused request only moves the two counters. -/
theorem reserve_refused {cap : CapacityFn} {req : ReserveRequest} {s t : ReservationStore}
    {e : Exn} (closes : Closes cap s (.reserve req)) (refused : (reserve cap req).run s = .error e t) :
    t = { s with nextId := t.nextId, watermark := t.watermark } := by
  have ho := reserve_outcome cap req s
  rw [refused] at ho
  cases ho with
  | malformed e bad => rfl
  | exhausted wf last => rfl
  | overMemory g wf next ex =>
    have present := (closes wf (Generation.ne_max_of_next next)).1 ex
    rw [touchMemory_of_present (s := advanced g s) (.inr present)]
    rfl
  | overAccelerator g wf next fits ex =>
    obtain ⟨present, accel⟩ := (closes wf (Generation.ne_max_of_next next)).2.1 fits ex
    rw [touchMemory_of_present (s := advanced g s) present, touchAccelerator]
    have same : touch (advanced g s).accelMem req.accelerator = s.accelMem := touch_of_isSome accel
    rw [same]
    rfl

theorem reserve_backed {cap : CapacityFn} {req : ReserveRequest} {s : ReservationStore}
    (h : Backed s) (closes : Closes cap s (.reserve req)) :
    Backed (stateAfter (reserve cap req) s) := by
  cases hres : (reserve cap req).run s with
  | error e t =>
    rw [stateAfter_of_error hres, reserve_refused closes hres]
    exact h.counters _ _
  | ok r t =>
    rw [stateAfter_of_ok hres]
    have ho := reserve_outcome cap req s
    rw [hres] at ho
    cases ho with
    | granted g wf next fits below r record_eq =>
      have free : Free (advanced g s) r.id := by
        rw [record_eq]
        exact (closes wf (Generation.ne_max_of_next next)).2.2 fits below
      have hadv : Backed (advanced g s) := h.counters _ _
      exact hadv.enter free (by rw [record_eq]; rfl)

theorem release_backed (id : ReservationId) (expected : Option ReservationGeneration)
    {s : ReservationStore} (h : Backed s) : Backed (stateAfter (release id expected) s) := by
  have ho := release_outcome id expected s
  generalize hres : (release id expected).run s = res at ho
  cases ho with
  | unknown absent => rw [stateAfter_of_error hres]; exact h
  | refused r e found bad => rw [stateAfter_of_error hres]; exact h
  | memory r found good under => rw [stateAfter_of_error hres]; exact h
  | slots r m found good mem under =>
    rw [stateAfter_of_error hres]
    have live := active_of_releaseRefusal good
    have hm := h.mem.discharge_only found live mem rfl
    exact ⟨hm.congr rfl, h.slots.congr rfl, h.accel.congr rfl⟩
  | accelerator r m k found good mem slot under =>
    rw [stateAfter_of_error hres]
    have live := active_of_releaseRefusal good
    have hm := h.mem.discharge_only found live mem rfl
    have hk := h.slots.discharge_only found live slot rfl
    exact ⟨hm.congr rfl, hk.congr rfl, h.accel.congr rfl⟩
  | released r m k a found good mem slot accel =>
    rw [stateAfter_of_ok hres]
    have live := active_of_releaseRefusal good
    refine ⟨?_, ?_, ?_⟩
    · exact h.mem.close_discharge found live rfl mem (fun _ => rfl) (fun _ hu => hu)
        fun _ _ => placedOn_of_bytesOn
    · exact h.slots.close_discharge found live rfl slot (fun _ => rfl) (fun _ hu => hu)
        fun _ _ => placedOn_of_slotsOn
    · unfold accelDischarged at accel
      cases uses : r.usesAccelerator with
      | true =>
        rw [uses, if_pos rfl] at accel
        exact h.accel.close_discharge found live rfl accel (bytesAt_of_uses uses)
          (fun _ hu => hu.2) fun _ _ => chargedTo_of_bytesAt
      | false =>
        rw [uses] at accel
        cases accel
        exact h.accel.close_only found live rfl (fun _ => if_neg (by simp [uses]))
          (fun _ hu => by simp [chargedTo, uses] at hu)

/-- A record that is not re-admitted for lack of capacity leaves the store as it was. -/
theorem restore_refused {cap : CapacityFn} {r : Reservation} {s t : ReservationStore}
    (closes : Closes cap s (.restore r)) (refused : (restore cap r).run s = .ok false t) :
    t = s := by
  have ho := restore_outcome cap r s
  rw [refused] at ho
  cases ho with
  | refused valid fresh live ex => rw [touch_of_isSome (closes valid fresh live ex)]

theorem restore_threw {cap : CapacityFn} {r : Reservation} {s t : ReservationStore} {e : Exn}
    (threw : (restore cap r).run s = .error e t) : t = s := by
  have ho := restore_outcome cap r s
  rw [threw] at ho
  cases ho with
  | invalid bad => rfl
  | duplicate present => rfl

theorem absent_of_contains {s : ReservationStore} {id : ReservationId}
    (fresh : s.reservations.contains id = false) : s.reservations[id]? = none := by
  rw [ExtTreeMap.contains_eq_isSome_getElem?, Option.isSome_eq_false_iff,
    Option.isNone_iff_eq_none] at fresh
  exact fresh

theorem restore_backed {cap : CapacityFn} {r : Reservation} {s : ReservationStore} (h : Backed s)
    (closes : Closes cap s (.restore r)) : Backed (stateAfter (restore cap r) s) := by
  cases hres : (restore cap r).run s with
  | error e t => rw [stateAfter_of_error hres, restore_threw hres]; exact h
  | ok b t =>
    rw [stateAfter_of_ok hres]
    cases b with
    | false => rw [restore_refused closes hres]; exact h
    | true =>
      have ho := restore_outcome cap r s
      rw [hres] at ho
      cases ho with
      | inactive valid fresh closed => exact h.record_inactive (absent_of_contains fresh) closed
      | readmitted valid fresh live fits =>
        have free : Free s r.id := fun q hq => by rw [absent_of_contains fresh] at hq; cases hq
        exact (h.enter free live).counters _ _

theorem step_backed (cap : CapacityFn) (s : ReservationStore) (c : Call) (h : Backed s)
    (closes : Closes cap s c) : Backed (step cap s c) := by
  cases c with
  | reserve req => exact reserve_backed h closes
  | release id expected => exact release_backed id expected h
  | restore r => exact restore_backed h closes

theorem accountingClean_counters (s : ReservationStore) (id : U64) (g : ReservationGeneration) :
    accountingClean { s with nextId := id, watermark := g } = accountingClean s := rfl

/-- In a run whose steps close, the accounts are clean whenever no reservation is active,
and a further refused step that closes leaves the answer as it was. -/
theorem accounting_closes (cap : CapacityFn) (calls : List Call)
    (meets : Meets (step cap) (Closes cap) {} calls) :
    ((∀ (id : ReservationId) (r : Reservation), (run cap calls).reservations[id]? = some r →
        r.active = false) → accountingClean (run cap calls) = true) ∧
      (∀ req e t, Closes cap (run cap calls) (.reserve req) →
        (reserve cap req).run (run cap calls) = .error e t →
        accountingClean t = accountingClean (run cap calls)) ∧
      (∀ r t, Closes cap (run cap calls) (.restore r) →
        ((restore cap r).run (run cap calls) = .ok false t ∨
          ∃ e, (restore cap r).run (run cap calls) = .error e t) →
        accountingClean t = accountingClean (run cap calls)) := by
  have h : Backed (run cap calls) :=
    foldl_invariant (step_backed cap) ⟨.empty, .empty, .empty⟩ meets
  refine ⟨h.clean, fun req e t closes refused => ?_, fun r t closes refused => ?_⟩
  · rw [reserve_refused closes refused, accountingClean_counters]
  · obtain refused | ⟨e, threw⟩ := refused
    · rw [restore_refused closes refused]
    · rw [restore_threw threw]

theorem accounting_closes_after_refusal :
    let cap : CapacityFn := some fun _ => ⟨10⟩
    let calls : List Call :=
      [.reserve { node := ⟨1⟩, bytes := ⟨6⟩ }, .reserve { node := ⟨1⟩, bytes := ⟨6⟩ },
        .restore { id := ⟨7⟩, node := ⟨1⟩, bytes := ⟨3⟩, cpuSlots := 1, generation := ⟨5⟩ },
        .release ⟨1⟩ none, .release ⟨7⟩ (some ⟨5⟩)]
    accountingClean (run cap (calls.take 2)) = false ∧ accountingClean (run cap calls) = true := by
  intro cap calls
  have closed : ∀ p ∈ (run cap calls).reservations.toList, p.2.active = false := by decide
  refine ⟨by decide, (accounting_closes cap calls (by decide)).1 fun id r hr => ?_⟩
  exact closed (id, r) (ExtTreeMap.mem_toList_iff_getElem?_eq_some.mpr hr)

/-- The refused request and the refused record each leave a zero entry behind, and the
accounts of an empty store are no longer clean. -/
theorem refusal_leaves_residue :
    let cap : CapacityFn := some fun _ => ⟨10⟩
    let request : Call := .reserve { node := ⟨1⟩, bytes := ⟨100⟩ }
    let record : Reservation := { id := ⟨1⟩, node := ⟨1⟩, bytes := ⟨100⟩, generation := ⟨1⟩ }
    accountingClean (run cap []) = true ∧
      (run cap [request]).reservations.isEmpty = true ∧
      accountingClean (run cap [request]) = false ∧
      (∃ t, (restore cap record).run (run cap []) = .ok false t ∧ accountingClean t = false) := by
  intro cap request record
  exact ⟨by decide, by decide, by decide, _, rfl, by decide⟩

end NumaFabric.ReservationClosure
