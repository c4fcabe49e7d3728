import NumaFabric.ReservationClosure
import NumaFabric.ReservationTotals

/-! A release takes from three ledgers one after another. It is all or nothing exactly when
no later ledger is short after an earlier one has already been reduced, and that stays so as
long as every ledger is the exact sum over the active reservations. -/
namespace NumaFabric.ReservationAtomicity
open Std FaultState FaultRun LedgerCounter LedgerTotal ReservationStore ReservationIdentity
  ReservationLedger ReservationTotals ReservationClosure

/-- A release that throws leaves the table and the three ledgers as they were. -/
def Atomic (s : ReservationStore) (id : ReservationId) (expected : Option ReservationGeneration) :
    Prop :=
  ∀ e t, (release id expected).run s = .error e t →
    t.reservations = s.reservations ∧ t.nodeMem = s.nodeMem ∧ t.nodeSlots = s.nodeSlots ∧
      t.accelMem = s.accelMem

section Discharge
variable {κ : Type} [Ord κ] [TransOrd κ] [LawfulEqOrd κ] [DecidableEq κ] {w : ℕ}

/-- The entry is there and smaller than the amount. -/
def Short (m : Ledger κ w) (k : κ) (b : BitVec w) : Prop := ∃ v, m[k]? = some v ∧ v < b

/-- The entry is there, covers the amount, and is not what it was without it. A zero entry is
erased. -/
def Reduced (m : Ledger κ w) (k : κ) (b : BitVec w) : Prop :=
  ∃ v, m[k]? = some v ∧ b ≤ v ∧ (b = 0 → v = 0)

omit [LawfulEqOrd κ] [DecidableEq κ] in
theorem not_short {m m' : Ledger κ w} {k : κ} {b : BitVec w} (h : discharge m k b = some m') :
    ¬Short m k b := by
  intro short
  rw [discharge_eq_none.mpr short] at h
  cases h

theorem discharge_ne {m m' : Ledger κ w} {k : κ} {b : BitVec w} (h : discharge m k b = some m') :
    m' ≠ m ↔ Reduced m k b := by
  obtain ⟨absent, rfl⟩ | ⟨v, present, covered, rfl⟩ := discharge_cases h
  · simp [Reduced, absent]
  · have stored : Reduced m k b ↔ (b = 0 → v = 0) := by simp [Reduced, present, covered]
    rw [stored]
    constructor
    · intro changed nothing
      by_contra positive
      apply changed
      have same : v - b = v := by simp [nothing]
      rw [settle, same, if_neg positive]
      exact insert_getElem? present
    · intro zero same
      have found := getElem?_settle m k k (v - b)
      rw [same, present, if_pos rfl] at found
      split_ifs at found with left
      have nothing : b = 0 := by simpa using (Option.some.inj found).symm
      exact left (by simp [nothing, zero nothing])

end Discharge

/-- The release gets past its checks, and a later ledger is short after an earlier one has
been reduced. -/
def StopsHalfway (s : ReservationStore) (id : ReservationId)
    (expected : Option ReservationGeneration) : Prop :=
  ∃ r, s.reservations[id]? = some r ∧ releaseRefusal r id expected = none ∧
    ((Reduced s.nodeMem r.node r.bytes.value ∧ Short s.nodeSlots r.node r.cpuSlots) ∨
      (¬Short s.nodeMem r.node r.bytes.value ∧ ¬Short s.nodeSlots r.node r.cpuSlots ∧
        (Reduced s.nodeMem r.node r.bytes.value ∨ Reduced s.nodeSlots r.node r.cpuSlots) ∧
        r.usesAccelerator = true ∧ Short s.accelMem r.accelerator r.bytes.value))

theorem accelDischarged_eq_none {r : Reservation} {s : ReservationStore} :
    accelDischarged r s = none ↔
      r.usesAccelerator = true ∧ Short s.accelMem r.accelerator r.bytes.value := by
  unfold accelDischarged Short
  cases r.usesAccelerator with
  | true => rw [if_pos rfl, discharge_eq_none, eq_self_iff_true, true_and]
  | false => simp

theorem atomic_iff (s : ReservationStore) (id : ReservationId)
    (expected : Option ReservationGeneration) :
    Atomic s id expected ↔ ¬StopsHalfway s id expected := by
  have ho := release_outcome id expected s
  unfold Atomic StopsHalfway
  generalize (release id expected).run s = res at ho
  cases ho with
  | unknown absent => simp [absent]
  | refused r e found bad => simp [found, bad]
  | memory r found good under =>
    have short : Short s.nodeMem r.node r.bytes.value := discharge_eq_none.mp under
    have covered : ¬Reduced s.nodeMem r.node r.bytes.value := by
      rintro ⟨v, present, le, -⟩
      obtain ⟨u, same, lt⟩ := short
      rw [present] at same
      cases same
      exact absurd lt (BitVec.not_lt.mpr le)
    simp [found, good, short, covered]
  | slots r m found good mem under =>
    have short : Short s.nodeSlots r.node r.cpuSlots := discharge_eq_none.mp under
    have changed := discharge_ne mem
    simp [found, good, short, ← changed]
  | accelerator r m k found good mem slot under =>
    have changed := discharge_ne mem
    have moved := discharge_ne slot
    obtain ⟨uses, short⟩ := accelDischarged_eq_none.mp under
    simp [found, good, not_short mem, not_short slot, uses, short, ← changed, ← moved]
  | released r m k a found good mem slot accel =>
    refine ⟨fun _ => ?_, fun _ e t threw => by cases threw⟩
    rintro ⟨q, same, -, ⟨-, short⟩ | ⟨-, -, -, under⟩⟩
    · rw [found] at same
      cases same
      exact not_short slot short
    · rw [found] at same
      cases same
      rw [accelDischarged_eq_none.mpr under] at accel
      cases accel

/-- What the step records wraps no counter and is written over no active record. -/
def Adds (cap : CapacityFn) (s : ReservationStore) : Call → Prop
  | .reserve req => Admitted cap s req → NoWrap AllNodes s req ∧ Free s ⟨s.nextId⟩
  | .release _ _ => True
  | .restore r => r.id.isValid = true → s.reservations.contains r.id = false → r.active = true →
      restoreOver cap r s = false → NoWrap AllNodes s (askedFor r)

instance (cap : CapacityFn) (s : ReservationStore) : (c : Call) → Decidable (Adds cap s c)
  | .reserve req => inferInstanceAs (Decidable (Admitted cap s req → _))
  | .release _ _ => inferInstanceAs (Decidable True)
  | .restore r => inferInstanceAs (Decidable (r.id.isValid = true → _))

theorem reserve_adds {cap : CapacityFn} {req : ReserveRequest} {s : ReservationStore}
    (h : Tracks AllNodes s) (adds : Adds cap s (.reserve req)) :
    Tracks AllNodes (stateAfter (reserve cap req) s) := by
  cases hres : (reserve cap req).run s with
  | error e t => rw [stateAfter_of_error hres]; exact reserve_refused_tracks h hres
  | ok r t =>
    have admitted := admitted_of_reserve hres
    obtain ⟨g, next, granted⟩ := reserve_of_admitted admitted
    obtain ⟨fits, free⟩ := adds admitted
    rw [stateAfter_of_ok granted]
    exact (h.advanced g).enter (fun f => activeTotal_record_of_free f free rfl) fits

theorem restore_adds {cap : CapacityFn} {r : Reservation} {s : ReservationStore}
    (h : Tracks AllNodes s) (adds : Adds cap s (.restore r)) :
    Tracks AllNodes (stateAfter (restore cap r) s) := by
  have ho := restore_outcome cap r s
  generalize hres : (restore cap r).run s = res at ho
  cases ho with
  | invalid bad => rw [stateAfter_of_error hres]; exact h
  | duplicate present => rw [stateAfter_of_error hres]; exact h
  | inactive valid fresh closed =>
    rw [stateAfter_of_ok hres]
    have same := fun f => activeTotal_record_inactive f (absent_of_contains fresh) closed
    exact ⟨fun n hn => (h.mem n hn).trans (same _).symm, fun n hn => (h.slots n hn).trans (same _).symm,
      fun a => (h.accel a).trans (same _).symm⟩
  | refused valid fresh live ex =>
    rw [stateAfter_of_ok hres]
    exact h.ledgers rfl (fun n => entry_touch _ _ _) rfl fun _ => rfl
  | readmitted valid fresh live fits =>
    rw [stateAfter_of_ok hres]
    have entered := h.enter (fun f => activeTotal_record f (absent_of_contains fresh) live)
      (adds valid fresh live fits)
    exact entered.ledgers rfl (fun _ => rfl) rfl fun _ => rfl

theorem step_adds (cap : CapacityFn) (s : ReservationStore) (c : Call) (h : Tracks AllNodes s)
    (adds : Adds cap s c) : Tracks AllNodes (step cap s c) := by
  cases c with
  | reserve req => exact reserve_adds h adds
  | release id expected => exact release_tracks id expected h
  | restore r => exact restore_adds h adds

/-- Where every ledger is exact, a release that passes its checks finds every ledger covered. -/
theorem not_stopsHalfway {s : ReservationStore} (h : Tracks AllNodes s) (id : ReservationId)
    (expected : Option ReservationGeneration) : ¬StopsHalfway s id expected := by
  rintro ⟨r, found, good, ⟨-, v, present, lt⟩ | ⟨-, -, -, uses, v, present, lt⟩⟩
  · have covered := h.slots_covered found (active_of_releaseRefusal good) trivial
    rw [entry_of_some present] at covered
    exact absurd lt (BitVec.not_lt.mpr covered)
  · have covered := h.accel_covered found (active_of_releaseRefusal good) uses
    rw [entry_of_some present] at covered
    exact absurd lt (BitVec.not_lt.mpr covered)

/-- In any state a run reaches, a failing release changes nothing exactly when it does not stop
halfway; and it never does in a run that wraps no counter and writes over no active record. -/
theorem release_atomic (cap : CapacityFn) (calls : List Call) :
    (∀ id expected, Atomic (run cap calls) id expected ↔
        ¬StopsHalfway (run cap calls) id expected) ∧
      (Meets (step cap) (Adds cap) {} calls →
        ∀ id expected, Atomic (run cap calls) id expected) := by
  refine ⟨atomic_iff _, fun meets id expected => (atomic_iff _ id expected).mpr ?_⟩
  exact not_stopsHalfway (foldl_invariant (step_adds cap) (initial_tracks _) meets) id expected

theorem release_atomic_after_restore :
    let calls : List Call :=
      [.reserve { node := ⟨1⟩, bytes := ⟨8⟩, cpuSlots := 4 },
        .restore { id := ⟨7⟩, node := ⟨1⟩, bytes := ⟨3⟩, cpuSlots := 1, generation := ⟨5⟩ },
        .release ⟨7⟩ none]
    Atomic (run none calls) ⟨7⟩ none := by
  intro calls
  exact (release_atomic none calls).2 (by decide) ⟨7⟩ none

/-- The slots of the two reservations add up to 2^32, which the ledger holds as zero. The first
release gives the bytes back, and then throws. -/
theorem release_stops_halfway :
    ¬ ∀ (cap : CapacityFn) (calls : List Call) (id : ReservationId)
      (expected : Option ReservationGeneration), Atomic (run cap calls) id expected := by
  intro atomic
  have same := atomic none
    [.reserve { node := ⟨1⟩, bytes := ⟨8⟩, cpuSlots := 4294967295 },
      .reserve { node := ⟨1⟩, bytes := ⟨8⟩, cpuSlots := 1 }] ⟨1⟩ none _ _ rfl
  exact absurd same.2.1 (by decide)

end NumaFabric.ReservationAtomicity
