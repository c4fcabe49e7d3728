import NumaFabric.ReservationLedger

/-! The accounting queries against the table: as long as the exact totals fit their
counters, every query returns the exact sum and no release of an active record fails. -/
namespace NumaFabric.ReservationTotals
open Std FaultState FaultRun LedgerCounter LedgerTotal ReservationStore ReservationIdentity
  ReservationLedger

/-- The exact totals fit the counters that hold them. -/
structure Bounded (s : ReservationStore) : Prop where
  bytes : ∀ n, activeTotal (bytesOn n) s < 2 ^ 64
  slots : ∀ n, activeTotal (slotsOn n) s < 2 ^ 32
  accel : ∀ a, activeTotal (bytesAt a) s < 2 ^ 64

/-- A client call that leaves the exact totals within their counters. -/
def Fits (cap : CapacityFn) (s : ReservationStore) (c : Call) : Prop :=
  c.isClient = true ∧ Bounded (step cap s c)

/-- Every node. -/
def AllNodes (_ : NumaNodeId) : Prop := True

instance : DecidablePred AllNodes := fun _ => inferInstanceAs (Decidable True)

theorem bounded_of_tracks {s : ReservationStore} (h : Tracks AllNodes s) : Bounded s := by
  refine ⟨fun n => ?_, fun n => ?_, fun a => ?_⟩
  · rw [← h.mem n trivial]
    exact (entry s.nodeMem n).isLt
  · rw [← h.slots n trivial]
    exact (entry s.nodeSlots n).isLt
  · rw [← h.accel a]
    exact (entry s.accelMem a).isLt

theorem reserve_admitted {cap : CapacityFn} {req : ReserveRequest} {s : ReservationStore}
    (d : Dominated s) (admitted : Admitted cap s req) (f : Reservation → ℕ) :
    ∃ g, activeTotal f (stateAfter (reserve cap req) s) =
      activeTotal f s + f (.granted ⟨s.nextId⟩ g req) := by
  obtain ⟨g, next, granted⟩ := reserve_of_admitted admitted
  rw [stateAfter_of_ok granted]
  exact ⟨g, activeTotal_record f (s := chargeAll _ (advanced g s)) (d.fresh next) rfl⟩

/-- Exact totals that fit after the call mean that the call wraps nothing. -/
theorem exact_of_fits {cap : CapacityFn} {s : ReservationStore} {c : Call} (d : Dominated s)
    (h : Tracks AllNodes s) (fits : Fits cap s c) : Exact cap AllNodes s c := by
  obtain ⟨client, bounded⟩ := fits
  cases c with
  | restore r => cases client
  | release id expected => trivial
  | reserve req =>
    intro admitted
    refine ⟨fun _ => ⟨?_, ?_⟩, fun uses => ?_⟩
    · obtain ⟨g, hg⟩ := reserve_admitted d admitted (bytesOn req.node)
      have lt := bounded.bytes req.node
      rw [step, hg, ← h.mem req.node trivial] at lt
      simpa [bytesOn, Reservation.granted] using lt
    · obtain ⟨g, hg⟩ := reserve_admitted d admitted (slotsOn req.node)
      have lt := bounded.slots req.node
      rw [step, hg, ← h.slots req.node trivial] at lt
      simpa [slotsOn, Reservation.granted] using lt
    · obtain ⟨g, hg⟩ := reserve_admitted d admitted (bytesAt req.accelerator)
      have lt := bounded.accel req.accelerator
      have hu : (Reservation.granted ⟨s.nextId⟩ g req).usesAccelerator = true := uses
      rw [step, hg, ← h.accel req.accelerator, bytesAt, if_pos ⟨hu, rfl⟩] at lt
      exact lt

theorem run_tracks {cap : CapacityFn} {calls : List Call}
    (meets : Meets (step cap) (Fits cap) {} calls) : Tracks AllNodes (run cap calls) := by
  have keep : ∀ s c, (Dominated s ∧ Tracks AllNodes s) → Fits cap s c →
      Dominated (step cap s c) ∧ Tracks AllNodes (step cap s c) :=
    fun s c h fits => step_tracks h.1 h.2 (exact_of_fits h.1 h.2 fits)
  exact (foldl_invariant keep ⟨initial_dominated, initial_tracks _⟩ meets).2

/-- A run without wraps keeps its totals within the counters. -/
theorem meets_fits_of_exact {cap : CapacityFn} {calls : List Call} {s : ReservationStore}
    (d : Dominated s) (h : Tracks AllNodes s)
    (meets : Meets (step cap) (Exact cap AllNodes) s calls) :
    Meets (step cap) (Fits cap) s calls := by
  induction calls generalizing s with
  | nil => trivial
  | cons c calls ih =>
    obtain ⟨exact, rest⟩ := meets
    obtain ⟨d', h'⟩ := step_tracks d h exact
    refine ⟨⟨?_, bounded_of_tracks h'⟩, ih d' h' rest⟩
    cases c with
    | reserve req => rfl
    | release id expected => rfl
    | restore r => exact exact.elim

theorem totalReservedMemory_eq {s : ReservationStore} (h : Tracks AllNodes s)
    (N : Finset NumaNodeId)
    (covers : ∀ (k : ReservationId) (r : Reservation),
      s.reservations[k]? = some r → r.active = true → r.node ∈ N) :
    (totalReservedMemory s).toNat = (∑ n ∈ N, activeTotal (bytesOn n) s) % 2 ^ 64 := by
  rw [totalReservedMemory, toNat_foldl_add]
  congr 1
  refine total_eq_sum _ N (fun n b hb => ?_) (fun n hn => ?_) fun n hn => ?_
  · rw [← h.mem n trivial, entry_of_some hb]
  · refine total_eq_zero fun k r hk => ?_
    split_ifs with live
    · rw [bytesOn, if_neg]
      rintro rfl
      exact hn (covers k r hk live)
    · rfl
  · rw [← h.mem n trivial, entry_of_none hn]
    rfl

theorem release_active_ok {s : ReservationStore} (h : Tracks AllNodes s) {id : ReservationId}
    {r : Reservation} {expected : Option ReservationGeneration}
    (found : s.reservations[id]? = some r) (live : r.active = true)
    (current : expected = none ∨ expected = some r.generation) :
    ∃ t, (release id expected).run s = .ok () t := by
  have accepted : releaseRefusal r id expected = none := by
    obtain rfl | rfl := current <;> simp [releaseRefusal, live]
  have ho := release_outcome id expected s
  generalize (release id expected).run s = res at ho
  cases ho with
  | unknown absent => rw [found] at absent; cases absent
  | refused q e hq bad =>
    obtain rfl : r = q := Option.some.inj (found.symm.trans hq)
    rw [accepted] at bad
    cases bad
  | memory q hq good under =>
    obtain rfl : r = q := Option.some.inj (found.symm.trans hq)
    obtain ⟨m, hm⟩ := discharge_isSome_of_le (h.mem_covered found live trivial)
    rw [hm] at under
    cases under
  | slots q m hq good mem under =>
    obtain rfl : r = q := Option.some.inj (found.symm.trans hq)
    obtain ⟨k, hk⟩ := discharge_isSome_of_le (h.slots_covered found live trivial)
    rw [hk] at under
    cases under
  | accelerator q m k hq good mem slot under =>
    obtain rfl : r = q := Option.some.inj (found.symm.trans hq)
    obtain ⟨a, ha⟩ := h.accelDischarged_isSome found live
    rw [ha] at under
    cases under
  | released q m k a hq good mem slot accel => exact ⟨_, rfl⟩

/-- The bytes a record claims on an accelerator. -/
def claimedAt (a : AcceleratorId) (r : Reservation) : ℕ :=
  if r.acceleratorCapacity = true ∧ r.accelerator = a then r.bytes.value.toNat else 0

theorem bytesAt_eq_claimedAt {a : AcceleratorId} (valid : a.isValid = true) :
    bytesAt a = claimedAt a := by
  funext r
  unfold bytesAt claimedAt Reservation.usesAccelerator
  by_cases ha : r.accelerator = a
  · subst ha
    simp [valid]
  · simp [ha]

/-- Every query of the accounting is exact in every run whose totals fit, and the grand
total is exact up to the width of its result. -/
theorem accounting_exact (cap : CapacityFn) (calls : List Call)
    (meets : Meets (step cap) (Fits cap) {} calls) :
    (∀ n, (nodeReservedMemory (run cap calls) n).toNat =
        activeTotal (bytesOn n) (run cap calls)) ∧
      (∀ n, (entry (run cap calls).nodeSlots n).toNat =
        activeTotal (slotsOn n) (run cap calls)) ∧
      (∀ a : AcceleratorId, a.isValid = true → (acceleratorReserved (run cap calls) a).toNat =
        activeTotal (claimedAt a) (run cap calls)) ∧
      (∀ N : Finset NumaNodeId, (∀ (k : ReservationId) (r : Reservation),
          (run cap calls).reservations[k]? = some r → r.active = true → r.node ∈ N) →
        (totalReservedMemory (run cap calls)).toNat =
          (∑ n ∈ N, activeTotal (bytesOn n) (run cap calls)) % 2 ^ 64) ∧
      ∀ (id : ReservationId) (r : Reservation) (expected : Option ReservationGeneration),
        (run cap calls).reservations[id]? = some r → r.active = true →
        (expected = none ∨ expected = some r.generation) →
        ∃ t, (release id expected).run (run cap calls) = .ok () t := by
  have h := run_tracks meets
  refine ⟨fun n => h.mem n trivial, fun n => h.slots n trivial, fun a valid => ?_,
    fun N covers => totalReservedMemory_eq h N covers,
    fun id r expected found live current => release_active_ok h found live current⟩
  rw [← bytesAt_eq_claimedAt valid]
  exact h.accel a

theorem accounting_exact_mixed_requests :
    let calls : List Call :=
      [.reserve
          { node := ⟨1⟩, bytes := ⟨5⟩, cpuSlots := 2, accelerator := ⟨7⟩
            acceleratorCapacity := true },
        .reserve { node := ⟨2⟩, bytes := ⟨3⟩ }, .reserve { node := ⟨2⟩ },
        .release ⟨2⟩ (some ⟨2⟩)]
    (acceleratorReserved (run none calls) ⟨7⟩).toNat = 5 ∧
      (acceleratorReserved (run none calls) ⟨7⟩).toNat =
        activeTotal (claimedAt ⟨7⟩) (run none calls) ∧
      ∃ t, (release ⟨1⟩ (some ⟨1⟩)).run (run none calls) = .ok () t := by
  intro calls
  have meets : Meets (step none) (Fits none) {} calls :=
    meets_fits_of_exact initial_dominated (initial_tracks _) (by decide)
  obtain ⟨-, -, accel, -, ok⟩ := accounting_exact none calls meets
  exact ⟨by decide, accel ⟨7⟩ rfl, ok ⟨1⟩ _ (some ⟨1⟩) rfl rfl (.inr rfl)⟩

/-- Two nodes hold 2^63 bytes each and the grand total reads zero; and a request for
accelerator capacity that names no accelerator is charged to none. -/
theorem grand_total_wraps :
    let wide : List Call :=
      [.reserve { node := ⟨1⟩, bytes := ⟨9223372036854775808⟩ },
        .reserve { node := ⟨2⟩, bytes := ⟨9223372036854775808⟩ }]
    let unnamed : List Call := [.reserve { node := ⟨1⟩, bytes := ⟨5⟩, acceleratorCapacity := true }]
    Meets (step none) (Fits none) {} wide ∧
      activeTotal (bytesOn ⟨1⟩) (run none wide) = 2 ^ 63 ∧
      activeTotal (bytesOn ⟨2⟩) (run none wide) = 2 ^ 63 ∧
      totalReservedMemory (run none wide) = 0 ∧
      Meets (step none) (Fits none) {} unnamed ∧
      activeTotal (claimedAt .invalid) (run none unnamed) = 5 ∧
      acceleratorReserved (run none unnamed) .invalid = 0 := by
  intro wide unnamed
  have meets : ∀ calls, Meets (step none) (Exact none AllNodes) {} calls →
      Meets (step none) (Fits none) {} calls :=
    fun calls => meets_fits_of_exact initial_dominated (initial_tracks _)
  exact ⟨meets wide (by decide), by decide, by decide, by decide, meets unnamed (by decide),
    by decide, by decide⟩

end NumaFabric.ReservationTotals
