import NumaFabric.KeyedTable
import NumaFabric.ReservationTotals
import NumaFabric.RuntimeRecovery

/-! What restoring a list of records into empty stores builds: the table of exactly these
records and, as long as their sums fit, ledgers that hold the sums. -/
namespace NumaFabric.RecoveryRebuild
open Std FaultState FaultRun LedgerCounter KeyedTable ReservationStore ReservationLedger

theorem takeBack_absent {s : WorkerRegistry} {x : PersistedWorker} (absent : s.workers[x.id]? = none) :
    s.takeBack x = s.reinstated x.recovered := by
  rw [WorkerRegistry.takeBack, absent]
  rfl

theorem registry_lists_append {done xs : List PersistedWorker} {s : WorkerRegistry}
    (h : Lists Worker.id (s.workers[·]?) (done.map PersistedWorker.recovered))
    (nodup : ((done ++ xs).map PersistedWorker.id).Nodup) :
    Lists Worker.id ((xs.foldl WorkerRegistry.takeBack s).workers[·]?)
      ((done ++ xs).map PersistedWorker.recovered) := by
  induction xs generalizing done s with
  | nil =>
    rw [List.append_nil]
    exact h
  | cons x xs ih =>
    rw [List.append_cons] at nodup ⊢
    rw [List.foldl_cons]
    have fresh : x.recovered.id ∉ (done.map PersistedWorker.recovered).map Worker.id := by
      have apart := (List.nodup_append.mp (by simpa using nodup)).2.2
      rw [List.map_map]
      exact fun mem => apart x.id mem x.id (by simp) rfl
    have absent : s.workers[x.id]? = none :=
      h.none_of_forall fun y hy same => fresh (List.mem_map.mpr ⟨y, hy, same⟩)
    refine ih ?_ nodup
    rw [takeBack_absent absent, List.map_append]
    exact h.insert fresh

/-- Worker records with distinct identifiers are all kept. -/
theorem registry_lists {xs : List PersistedWorker} (nodup : (xs.map PersistedWorker.id).Nodup) :
    Lists Worker.id ((xs.foldl WorkerRegistry.takeBack {}).workers[·]?)
      (xs.map PersistedWorker.recovered) := by
  change Lists Worker.id _ (([] ++ xs).map PersistedWorker.recovered)
  exact registry_lists_append lists_empty nodup

/-- The store holds exactly the records of the list, and their sums. -/
structure Rebuilt (xs : List Reservation) (s : ReservationStore) : Prop where
  table : Lists Reservation.id (s.reservations[·]?) xs
  mem : ∀ n, (entry s.nodeMem n).toNat = (xs.map (bytesOn n)).sum
  slots : ∀ n, (entry s.nodeSlots n).toNat = (xs.map (slotsOn n)).sum
  accel : ∀ a, (entry s.accelMem a).toNat = (xs.map (bytesAt a)).sum

/-- The sums of the list fit their counters, and on a limited node its capacity. -/
structure Fitting (cap : CapacityFn) (xs : List Reservation) : Prop where
  limited : ∀ n, cap.limit n ≠ 0 → (xs.map (bytesOn n)).sum ≤ (cap.limit n).toNat
  mem : ∀ n, (xs.map (bytesOn n)).sum < 2 ^ 64
  slots : ∀ n, (xs.map (slotsOn n)).sum < 2 ^ 32
  accel : ∀ a, (xs.map (bytesAt a)).sum < 2 ^ 64

theorem rebuilt_empty : Rebuilt [] {} :=
  ⟨lists_empty, fun _ => rfl, fun _ => rfl, fun _ => rfl⟩

section Readmit
variable {cap : CapacityFn} {done : List Reservation} {x : PersistedReservation}
  {s : ReservationStore}

theorem Fitting.left {xs ys : List Reservation} (h : Fitting cap (xs ++ ys)) : Fitting cap xs := by
  have le : ∀ f : Reservation → ℕ, (xs.map f).sum ≤ ((xs ++ ys).map f).sum := by
    intro f
    rw [List.map_append, List.sum_append]
    omega
  exact ⟨fun n hn => (le _).trans (h.limited n hn), fun n => (le _).trans_lt (h.mem n),
    fun n => (le _).trans_lt (h.slots n), fun a => (le _).trans_lt (h.accel a)⟩

/-- A record that fits is not refused by the capacity test. -/
theorem Rebuilt.restoreOver_eq (h : Rebuilt done s)
    (fits : Fitting cap (done ++ [x.recovered])) : restoreOver cap x.recovered s = false := by
  have sum : (entry s.nodeMem x.node).toNat + x.bytes.toNat =
      ((done ++ [x.recovered]).map (bytesOn x.node)).sum := by
    rw [h.mem x.node, List.map_append, List.sum_append]
    simp [bytesOn, PersistedReservation.recovered]
  have small := fits.mem x.node
  rw [← sum] at small
  rw [restoreOver, CapacityFn.exceeded, Bool.and_eq_false_iff]
  right
  rw [Bool.and_eq_false_iff]
  by_cases hl : cap.limit x.node = 0
  · exact .inl (by simpa [PersistedReservation.recovered] using hl)
  · right
    have within := fits.limited x.node hl
    rw [← sum, ← BitVec.toNat_add_of_lt small] at within
    exact decide_eq_false (BitVec.not_lt.mpr (BitVec.le_def.mpr within))

theorem takeBack_eq (fresh : s.Fresh x) (live : x.active = true)
    (fits : restoreOver cap x.recovered s = false) :
    s.takeBack cap x = reinstate x.recovered s := by
  change stateAfter (ReservationStore.restore cap x.recovered) s = _
  rw [stateAfter]
  have outcome := restore_outcome cap x.recovered s
  generalize (ReservationStore.restore cap x.recovered).run s = res at outcome
  cases outcome with
  | invalid bad => exact absurd (fresh.1.symm.trans bad) (by decide)
  | duplicate present => exact absurd (fresh.2.symm.trans present) (by decide)
  | inactive valid absent closed => exact absurd (live.symm.trans closed) (by decide)
  | refused valid absent active exceeds => exact absurd (fits.symm.trans exceeds) (by decide)
  | readmitted => rfl

theorem Rebuilt.reinstate (h : Rebuilt done s) (fresh : x.id ∉ done.map Reservation.id)
    (fits : Fitting cap (done ++ [x.recovered])) :
    Rebuilt (done ++ [x.recovered]) (reinstate x.recovered s) := by
  have grown : ∀ f : Reservation → ℕ,
      ((done ++ [x.recovered]).map f).sum = (done.map f).sum + f x.recovered := by
    intro f
    simp
  refine ⟨h.table.insert fresh, fun n => ?_, fun n => ?_, fun a => ?_⟩
  · rw [grown, ← h.mem n]
    refine entry_chargeAll_mem n fun hn => ?_
    have small := fits.mem n
    rw [grown, ← h.mem n, bytesOn, if_pos hn] at small
    rw [hn]
    exact small
  · rw [grown, ← h.slots n]
    refine entry_chargeAll_slots n fun hn => ?_
    have small := fits.slots n
    rw [grown, ← h.slots n, slotsOn, if_pos hn] at small
    rw [hn]
    exact small
  · rw [grown, ← h.accel a]
    refine entry_chargeAll_accel a fun uses => ?_
    have small := fits.accel x.recovered.accelerator
    rw [grown, ← h.accel, bytesAt, if_pos ⟨uses, rfl⟩] at small
    exact small

theorem reservations_rebuilt_append {xs : List PersistedReservation} (h : Rebuilt done s)
    (live : ∀ x ∈ xs, x.id.isValid = true ∧ x.active = true)
    (nodup : (done.map Reservation.id ++ xs.map PersistedReservation.id).Nodup)
    (fits : Fitting cap (done ++ xs.map PersistedReservation.recovered)) :
    Meets (ReservationStore.takeBack cap) ReservationStore.Fresh s xs ∧
      Rebuilt (done ++ xs.map PersistedReservation.recovered)
        (xs.foldl (ReservationStore.takeBack cap) s) := by
  induction xs generalizing done s with
  | nil =>
    rw [List.map_nil, List.append_nil]
    exact ⟨trivial, h⟩
  | cons x xs ih =>
    obtain ⟨⟨valid, active⟩, others⟩ := List.forall_mem_cons.mp live
    rw [List.map_cons, List.append_cons] at nodup fits ⊢
    have unused : x.id ∉ done.map Reservation.id := by
      intro mem
      exact (List.nodup_append.mp (List.nodup_append.mp nodup).1).2.2 x.id mem x.id (by simp) rfl
    have absent : s.reservations[x.id]? = none :=
      h.table.none_of_forall fun y hy same => unused (List.mem_map.mpr ⟨y, hy, same⟩)
    have fresh : s.Fresh x := by
      refine ⟨valid, ?_⟩
      rw [ExtTreeMap.contains_eq_isSome_getElem?, absent]
      rfl
    have here := takeBack_eq fresh active (h.restoreOver_eq fits.left)
    have next := h.reinstate unused fits.left
    rw [List.foldl_cons, Meets, here]
    have names : (done ++ [x.recovered]).map Reservation.id = done.map Reservation.id ++ [x.id] := by
      simp [PersistedReservation.recovered]
    rw [← names] at nodup
    obtain ⟨meets, rebuilt⟩ := ih next others nodup fits
    exact ⟨⟨fresh, meets⟩, rebuilt⟩

/-- Active records with distinct valid identifiers and sums that fit are all readmitted. -/
theorem reservations_rebuilt {xs : List PersistedReservation}
    (live : ∀ x ∈ xs, x.id.isValid = true ∧ x.active = true)
    (nodup : (xs.map PersistedReservation.id).Nodup)
    (fits : Fitting cap (xs.map PersistedReservation.recovered)) :
    Meets (ReservationStore.takeBack cap) ReservationStore.Fresh {} xs ∧
      Rebuilt (xs.map PersistedReservation.recovered)
        (xs.foldl (ReservationStore.takeBack cap) {}) :=
  reservations_rebuilt_append rebuilt_empty live nodup fits

end Readmit

end NumaFabric.RecoveryRebuild
