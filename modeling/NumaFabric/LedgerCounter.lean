import Mathlib

/-! Tables of fixed-width counters whose entries are created on first use and erased
when they return to zero. Counters wrap at their width; the lemmas say what each
operation does to every entry and to the set of entries present. -/
namespace NumaFabric.LedgerCounter
open Std

abbrev Ledger (κ : Type) [Ord κ] (w : ℕ) := ExtTreeMap κ (BitVec w)

variable {κ : Type} [Ord κ] [TransOrd κ] {w : ℕ}

def entry (m : Ledger κ w) (k : κ) : BitVec w := m[k]?.getD 0

/-- An indexed read creates the entry at zero when it is absent. -/
def touch (m : Ledger κ w) (k : κ) : Ledger κ w := m.insertIfNew k 0

def charge (m : Ledger κ w) (k : κ) (b : BitVec w) : Ledger κ w := m.insert k (entry m k + b)

/-- Store a counter, erasing the entry when it is zero. -/
def settle (m : Ledger κ w) (k : κ) (v : BitVec w) : Ledger κ w :=
  if v = 0 then m.erase k else m.insert k v

/-- Subtract from an existing entry; an absent entry is left alone, and `none`
reports that the subtraction would underflow. -/
def discharge (m : Ledger κ w) (k : κ) (b : BitVec w) : Option (Ledger κ w) :=
  match m[k]? with
  | none => some m
  | some v => if v < b then none else some (settle m k (v - b))

@[simp] theorem entry_empty (k : κ) : entry (∅ : Ledger κ w) k = 0 := by simp [entry]

theorem entry_of_some {m : Ledger κ w} {k : κ} {v : BitVec w} (h : m[k]? = some v) :
    entry m k = v := by
  rw [entry, h, Option.getD_some]

theorem entry_of_none {m : Ledger κ w} {k : κ} (h : m[k]? = none) : entry m k = 0 := by
  rw [entry, h, Option.getD_none]

/-- A discharge fails only on a present entry smaller than the amount. -/
theorem discharge_eq_none {m : Ledger κ w} {k : κ} {b : BitVec w} :
    discharge m k b = none ↔ ∃ v, m[k]? = some v ∧ v < b := by
  unfold discharge
  cases h : m[k]? with
  | none => simp
  | some v =>
    dsimp only
    split_ifs with hv <;> simp [hv]

theorem discharge_isSome_of_le {m : Ledger κ w} {k : κ} {b : BitVec w} (h : b ≤ entry m k) :
    ∃ m', discharge m k b = some m' := by
  cases hd : discharge m k b with
  | some m' => exact ⟨m', rfl⟩
  | none =>
    obtain ⟨v, hv, hlt⟩ := discharge_eq_none.mp hd
    rw [entry_of_some hv] at h
    exact absurd hlt (BitVec.not_lt.mpr h)

/-- What a successful discharge leaves: a skipped absent entry, or the difference. -/
theorem discharge_cases {m m' : Ledger κ w} {k : κ} {b : BitVec w}
    (h : discharge m k b = some m') :
    (m[k]? = none ∧ m' = m) ∨
      ∃ v, m[k]? = some v ∧ b ≤ v ∧ m' = settle m k (v - b) := by
  unfold discharge at h
  cases hk : m[k]? with
  | none => exact .inl ⟨rfl, by simpa [hk] using h.symm⟩
  | some v =>
    simp only [hk] at h
    split_ifs at h with hv
    exact .inr ⟨v, rfl, BitVec.not_lt.mp hv, (Option.some.inj h).symm⟩

variable [LawfulEqOrd κ]

@[simp] theorem entry_touch (m : Ledger κ w) (j k : κ) : entry (touch m k) j = entry m j := by
  unfold entry touch
  rw [ExtTreeMap.getElem?_insertIfNew]
  split_ifs with h
  · rw [← Std.compare_eq_iff_eq.mp h.1]
    simp [ExtTreeMap.getElem?_eq_none h.2]
  · rfl

/-- Charging an entry absorbs the lookup that created it. -/
@[simp] theorem charge_touch (m : Ledger κ w) (k : κ) (b : BitVec w) :
    charge (touch m k) k b = charge m k b := by
  apply ExtTreeMap.ext_getElem?
  intro j
  rw [charge, charge, entry_touch, touch, ExtTreeMap.getElem?_insert, ExtTreeMap.getElem?_insert,
    ExtTreeMap.getElem?_insertIfNew]
  split_ifs with h h'
  · rfl
  · exact absurd h'.1 h
  · rfl

theorem touch_of_some {m : Ledger κ w} {k : κ} {v : BitVec w} (h : m[k]? = some v) :
    touch m k = m := by
  apply ExtTreeMap.ext_getElem?
  intro j
  rw [touch, ExtTreeMap.getElem?_insertIfNew]
  split_ifs with hc
  · exact absurd (ExtTreeMap.mem_iff_isSome_getElem?.mpr (by rw [h]; rfl)) hc.2
  · rfl

/-- Storing a counter forgets the lookup that created it. -/
@[simp] theorem settle_touch (m : Ledger κ w) (k : κ) (v : BitVec w) :
    settle (touch m k) k v = settle m k v := by
  apply ExtTreeMap.ext_getElem?
  intro j
  unfold settle touch
  split_ifs
  · simp only [ExtTreeMap.getElem?_erase, ExtTreeMap.getElem?_insertIfNew]
    split_ifs with h h'
    · rfl
    · exact absurd h'.1 h
    · rfl
  · simp only [ExtTreeMap.getElem?_insert, ExtTreeMap.getElem?_insertIfNew]
    split_ifs with h h'
    · rfl
    · exact absurd h'.1 h
    · rfl

variable [DecidableEq κ]

theorem getElem?_charge (m : Ledger κ w) (j k : κ) (b : BitVec w) :
    (charge m k b)[j]? = if k = j then some (entry m k + b) else m[j]? := by
  simp only [charge, ExtTreeMap.getElem?_insert, Std.compare_eq_iff_eq]

theorem entry_charge (m : Ledger κ w) (j k : κ) (b : BitVec w) :
    entry (charge m k b) j = if k = j then entry m k + b else entry m j := by
  unfold entry
  rw [getElem?_charge]
  split_ifs <;> rfl

theorem getElem?_settle (m : Ledger κ w) (j k : κ) (v : BitVec w) :
    (settle m k v)[j]? = if k = j then (if v = 0 then none else some v) else m[j]? := by
  unfold settle
  by_cases hv : v = 0
  · simp only [if_pos hv, ExtTreeMap.getElem?_erase, Std.compare_eq_iff_eq]
  · simp only [if_neg hv, ExtTreeMap.getElem?_insert, Std.compare_eq_iff_eq]

theorem entry_settle (m : Ledger κ w) (j k : κ) (v : BitVec w) :
    entry (settle m k v) j = if k = j then v else entry m j := by
  unfold entry
  rw [getElem?_settle]
  split_ifs with hk hv
  · simp [hv]
  · rfl
  · rfl

theorem getElem?_discharge_of_ne {m m' : Ledger κ w} {j k : κ} {b : BitVec w}
    (h : discharge m k b = some m') (hne : k ≠ j) : m'[j]? = m[j]? := by
  obtain ⟨-, rfl⟩ | ⟨v, -, -, rfl⟩ := discharge_cases h
  · rfl
  · rw [getElem?_settle, if_neg hne]

theorem entry_discharge_of_ne {m m' : Ledger κ w} {j k : κ} {b : BitVec w}
    (h : discharge m k b = some m') (hne : k ≠ j) : entry m' j = entry m j := by
  rw [entry, getElem?_discharge_of_ne h hne, entry]

/-- In every case the counter ends no higher than the difference. -/
theorem entry_discharge_le {m m' : Ledger κ w} {k : κ} {b : BitVec w}
    (h : discharge m k b = some m') : (entry m' k).toNat ≤ (entry m k).toNat - b.toNat := by
  obtain ⟨hn, rfl⟩ | ⟨v, hv, hb, rfl⟩ := discharge_cases h
  · simp [entry_of_none hn]
  · rw [entry_settle, if_pos rfl, entry_of_some hv, BitVec.toNat_sub_of_le hb]

/-- When the entry covers the amount, the counter drops by exactly that amount. -/
theorem entry_discharge_self {m m' : Ledger κ w} {k : κ} {b : BitVec w}
    (h : discharge m k b = some m') (hle : b ≤ entry m k) :
    (entry m' k).toNat + b.toNat = (entry m k).toNat := by
  obtain ⟨hn, rfl⟩ | ⟨v, hv, hb, rfl⟩ := discharge_cases h
  · rw [entry_of_none hn] at hle ⊢
    have hb : b.toNat ≤ (0 : BitVec w).toNat := BitVec.le_def.mp hle
    rw [BitVec.ofNat_eq_ofNat, BitVec.toNat_zero] at hb ⊢
    omega
  · rw [entry_settle, if_pos rfl, entry_of_some hv, BitVec.toNat_sub_of_le hb]
    have := BitVec.le_def.mp hb
    omega

/-- Charging without a wrap adds exactly the amount, at its own key only. -/
theorem toNat_entry_charge {m : Ledger κ w} {k : κ} {b : BitVec w} (j : κ)
    (fits : k = j → (entry m k).toNat + b.toNat < 2 ^ w) :
    (entry (charge m k b) j).toNat = (entry m j).toNat + if k = j then b.toNat else 0 := by
  rw [entry_charge]
  split_ifs with hk
  · subst hk
    exact BitVec.toNat_add_of_lt (fits rfl)
  · rfl

/-- A wrap only ever lowers a counter. -/
theorem toNat_entry_charge_le (m : Ledger κ w) (j k : κ) (b : BitVec w) :
    (entry (charge m k b) j).toNat ≤ (entry m j).toNat + if k = j then b.toNat else 0 := by
  rw [entry_charge]
  split_ifs with hk
  · subst hk
    rw [BitVec.toNat_add]
    exact Nat.mod_le _ _
  · exact le_rfl

theorem toNat_entry_discharge_le {m m' : Ledger κ w} {k : κ} {b : BitVec w} (j : κ)
    (h : discharge m k b = some m') :
    (entry m' j).toNat ≤ (entry m j).toNat - if k = j then b.toNat else 0 := by
  split_ifs with hk
  · subst hk
    exact entry_discharge_le h
  · rw [entry_discharge_of_ne h hk, Nat.sub_zero]

theorem toNat_entry_discharge {m m' : Ledger κ w} {k : κ} {b : BitVec w} (j : κ)
    (h : discharge m k b = some m') (covered : k = j → b ≤ entry m k) :
    (entry m' j).toNat + (if k = j then b.toNat else 0) = (entry m j).toNat := by
  split_ifs with hk
  · subst hk
    exact entry_discharge_self h (covered rfl)
  · rw [entry_discharge_of_ne h hk, Nat.add_zero]

/-- An entry survives a discharge of its own key only with a non-zero counter. -/
theorem pos_of_getElem?_discharge {m m' : Ledger κ w} {k : κ} {b v : BitVec w}
    (h : discharge m k b = some m') (hv : m'[k]? = some v) : 0 < v.toNat := by
  obtain ⟨hn, rfl⟩ | ⟨u, -, -, rfl⟩ := discharge_cases h
  · rw [hn] at hv
    cases hv
  · rw [getElem?_settle, if_pos rfl] at hv
    split_ifs at hv with hz
    rw [← Option.some.inj hv]
    exact Nat.pos_of_ne_zero fun hn => hz (BitVec.toNat_inj.mp (by simpa using hn))

end NumaFabric.LedgerCounter
