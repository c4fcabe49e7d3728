import Mathlib

/-! Sums over the entries of an ordered map: what a sum becomes when one entry is
added, replaced or rewritten. -/
namespace NumaFabric.LedgerTotal
open Std

variable {κ ν μ : Type} [Ord κ] [TransOrd κ] [LawfulEqOrd κ]

def total (f : κ → ν → ℕ) (m : ExtTreeMap κ ν) : ℕ := (m.toList.map fun p => f p.1 p.2).sum

omit [LawfulEqOrd κ] in
theorem toList_nodup (m : ExtTreeMap κ ν) : m.toList.Nodup := by
  refine (ExtTreeMap.distinct_keys_toList (t := m)).imp ?_
  rintro a b hab rfl
  exact hab ReflCmp.compare_self

theorem toList_insert_perm {m : ExtTreeMap κ ν} {k : κ} (v : ν) (h : m[k]? = none) :
    (m.insert k v).toList.Perm ((k, v) :: m.toList) := by
  have hk : ∀ w, (k, w) ∉ m.toList := by
    intro w hw
    rw [ExtTreeMap.mem_toList_iff_getElem?_eq_some, h] at hw
    cases hw
  refine (List.perm_ext_iff_of_nodup (toList_nodup _)
    (List.nodup_cons.mpr ⟨hk v, toList_nodup m⟩)).mpr ?_
  rintro ⟨j, w⟩
  rw [List.mem_cons, ExtTreeMap.mem_toList_iff_getElem?_eq_some,
    ExtTreeMap.mem_toList_iff_getElem?_eq_some, ExtTreeMap.getElem?_insert]
  by_cases hjk : k = j
  · subst hjk
    simp [h, eq_comm]
  · have hc : compare k j ≠ .eq := fun hc => hjk (LawfulEqCmp.eq_of_compare hc)
    simp [hc, Ne.symm hjk]

theorem total_insert_of_none (f : κ → ν → ℕ) {m : ExtTreeMap κ ν} {k : κ} (v : ν)
    (h : m[k]? = none) : total f (m.insert k v) = total f m + f k v := by
  unfold total
  rw [((toList_insert_perm v h).map _).sum_eq, List.map_cons, List.sum_cons, Nat.add_comm]

theorem insert_erase (m : ExtTreeMap κ ν) (k : κ) (v : ν) :
    (m.erase k).insert k v = m.insert k v := by
  apply ExtTreeMap.ext_getElem?
  intro j
  simp only [ExtTreeMap.getElem?_insert, ExtTreeMap.getElem?_erase]
  split_ifs <;> rfl

@[simp] theorem insert_insert (m : ExtTreeMap κ ν) (k : κ) (v w : ν) :
    (m.insert k v).insert k w = m.insert k w := by
  apply ExtTreeMap.ext_getElem?
  intro j
  simp only [ExtTreeMap.getElem?_insert]
  split_ifs <;> rfl

theorem insert_getElem? {m : ExtTreeMap κ ν} {k : κ} {v : ν} (h : m[k]? = some v) :
    m.insert k v = m := by
  apply ExtTreeMap.ext_getElem?
  intro j
  rw [ExtTreeMap.getElem?_insert]
  split_ifs with hc
  · rw [← LawfulEqCmp.eq_of_compare hc, h]
  · rfl

theorem total_erase (f : κ → ν → ℕ) {m : ExtTreeMap κ ν} {k : κ} {v : ν} (h : m[k]? = some v) :
    total f (m.erase k) + f k v = total f m := by
  have he : (m.erase k)[k]? = none := by simp
  rw [← total_insert_of_none f v he, insert_erase, insert_getElem? h]

/-- Replacing an entry moves the sum by exactly the difference of the two values. -/
theorem total_insert_of_some (f : κ → ν → ℕ) {m : ExtTreeMap κ ν} {k : κ} {w : ν} (v : ν)
    (h : m[k]? = some w) : total f (m.insert k v) + f k w = total f m + f k v := by
  have he : (m.erase k)[k]? = none := by simp
  have hi := total_insert_of_none f v he
  rw [insert_erase] at hi
  have := total_erase f h
  omega

/-- A value that counts for nothing, over one that counted for nothing. -/
theorem total_insert_of_zero (f : κ → ν → ℕ) {m : ExtTreeMap κ ν} {k : κ} {v : ν}
    (new : f k v = 0) (old : ∀ w, m[k]? = some w → f k w = 0) :
    total f (m.insert k v) = total f m := by
  cases h : m[k]? with
  | none => rw [total_insert_of_none f v h, new, Nat.add_zero]
  | some w =>
    have sum := total_insert_of_some f v h
    rw [old w h, new] at sum
    exact sum

theorem le_total (f : κ → ν → ℕ) {m : ExtTreeMap κ ν} {k : κ} {v : ν} (h : m[k]? = some v) :
    f k v ≤ total f m := by
  have := total_erase f h
  omega

theorem total_congr {f g : κ → ν → ℕ} {m : ExtTreeMap κ ν}
    (h : ∀ k v, m[k]? = some v → f k v = g k v) : total f m = total g m := by
  unfold total
  congr 1
  apply List.map_congr_left
  rintro ⟨k, v⟩ hm
  exact h k v (ExtTreeMap.mem_toList_iff_getElem?_eq_some.mp hm)

omit [LawfulEqOrd κ] in
theorem total_map (f : κ → μ → ℕ) (g : κ → ν → μ) (m : ExtTreeMap κ ν) :
    total f (m.map g) = total (fun k v => f k (g k v)) m := by
  simp [total, ExtTreeMap.toList_map, Function.comp_def]

theorem total_eq_zero {f : κ → ν → ℕ} {m : ExtTreeMap κ ν}
    (h : ∀ k v, m[k]? = some v → f k v = 0) : total f m = 0 := by
  rw [total_congr h]
  simp [total]

theorem total_empty (f : κ → ν → ℕ) : total f (∅ : ExtTreeMap κ ν) = 0 :=
  total_eq_zero fun k v h => by simp at h

theorem total_pos {f : κ → ν → ℕ} {m : ExtTreeMap κ ν} (h : 0 < total f m) :
    ∃ k v, m[k]? = some v ∧ 0 < f k v := by
  by_contra hc
  push Not at hc
  have : total f m = 0 := total_eq_zero fun k v hk => Nat.le_zero.mp (hc k v hk)
  omega

omit [LawfulEqOrd κ] in
theorem total_filter (f : κ → ν → ℕ) (m : ExtTreeMap κ ν) :
    total f (m.filter fun k v => f k v != 0) = total f m := by
  unfold total
  rw [ExtTreeMap.toList_filter]
  generalize m.toList = l
  induction l with
  | nil => rfl
  | cons p l ih =>
    rw [List.filter_cons]
    split_ifs with counts
    · rw [List.map_cons, List.sum_cons, List.map_cons, List.sum_cons, ih]
    · have zero : f p.1 p.2 = 0 := by simpa using counts
      rw [ih, List.map_cons, List.sum_cons, zero, Nat.zero_add]

/-- A sum depends only on the entries that add to it. -/
theorem total_congr_of_counted {f : κ → ν → ℕ} {m m' : ExtTreeMap κ ν}
    (h : ∀ (k : κ) v, f k v ≠ 0 → (m[k]? = some v ↔ m'[k]? = some v)) : total f m = total f m' := by
  have same : (m.filter fun k v => f k v != 0) = m'.filter fun k v => f k v != 0 := by
    apply ExtTreeMap.ext_getElem?
    intro k
    apply Option.ext
    intro v
    simp only [ExtTreeMap.getElem?_filter', Option.filter_eq_some_iff, bne_iff_ne, ne_eq]
    constructor
    · rintro ⟨found, counts⟩
      exact ⟨(h k v counts).mp found, counts⟩
    · rintro ⟨found, counts⟩
      exact ⟨(h k v counts).mpr found, counts⟩
  rw [← total_filter f m, same, total_filter]

/-- A sum over the entries is a sum over any set of keys that agrees with the entries
and misses only zeros. -/
theorem total_eq_sum [DecidableEq κ] {f : κ → ν → ℕ} {m : ExtTreeMap κ ν} (g : κ → ℕ)
    (N : Finset κ) (agree : ∀ k v, m[k]? = some v → f k v = g k)
    (outside : ∀ k, k ∉ N → g k = 0) (absent : ∀ k, m[k]? = none → g k = 0) :
    total f m = ∑ k ∈ N, g k := by
  have hkeys : total f m = ∑ k ∈ m.keys.toFinset, g k := by
    rw [List.sum_toFinset g ExtTreeMap.nodup_keys, ← ExtTreeMap.map_fst_toList_eq_keys,
      List.map_map, total_congr agree, total]
    rfl
  rw [hkeys]
  refine Finset.sum_congr_of_eq_on_inter (fun k _ hk => outside k hk) (fun k _ hk => ?_)
    fun k _ _ => rfl
  apply absent
  rw [List.mem_toFinset, ExtTreeMap.mem_keys] at hk
  exact ExtTreeMap.getElem?_eq_none hk

omit [LawfulEqOrd κ] in
/-- A machine sum of the entries is their exact sum modulo the width. -/
theorem toNat_foldl_add {w : ℕ} (m : ExtTreeMap κ (BitVec w)) :
    (m.foldl (fun t _ b => t + b) 0).toNat = total (fun _ (b : BitVec w) => b.toNat) m % 2 ^ w := by
  rw [ExtTreeMap.foldl_eq_foldl_toList, total]
  generalize m.toList = l
  have hl : ∀ t : BitVec w, (l.foldl (fun t p => t + p.2) t).toNat =
      (t.toNat + (l.map fun p => p.2.toNat).sum) % 2 ^ w := by
    induction l with
    | nil => intro t; simp [Nat.mod_eq_of_lt t.isLt]
    | cons p l ih =>
      intro t
      rw [List.foldl_cons, ih, List.map_cons, List.sum_cons, BitVec.toNat_add, Nat.mod_add_mod,
        Nat.add_assoc]
  rw [hl]
  simp

end NumaFabric.LedgerTotal
