import Mathlib

/-! Ordered maps whose values carry their own key, read as lists of records. -/
namespace NumaFabric.KeyedTable
open Std

variable {κ ν μ : Type} {key : ν → κ}

/-- The records a lookup finds are those of the list, each under its own key. -/
def Lists (key : ν → κ) (lookup : κ → Option ν) (xs : List ν) : Prop :=
  ∀ k v, lookup k = some v ↔ v ∈ xs ∧ key v = k

theorem Lists.none_of_forall {lookup : κ → Option ν} {xs : List ν} (h : Lists key lookup xs) {k : κ}
    (absent : ∀ x ∈ xs, key x ≠ k) : lookup k = none := by
  cases hk : lookup k with
  | none => rfl
  | some v =>
    obtain ⟨mem, same⟩ := (h k v).mp hk
    exact absurd same (absent v mem)

theorem Lists.filter {lookup : κ → Option ν} {xs : List ν} (h : Lists key lookup xs)
    (p : ν → Bool) : Lists key (fun k => (lookup k).filter p) (xs.filter p) := by
  intro k v
  simp only [Option.filter_eq_some_iff, List.mem_filter, h k v]
  tauto

/-- Two tables that list the same records up to a change of form agree at every key. -/
theorem Lists.lookup_map {lookup : κ → Option ν} {lookup' : κ → Option μ} {key' : μ → κ}
    {xs : List ν} {f : ν → μ} (h : Lists key lookup xs) (h' : Lists key' lookup' (xs.map f))
    (same : ∀ v, key' (f v) = key v) (k : κ) : lookup' k = (lookup k).map f := by
  cases hk : lookup k with
  | some v =>
    obtain ⟨mem, eq⟩ := (h k v).mp hk
    exact (h' k (f v)).mpr ⟨List.mem_map_of_mem mem, (same v).trans eq⟩
  | none =>
    refine h'.none_of_forall ?_
    rintro y hy rfl
    obtain ⟨v, mem, rfl⟩ := List.mem_map.mp hy
    rw [(h _ v).mpr ⟨mem, (same v).symm⟩] at hk
    cases hk

section Map
variable [Ord κ] [TransOrd κ]

theorem values_eq (m : ExtTreeMap κ ν) : m.values = m.toList.map Prod.snd := by
  obtain ⟨⟨m⟩⟩ := m
  induction m using Quotient.inductionOn with
  | _ m =>
    change m.inner.values = (DTreeMap.Internal.Impl.Const.toList m.inner).map Prod.snd
    rw [DTreeMap.Internal.Impl.values_eq_map_snd,
      DTreeMap.Internal.Impl.Const.toList_eq_toListModel_map, List.map_map]
    rfl

theorem lists_empty : Lists key ((∅ : ExtTreeMap κ ν)[·]?) [] := by
  intro k v
  simp

variable [LawfulEqOrd κ]

theorem mem_values {m : ExtTreeMap κ ν} {v : ν} : v ∈ m.values ↔ ∃ k : κ, m[k]? = some v := by
  rw [values_eq, List.mem_map]
  constructor
  · rintro ⟨⟨k, w⟩, mem, rfl⟩
    exact ⟨k, ExtTreeMap.mem_toList_iff_getElem?_eq_some.mp mem⟩
  · rintro ⟨k, hk⟩
    exact ⟨(k, v), ExtTreeMap.mem_toList_iff_getElem?_eq_some.mpr hk, rfl⟩

theorem lists_values {m : ExtTreeMap κ ν} (keyed : ∀ (k : κ) v, m[k]? = some v → key v = k) :
    Lists key (m[·]?) m.values := by
  intro k v
  rw [mem_values]
  constructor
  · intro hk
    exact ⟨⟨k, hk⟩, keyed k v hk⟩
  · rintro ⟨⟨j, hj⟩, rfl⟩
    rw [keyed j v hj]
    exact hj

theorem nodup_keys_values {m : ExtTreeMap κ ν}
    (keyed : ∀ (k : κ) v, m[k]? = some v → key v = k) : (m.values.map key).Nodup := by
  have keys : m.values.map key = m.keys := by
    rw [values_eq, List.map_map, ← ExtTreeMap.map_fst_toList_eq_keys]
    refine List.map_congr_left ?_
    rintro ⟨k, v⟩ mem
    exact keyed k v (ExtTreeMap.mem_toList_iff_getElem?_eq_some.mp mem)
  rw [keys]
  exact ExtTreeMap.nodup_keys

theorem Lists.insert {m : ExtTreeMap κ ν} {xs : List ν} (h : Lists key (m[·]?) xs)
    {x : ν} (fresh : key x ∉ xs.map key) :
    Lists key ((m.insert (key x) x)[·]?) (xs ++ [x]) := by
  intro k v
  dsimp only
  rw [ExtTreeMap.getElem?_insert, List.mem_append, List.mem_singleton]
  split_ifs with hc
  · have hk : key x = k := LawfulEqCmp.eq_of_compare hc
    constructor
    · rintro ⟨⟩
      exact ⟨.inr rfl, hk⟩
    · rintro ⟨mem | rfl, hv⟩
      · exact absurd (List.mem_map.mpr ⟨v, mem, hv.trans hk.symm⟩) fresh
      · rfl
  · have hne : key x ≠ k := fun e => hc (Std.compare_eq_iff_eq.mpr e)
    rw [h k v]
    constructor
    · rintro ⟨mem, hv⟩
      exact ⟨.inl mem, hv⟩
    · rintro ⟨mem | rfl, hv⟩
      · exact ⟨mem, hv⟩
      · exact absurd hv hne

end Map

end NumaFabric.KeyedTable
