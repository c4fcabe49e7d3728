import Mathlib

/-! Lists sorted by a key: a permutation does not change the sorted list, a search by halving finds
what is in it, and lists kept apart by key make up the whole. -/
namespace NumaFabric.SortedLists

section Halving
variable {α : Type} (below : α → Bool)

/-- The loop of `std::lower_bound`: of the `len` elements from `first` on, the half that cannot hold
the border is dropped. -/
def partitionPoint (l : List α) (first len : ℕ) : ℕ :=
  if len = 0 then first
  else
    let half := len / 2
    if l[first + half]?.any below then partitionPoint l (first + half + 1) (len - half - 1)
    else partitionPoint l first half
termination_by len

/-- Everything before the range is below the border, and nothing behind it is. -/
structure Narrowed (l : List α) (first len : ℕ) : Prop where
  bounded : first + len ≤ l.length
  before : ∀ i (h : i < l.length), i < first → below l[i] = true
  behind : ∀ i (h : i < l.length), first + len ≤ i → below l[i] = false

variable {below} {l : List α}

theorem below_of_le (split : l.Pairwise fun a b => below b = true → below a = true) {i j : ℕ}
    (le : i ≤ j) (h : j < l.length) (here : below l[j] = true) : below l[i] = true := by
  rcases Nat.lt_or_eq_of_le le with lt | rfl
  · exact List.pairwise_iff_getElem.mp split i j (by omega) h lt here
  · exact here

theorem partitionPoint_narrowed (split : l.Pairwise fun a b => below b = true → below a = true)
    {first len : ℕ} (inv : Narrowed below l first len) :
    Narrowed below l (partitionPoint below l first len) 0 := by
  induction len using Nat.strong_induction_on generalizing first with
  | _ len ih =>
    unfold partitionPoint
    split_ifs with empty
    · subst empty
      exact inv
    · have inside : first + len / 2 < l.length := by
        have := inv.bounded
        omega
      have middle : l[first + len / 2]?.any below = below l[first + len / 2] := by
        rw [List.getElem?_eq_getElem inside, Option.any_some]
      simp only [middle]
      split_ifs with left
      · refine ih _ (by omega) ⟨?_, ?_, ?_⟩
        · have := inv.bounded
          omega
        · intro i h lt
          exact below_of_le split (by omega) inside left
        · intro i h le
          exact inv.behind i h (by omega)
      · refine ih _ (by omega) ⟨by omega, inv.before, ?_⟩
        intro i h le
        by_contra here
        exact left (below_of_le split le h (by simpa using here))

/-- The border lies at the position that is found. -/
theorem below_iff_lt_partitionPoint (split : l.Pairwise fun a b => below b = true → below a = true)
    {i : ℕ} (h : i < l.length) : below l[i] = true ↔ i < partitionPoint below l 0 l.length := by
  have start : Narrowed below l 0 l.length := by
    refine ⟨by omega, ?_, ?_⟩
    · intro i _ lt
      omega
    · intro i h le
      omega
  have narrowed := partitionPoint_narrowed split start
  constructor
  · intro here
    by_contra behind
    rw [narrowed.behind i h (by omega)] at here
    cases here
  · exact narrowed.before i h

end Halving

section Keyed
variable {α κ : Type} [LE κ] [LT κ] [DecidableLT κ] [Std.LawfulOrderLT κ] [Std.IsLinearOrder κ]
variable (key : α → κ)

/-- `std::binary_search`: the first element that is not less, if it is not greater either. -/
def binarySearch (l : List α) (x : α) : Bool :=
  l[partitionPoint (fun a => decide (key a < key x)) l 0 l.length]?.any fun a => !decide (key x < key a)

variable {key}

theorem pairwise_below {l : List α} (sorted : l.Pairwise fun a b => key a ≤ key b) (x : α) :
    l.Pairwise fun a b => decide (key b < key x) = true → decide (key a < key x) = true := by
  refine sorted.imp ?_
  intro a b le lt
  simp only [decide_eq_true_eq] at lt ⊢
  exact Std.lt_of_le_of_lt le lt

/-- `std::lower_bound` in a sorted list stops at a key that is there. -/
theorem getElem?_partitionPoint {l : List α} (sorted : l.Pairwise fun a b => key a ≤ key b) {a x : α}
    (mem : a ∈ l) (same : key a = key x) :
    ∃ b ∈ l, l[partitionPoint (fun a => decide (key a < key x)) l 0 l.length]? = some b ∧
      key b = key x := by
  have border := fun i h => below_iff_lt_partitionPoint (pairwise_below sorted x) (i := i) h
  simp only [decide_eq_true_eq] at border
  generalize partitionPoint (fun a => decide (key a < key x)) l 0 l.length = point at border ⊢
  obtain ⟨i, h, rfl⟩ := List.mem_iff_getElem.mp mem
  have behind : point ≤ i := by
    by_contra before
    have lt := (border i h).mpr (by omega)
    rw [same] at lt
    exact Std.lt_irrefl lt
  have inside : point < l.length := by omega
  have most : key l[point] ≤ key x := by
    rw [← same]
    rcases Nat.lt_or_eq_of_le behind with lt | rfl
    · exact List.pairwise_iff_getElem.mp sorted point i inside h lt
    · exact Std.le_refl _
  have least : ¬ key l[point] < key x := by
    rw [border point inside]
    omega
  exact ⟨l[point], List.getElem_mem inside, List.getElem?_eq_getElem inside,
    Std.le_antisymm most (Std.not_lt.mp least)⟩

/-- In a sorted list the search finds a key exactly when an element has it. -/
theorem binarySearch_iff {l : List α} (sorted : l.Pairwise fun a b => key a ≤ key b) (x : α) :
    binarySearch key l x = true ↔ ∃ a ∈ l, key a = key x := by
  unfold binarySearch
  constructor
  · intro found
    have border := fun i h => below_iff_lt_partitionPoint (pairwise_below sorted x) (i := i) h
    simp only [decide_eq_true_eq] at border
    generalize partitionPoint (fun a => decide (key a < key x)) l 0 l.length = point at border found
    by_cases inside : point < l.length
    · have least : ¬ key l[point] < key x := by
        rw [border point inside]
        omega
      have greatest : ¬ key x < key l[point] := by
        rw [List.getElem?_eq_getElem inside] at found
        simpa using found
      exact ⟨l[point], List.getElem_mem inside, Std.le_antisymm (Std.not_lt.mp greatest)
        (Std.not_lt.mp least)⟩
    · rw [List.getElem?_eq_none (by omega)] at found
      cases found
  · rintro ⟨a, mem, same⟩
    obtain ⟨b, -, found, equal⟩ := getElem?_partitionPoint sorted mem same
    rw [found, Option.any_some, equal]
    simpa using Std.lt_irrefl

end Keyed

section Sorting
variable {α β κ : Type} [LE κ] [DecidableLE κ]

/-- The elements in ascending order of their keys. -/
def sortBy (key : α → κ) (l : List α) : List α := l.insertionSort fun a b => key a ≤ key b

variable {key : α → κ} {l l' : List α}

theorem sortBy_perm : (sortBy key l).Perm l := List.perm_insertionSort _ l

@[simp] theorem mem_sortBy {a : α} : a ∈ sortBy key l ↔ a ∈ l := List.mem_insertionSort _

theorem sortBy_of_sorted (sorted : l.Pairwise fun a b => key a ≤ key b) : sortBy key l = l :=
  sorted.insertionSort_eq

theorem sortBy_map {key' : β → κ} (f : α → β) (same : ∀ a, key' (f a) = key a) :
    (sortBy key l).map f = sortBy key' (l.map f) := by
  refine List.map_insertionSort _ _ f l ?_
  intro a _ b _
  rw [same, same]

variable [Std.IsLinearOrder κ]

theorem sortBy_sorted : (sortBy key l).Pairwise fun a b => key a ≤ key b := by
  have total : Std.Total fun a b : α => key a ≤ key b := ⟨fun _ _ => Std.le_total⟩
  have trans : IsTrans α fun a b => key a ≤ key b := ⟨fun _ _ _ => Std.le_trans⟩
  exact List.pairwise_insertionSort _ l

theorem sortBy_sortBy : sortBy key (sortBy key l) = sortBy key l := sortBy_of_sorted sortBy_sorted

/-- Distinct keys leave no choice of the order. -/
theorem sortBy_congr (perm : l.Perm l') (distinct : (l.map key).Nodup) :
    sortBy key l = sortBy key l' := by
  refine List.Perm.eq_of_pairwise ?_ sortBy_sorted sortBy_sorted
    (sortBy_perm.trans (perm.trans sortBy_perm.symm))
  intro a b ha hb le ge
  rw [mem_sortBy] at ha hb
  exact List.inj_on_of_nodup_map distinct ha (perm.mem_iff.mpr hb) (Std.le_antisymm le ge)

/-- Distinct keys ascend strictly. -/
theorem sortBy_strict [LT κ] [Std.LawfulOrderLT κ] (distinct : (l.map key).Nodup) :
    (sortBy key l).Pairwise fun a b => key a < key b := by
  have apart : ((sortBy key l).map key).Nodup := ((sortBy_perm.map key).nodup_iff).mpr distinct
  refine (sortBy_sorted.and (List.pairwise_map.mp apart)).imp ?_
  rintro a b ⟨le, ne⟩
  exact Std.lt_of_le_of_ne le ne

end Sorting

section Repeats
variable {α : Type} [DecidableEq α] {a x : α} {l : List α}

theorem mem_destutter'_ne : x ∈ l.destutter' (· ≠ ·) a ↔ x = a ∨ x ∈ l := by
  induction l generalizing a with
  | nil => simp [List.destutter']
  | cons b l ih =>
    rw [List.destutter'_cons]
    split_ifs with differ
    · rw [List.mem_cons, ih, List.mem_cons]
    · rw [ih, List.mem_cons, not_not.mp differ]
      tauto

/-- `std::unique` drops repetitions only. -/
theorem mem_destutter_ne : x ∈ l.destutter (· ≠ ·) ↔ x ∈ l := by
  cases l with
  | nil => simp
  | cons a l => rw [List.destutter_cons', mem_destutter'_ne, List.mem_cons]

end Repeats

section Parts
variable {α κ : Type} [DecidableEq κ] {key : α → κ}

/-- The parts of a list, one for each key that occurs in it, make up the list. -/
theorem flatMap_filter_perm {keys : List κ} (distinct : keys.Nodup) :
    ∀ {l : List α}, (∀ a ∈ l, key a ∈ keys) →
      (keys.flatMap fun k => l.filter fun a => key a == k).Perm l := by
  induction keys with
  | nil =>
    intro l cover
    cases l with
    | nil => simp
    | cons a l => simpa using cover a
  | cons k keys ih =>
    intro l cover
    obtain ⟨fresh, distinct⟩ := List.nodup_cons.mp distinct
    have rest : (keys.flatMap fun k' => l.filter fun a => key a == k') =
        keys.flatMap fun k' => (l.filter fun a => !(key a == k)).filter fun a => key a == k' := by
      refine List.flatMap_congr ?_
      intro k' mem
      rw [List.filter_filter]
      refine List.filter_congr ?_
      intro a _
      have ne : k' ≠ k := by
        rintro rfl
        exact fresh mem
      by_cases here : key a = k'
      · simp [here, ne]
      · simp [here]
    rw [List.flatMap_cons, rest]
    refine (List.Perm.append_left _ (ih distinct ?_)).trans (List.filter_append_perm _ l)
    intro a mem
    obtain ⟨mem, ne⟩ := List.mem_filter.mp mem
    exact (List.mem_cons.mp (cover a mem)).resolve_left (by simpa using ne)

end Parts

end NumaFabric.SortedLists
