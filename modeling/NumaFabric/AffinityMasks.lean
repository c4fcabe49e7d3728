import NumaFabric.AffinitySet

/-! What an affinity set stands for: which processors it has, and how many. A set that is built one
processor at a time keeps one mask for each group. -/
namespace NumaFabric

namespace AffinitySet

/-- The first mask of the group. -/
def maskFor (set : AffinitySet) (group : ProcessorGroupId) : U64 :=
  ((set.masks.find? (·.group == group)).map (·.mask)).getD 0

def contains (set : AffinitySet) (group : ProcessorGroupId) (logicalIndex : U32) : Bool :=
  if maxGroupMaskBits ≤ logicalIndex.toNat then false
  else set.maskFor group &&& ((1 : U64) <<< logicalIndex.toNat) != 0

/-- The first mask of the group is changed; a group without a mask gets one, from zero. -/
def updateMask (change : U64 → U64) (masks : List GroupMask) (group : ProcessorGroupId) :
    List GroupMask :=
  match masks with
  | [] => [⟨group, change 0⟩]
  | gm :: rest =>
    if gm.group = group then { gm with mask := change gm.mask } :: rest
    else gm :: updateMask change rest group

/-- The bits set in the masks of all groups. -/
def count (set : AffinitySet) : ℕ := (set.masks.map fun gm => gm.mask.cpop.toNat).sum

end AffinitySet

namespace AffinityMasks
open AffinitySet

section Words
variable {w : ℕ} {x : BitVec w} {j : ℕ}

theorem natCast_one_shiftLeft (j : ℕ) : ((1 <<< j : ℕ) : BitVec w) = BitVec.twoPow w j := by
  apply BitVec.eq_of_toNat_eq
  rw [BitVec.toNat_twoPow, BitVec.natCast_eq_ofNat, BitVec.toNat_ofNat, Nat.one_shiftLeft]

/-- One more bit counts one more. -/
theorem cpopNatRec_or_twoPow (below : j < w) (unset : x.getLsbD j = false) (k : ℕ) :
    (x ||| BitVec.twoPow w j).cpopNatRec k 0 = x.cpopNatRec k 0 + if j < k then 1 else 0 := by
  induction k with
  | zero => simp
  | succ k ih =>
    simp only [BitVec.cpopNatRec_succ, BitVec.cpopNatRec_add, ih, BitVec.getLsbD_or,
      BitVec.getLsbD_twoPow]
    by_cases same : j = k
    · subst same
      simp only [unset]
      simp [below]
    · have : j < k + 1 ↔ j < k := by omega
      simp only [same, decide_false, Bool.and_false, Bool.or_false, this]
      omega

theorem toNat_cpop_or_twoPow (below : j < w) (unset : x.getLsbD j = false) :
    (x ||| BitVec.twoPow w j).cpop.toNat = x.cpop.toNat + 1 := by
  rw [BitVec.toNat_cpop, BitVec.toNat_cpop, cpopNatRec_or_twoPow below unset, if_pos below]

theorem toNat_cpop_twoPow (below : j < w) : (BitVec.twoPow w j).cpop.toNat = 1 := by
  have one := toNat_cpop_or_twoPow (x := 0#w) below BitVec.getLsbD_zero
  rw [BitVec.zero_or, BitVec.cpop_zero, BitVec.toNat_zero, Nat.zero_add] at one
  exact one

end Words

section Masks
variable {masks l : List GroupMask} {g : ProcessorGroupId} {j : ℕ}

/-- Some mask of the group has the bit. -/
def Has (masks : List GroupMask) (g : ProcessorGroupId) (i : ℕ) : Prop :=
  ∃ gm ∈ masks, gm.group = g ∧ gm.mask.getLsbD i = true

/-- No group has two masks. -/
def Single (masks : List GroupMask) : Prop := (masks.map (·.group)).Nodup

theorem has_cons {gm : GroupMask} {i : ℕ} :
    Has (gm :: masks) g i ↔ (gm.group = g ∧ gm.mask.getLsbD i = true) ∨ Has masks g i := by
  simp [Has]

theorem has_perm (same : l.Perm masks) (i : ℕ) : Has l g i ↔ Has masks g i := by
  simp only [Has, same.mem_iff]

/-- Nothing is merged where no group has two masks. -/
theorem mergeGroups_of_single (single : Single masks) : mergeGroups masks = masks := by
  induction masks with
  | nil => rfl
  | cons gm rest ih =>
    obtain ⟨fresh, single⟩ := List.nodup_cons.mp single
    rw [mergeGroups, ih single]
    cases rest with
    | nil => rfl
    | cons head tail =>
      have : head.group ≠ gm.group := by
        rintro same
        exact fresh (by simp [same])
      simp [this]

theorem normalize_perm (single : Single masks) : (AffinitySet.normalize masks).Perm masks := by
  have sorted := List.mergeSort_perm masks fun a b => decide (a.group.value ≤ b.group.value)
  have kept : Single (masks.mergeSort fun a b => decide (a.group.value ≤ b.group.value)) :=
    (sorted.map _).nodup_iff.mpr single
  rw [AffinitySet.normalize, mergeGroups_of_single kept]
  exact sorted

theorem setBit_eq_updateMask (b : U64) : setBit masks g b = updateMask (· ||| b) masks g := by
  induction masks with
  | nil => simp [setBit, updateMask]
  | cons gm rest ih => rw [setBit, updateMask, ih]

theorem mem_groups_updateMask {change : U64 → U64} {k : ProcessorGroupId} :
    k ∈ (updateMask change masks g).map (·.group) ↔ k = g ∨ k ∈ masks.map (·.group) := by
  induction masks with
  | nil => simp [updateMask]
  | cons gm rest ih =>
    rw [updateMask]
    split_ifs with here
    · simp [← here]
    · simp only [List.map_cons, List.mem_cons, ih]
      tauto

theorem single_updateMask {change : U64 → U64} (single : Single masks) :
    Single (updateMask change masks g) := by
  induction masks with
  | nil => simp [Single, updateMask]
  | cons gm rest ih =>
    obtain ⟨fresh, single'⟩ := List.nodup_cons.mp single
    rw [updateMask]
    split_ifs with here
    · exact single
    · refine List.nodup_cons.mpr ⟨?_, ih single'⟩
      rw [mem_groups_updateMask]
      rintro (same | member)
      · exact here same
      · exact fresh member

/-- After the update and the sort, the groups are those of before and the one named. -/
theorem mem_groups_normalize {change : U64 → U64} (single : Single masks) {k : ProcessorGroupId} :
    (∃ gm ∈ AffinitySet.normalize (updateMask change masks g), gm.group = k) ↔
      k = g ∨ ∃ gm ∈ masks, gm.group = k := by
  have same : (AffinitySet.normalize (updateMask change masks g)).Perm (updateMask change masks g) :=
    normalize_perm (single_updateMask single)
  have groups : k ∈ (updateMask change masks g).map (·.group) ↔ k = g ∨ k ∈ masks.map (·.group) :=
    mem_groups_updateMask
  simp only [List.mem_map] at groups
  simp only [same.mem_iff, groups]

theorem has_setBit {b : U64} {k : ProcessorGroupId} {i : ℕ} :
    Has (setBit masks g b) k i ↔ Has masks k i ∨ (g = k ∧ b.getLsbD i = true) := by
  induction masks with
  | nil => simp [setBit, Has]
  | cons gm rest ih =>
    rw [setBit]
    split_ifs with here
    · subst here
      simp only [has_cons, BitVec.getLsbD_or, Bool.or_eq_true]
      tauto
    · simp only [has_cons, ih]
      tauto

theorem count_setBit (below : j < 64) (fresh : ¬ Has masks g j) :
    count ⟨setBit masks g (BitVec.twoPow 64 j)⟩ = count ⟨masks⟩ + 1 := by
  induction masks with
  | nil => simp [setBit, count, toNat_cpop_twoPow below]
  | cons gm rest ih =>
    rw [has_cons, not_or] at fresh
    rw [setBit]
    split_ifs with here
    · have unset : gm.mask.getLsbD j = false := by simpa [here] using fresh.1
      simp only [count, List.map_cons, List.sum_cons, toNat_cpop_or_twoPow below unset]
      omega
    · have := ih fresh.2
      simp only [count, List.map_cons, List.sum_cons] at this ⊢
      omega

theorem count_perm (same : l.Perm masks) : count ⟨l⟩ = count ⟨masks⟩ := (same.map _).sum_eq

theorem getLsbD_maskFor (single : Single masks) (i : ℕ) :
    (maskFor ⟨masks⟩ g).getLsbD i = true ↔ Has masks g i := by
  unfold maskFor
  cases found : masks.find? (·.group == g) with
  | none =>
    have absent := List.find?_eq_none.mp found
    simp only [Option.map_none, Option.getD_none, BitVec.ofNat_eq_ofNat, BitVec.getLsbD_zero,
      Bool.false_eq_true, false_iff]
    rintro ⟨gm, member, rfl, -⟩
    exact absent gm member (by simp)
  | some gm =>
    have member := List.mem_of_find?_eq_some found
    have here : gm.group = g := by simpa using List.find?_some found
    simp only [Option.map_some, Option.getD_some]
    constructor
    · intro bit
      exact ⟨gm, member, here, bit⟩
    · rintro ⟨other, member', here', bit⟩
      rw [List.inj_on_of_nodup_map single member member' (here.trans here'.symm)]
      exact bit

theorem contains_iff (single : Single masks) {i : U32} :
    contains ⟨masks⟩ g i = true ↔ Has masks g i.toNat := by
  rw [← getLsbD_maskFor single, contains]
  split_ifs with past
  · have unset := BitVec.getLsbD_of_ge (maskFor ⟨masks⟩ g) i.toNat past
    simp [unset]
  · have nonzero : BitVec.twoPow 64 i.toNat ≠ 0 := by
      intro zero
      have bit := congrArg (·.getLsbD i.toNat) zero
      simp [maxGroupMaskBits] at bit past
      omega
    rw [BitVec.ofNat_eq_ofNat, ← BitVec.twoPow_eq, BitVec.and_twoPow]
    cases (maskFor ⟨masks⟩ g).getLsbD i.toNat with
    | false => simp
    | true => simpa using nonzero

end Masks

/-- The set has exactly these processors, each by its group and its index. -/
structure Lists (set : AffinitySet) (ps : List (ProcessorGroupId × U32)) : Prop where
  single : Single set.masks
  valid : ∀ gm ∈ set.masks, gm.group.isValid = true
  has : ∀ g (i : U32), Has set.masks g i.toNat ↔ (g, i) ∈ ps
  count : set.count = ps.length

theorem lists_nil : Lists {} [] where
  single := List.nodup_nil
  valid := by simp
  has := by simp [Has]
  count := rfl

section AddProcessor
variable {set : AffinitySet} {g : ProcessorGroupId} {i : U32}

/-- What a valid call leaves: the bit set in the group's mask, and the masks sorted. -/
def withProcessor (set : AffinitySet) (g : ProcessorGroupId) (i : U32) : AffinitySet :=
  ⟨AffinitySet.normalize (setBit set.masks g (BitVec.twoPow 64 i.toNat))⟩

theorem withProcessor_perm (single : Single set.masks) :
    (withProcessor set g i).masks.Perm (setBit set.masks g (BitVec.twoPow 64 i.toNat)) := by
  apply normalize_perm
  rw [setBit_eq_updateMask]
  exact single_updateMask single

theorem single_withProcessor (single : Single set.masks) : Single (withProcessor set g i).masks := by
  have same := withProcessor_perm single (g := g) (i := i)
  refine (same.map _).nodup_iff.mpr ?_
  rw [setBit_eq_updateMask]
  exact single_updateMask single

theorem valid_withProcessor (single : Single set.masks)
    (known : ∀ gm ∈ set.masks, gm.group.isValid = true) (valid : g.isValid = true) :
    ∀ gm ∈ (withProcessor set g i).masks, gm.group.isValid = true := by
  intro gm member
  rw [withProcessor, setBit_eq_updateMask] at member
  rcases (mem_groups_normalize single).mp ⟨gm, member, rfl⟩ with here | ⟨other, member', here⟩
  · rw [here]
    exact valid
  · rw [← here]
    exact known other member'

theorem addProcessor_eq (single : Single set.masks)
    (known : ∀ gm ∈ set.masks, gm.group.isValid = true) (valid : g.isValid = true)
    (below : i.toNat < maxGroupMaskBits) : set.addProcessor g i = .ok (withProcessor set g i) := by
  have after := valid_withProcessor single known valid (i := i)
  rw [AffinitySet.addProcessor, if_neg (Nat.not_le.mpr below), natCast_one_shiftLeft, validate]
  exact if_pos (List.all_eq_true.mpr after)

theorem has_withProcessor (single : Single set.masks) (below : i.toNat < maxGroupMaskBits)
    (k : ProcessorGroupId) (m : U32) :
    Has (withProcessor set g i).masks k m.toNat ↔ Has set.masks k m.toNat ∨ (k, m) = (g, i) := by
  have bit : (BitVec.twoPow 64 i.toNat).getLsbD m.toNat = true ↔ i = m := by
    have small : i.toNat < 64 := below
    rw [BitVec.getLsbD_twoPow, ← BitVec.toNat_inj]
    simp [small]
  rw [has_perm (withProcessor_perm single), has_setBit, bit, Prod.mk.injEq, eq_comm (a := g),
    eq_comm (a := i)]

theorem count_withProcessor (single : Single set.masks) (below : i.toNat < maxGroupMaskBits)
    (fresh : ¬ Has set.masks g i.toNat) : (withProcessor set g i).count = set.count + 1 :=
  (count_perm (withProcessor_perm single)).trans (count_setBit below fresh)

end AddProcessor

/-- A processor the set does not have yet is added, as long as it has a bit in its mask. -/
theorem Lists.addProcessor {set : AffinitySet} {ps : List (ProcessorGroupId × U32)}
    {g : ProcessorGroupId} {i : U32} (h : Lists set ps) (valid : g.isValid = true)
    (below : i.toNat < maxGroupMaskBits) (fresh : (g, i) ∉ ps) :
    ∃ set', set.addProcessor g i = .ok set' ∧ Lists set' (ps ++ [(g, i)]) := by
  refine ⟨withProcessor set g i, addProcessor_eq h.single h.valid valid below,
    single_withProcessor h.single, valid_withProcessor h.single h.valid valid, ?_, ?_⟩
  · intro k m
    rw [has_withProcessor h.single below, h.has, List.mem_append, List.mem_singleton]
  · rw [count_withProcessor h.single below (by rwa [h.has]), h.count, List.length_append,
      List.length_singleton]

end AffinityMasks

end NumaFabric
