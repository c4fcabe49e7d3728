import NumaFabric.AffinityMasks
import NumaFabric.SortedLists

/-! The affinity set as an object that is updated in place. A call that is refused has
already written, so a group it refuses stays; calls that are not refused make a set in
which neither their order nor their number shows. -/
namespace NumaFabric.AffinityUpdates
open FaultState AffinitySet AffinityMasks

/-- `validate` on the object. -/
def check : Fault Exn AffinitySet Unit := do
  throwIf (!(← get).masks.all fun gm => gm.group.isValid) .invalidAffinity

def setMask (group : ProcessorGroupId) (mask : U64) : Fault Exn AffinitySet Unit := do
  modify fun s => ⟨AffinitySet.normalize (updateMask (fun _ => mask) s.masks group)⟩
  check

def addProcessor (group : ProcessorGroupId) (logicalIndex : U32) : Fault Exn AffinitySet Unit := do
  throwIf (decide (maxGroupMaskBits ≤ logicalIndex.toNat)) .invalidAffinity
  modify fun s => ⟨AffinitySet.normalize (setBit s.masks group (1#64 <<< logicalIndex.toNat))⟩
  check

def OnlyValid (set : AffinitySet) : Prop := ∀ gm ∈ set.masks, gm.group.isValid = true

instance (set : AffinitySet) : Decidable (OnlyValid set) := inferInstanceAs (Decidable (∀ _ ∈ _, _))

theorem run_check (set : AffinitySet) :
    check.run set = if OnlyValid set then .ok () set else .error .invalidAffinity set := by
  change (throwIf _ _ : Fault Exn AffinitySet Unit).run set = _
  rw [run_throwIf]
  by_cases valid : OnlyValid set
  · rw [if_pos valid, List.all_eq_true.mpr valid]
    rfl
  · have some : (set.masks.all fun gm => gm.group.isValid) = false := by
      rw [Bool.eq_false_iff, ne_eq, List.all_eq_true]
      exact valid
    rw [if_neg valid, some]
    rfl

/-- The call on an object and the call that returns a new set accept the same, with the same
result. -/
theorem addProcessor_eq_ok_iff {set t : AffinitySet} {g : ProcessorGroupId} {i : U32} :
    (addProcessor g i).run set = .ok () t ↔ set.addProcessor g i = .ok t := by
  rw [addProcessor, AffinitySet.addProcessor, validate, natCast_one_shiftLeft, BitVec.twoPow_eq]
  by_cases high : maxGroupMaskBits ≤ i.toNat
  · rw [if_pos high, decide_eq_true high, run_bind_of_error (run_throwIf_true _ _)]
    simp
  · rw [if_neg high, decide_eq_false high, run_bind_of_ok (run_throwIf_false _ _)]
    change check.run ⟨AffinitySet.normalize (setBit set.masks g (1#64 <<< i.toNat))⟩ = _ ↔ _
    by_cases valid : OnlyValid ⟨AffinitySet.normalize (setBit set.masks g (1#64 <<< i.toNat))⟩
    · rw [run_check, if_pos valid, if_pos (List.all_eq_true.mpr valid)]
      simp
    · rw [run_check, if_neg valid, if_neg (fun all => valid (List.all_eq_true.mp all))]
      simp

section Sets

/-- The set has exactly these processors and one form. -/
structure Represents (set : AffinitySet) (ps : Finset (ProcessorGroupId × U32)) : Prop where
  sorted : set.masks.Pairwise fun a b => a.group.value < b.group.value
  valid : OnlyValid set
  nonzero : ∀ gm ∈ set.masks, gm.mask ≠ 0
  has : ∀ g (i : U32), Has set.masks g i.toNat ↔ (g, i) ∈ ps
  count : set.count = ps.card

variable {set set' : AffinitySet} {ps : Finset (ProcessorGroupId × U32)} {g : ProcessorGroupId}
  {i : U32}

theorem single_of_sorted {masks : List GroupMask}
    (sorted : masks.Pairwise fun a b => a.group.value < b.group.value) : Single masks := by
  refine List.pairwise_map.mpr (sorted.imp ?_)
  intro a b less same
  rw [same] at less
  exact (BitVec.lt_irrefl _) less

theorem Represents.single (h : Represents set ps) : Single set.masks := single_of_sorted h.sorted

theorem represents_empty : Represents {} ∅ where
  sorted := .nil
  valid := by simp [OnlyValid]
  nonzero := by simp
  has := by simp [Has]
  count := rfl

theorem normalize_sorted {masks : List GroupMask} (single : Single masks) :
    (AffinitySet.normalize masks).Pairwise fun a b => a.group.value < b.group.value := by
  have apart : Single (AffinitySet.normalize masks) :=
    ((normalize_perm single).map _).nodup_iff.mpr single
  have kept : Single (masks.mergeSort fun a b => decide (a.group.value ≤ b.group.value)) :=
    ((List.mergeSort_perm _ _).map _).nodup_iff.mpr single
  have trans : ∀ a b c : GroupMask, decide (a.group.value ≤ b.group.value) →
      decide (b.group.value ≤ c.group.value) → decide (a.group.value ≤ c.group.value) := by
    intro a b c
    simpa using BitVec.le_trans
  have total : ∀ a b : GroupMask,
      decide (a.group.value ≤ b.group.value) || decide (b.group.value ≤ a.group.value) := by
    intro a b
    simpa using BitVec.le_total _ _
  have sorted := List.pairwise_mergeSort trans total masks
  rw [← mergeGroups_of_single kept] at sorted
  refine (List.Pairwise.and sorted (List.pairwise_map.mp apart)).imp ?_
  rintro a b ⟨le, ne⟩
  have le : a.group.value ≤ b.group.value := by simpa using le
  exact Std.lt_of_le_of_ne le fun same => ne (by rw [← Id.mk.injEq] at same; exact same)

theorem nonzero_setBit {masks : List GroupMask} {b : U64} (nonzero : ∀ gm ∈ masks, gm.mask ≠ 0)
    (bit : b ≠ 0) : ∀ gm ∈ setBit masks g b, gm.mask ≠ 0 := by
  induction masks with
  | nil => simpa [setBit] using bit
  | cons gm rest ih =>
    rw [List.forall_mem_cons] at nonzero
    rw [setBit]
    split_ifs with here
    · rw [List.forall_mem_cons]
      refine ⟨?_, nonzero.2⟩
      intro zero
      exact bit (BitVec.or_eq_zero_iff.mp zero).2
    · rw [List.forall_mem_cons]
      exact ⟨nonzero.1, ih nonzero.2⟩

/-- A bit that is there already changes nothing. -/
theorem setBit_of_has {masks : List GroupMask} {j : ℕ} (single : Single masks) (has : Has masks g j) :
    setBit masks g (BitVec.twoPow 64 j) = masks := by
  induction masks with
  | nil => simp [Has] at has
  | cons gm rest ih =>
    obtain ⟨fresh, single'⟩ := List.nodup_cons.mp single
    rw [has_cons] at has
    rw [setBit]
    split_ifs with here
    · have bit : gm.mask.getLsbD j = true := by
        rcases has with ⟨-, bit⟩ | ⟨other, member, same, -⟩
        · exact bit
        · have known := List.mem_map_of_mem (f := (·.group)) member
          rw [same, ← here] at known
          exact absurd known fresh
      have kept : gm.mask ||| BitVec.twoPow 64 j = gm.mask := by
        apply BitVec.eq_of_getLsbD_eq
        intro k hk
        rw [BitVec.getLsbD_or, BitVec.getLsbD_twoPow]
        by_cases same : j = k
        · simp [← same, bit]
        · simp [same]
      rw [kept]
    · rw [ih single' (has.resolve_left fun first => here first.1)]

theorem twoPow_ne_zero {j : ℕ} (below : j < 64) : BitVec.twoPow 64 j ≠ 0 := by
  intro zero
  have bit := congrArg (·.getLsbD j) zero
  simp [below] at bit

theorem count_withProcessor_of_has (single : Single set.masks) (has : Has set.masks g i.toNat) :
    (withProcessor set g i).count = set.count := by
  have same := count_perm (withProcessor_perm single (g := g) (i := i))
  rwa [setBit_of_has single has] at same

theorem Represents.withProcessor (h : Represents set ps) (valid : g.isValid = true)
    (below : i.toNat < maxGroupMaskBits) :
    Represents (AffinityMasks.withProcessor set g i) (insert (g, i) ps) where
  sorted := by
    apply normalize_sorted
    rw [setBit_eq_updateMask]
    exact single_updateMask h.single
  valid := valid_withProcessor h.single h.valid valid
  nonzero := by
    intro gm member
    rw [(withProcessor_perm h.single).mem_iff] at member
    exact nonzero_setBit h.nonzero (twoPow_ne_zero below) gm member
  has := by
    intro k m
    rw [has_withProcessor h.single below, h.has, Finset.mem_insert, or_comm]
  count := by
    by_cases known : (g, i) ∈ ps
    · rw [count_withProcessor_of_has h.single ((h.has g i).mpr known), h.count,
        Finset.insert_eq_of_mem known]
    · rw [count_withProcessor h.single below (by rwa [h.has]), h.count,
        Finset.card_insert_of_notMem known]

/-- The masks are determined by the processors. -/
theorem Represents.mem_masks (h : Represents set ps) (gm : GroupMask) :
    gm ∈ set.masks ↔ gm.mask ≠ 0 ∧
      ∀ i : U32, i.toNat < 64 → (gm.mask.getLsbD i.toNat = true ↔ (gm.group, i) ∈ ps) := by
  have bits : ∀ gm ∈ set.masks, ∀ i : U32,
      gm.mask.getLsbD i.toNat = true ↔ (gm.group, i) ∈ ps := by
    intro gm member i
    rw [← h.has]
    constructor
    · intro bit
      exact ⟨gm, member, rfl, bit⟩
    · rintro ⟨other, member', same, bit⟩
      rwa [← List.inj_on_of_nodup_map h.single member' member same]
  constructor
  · intro member
    exact ⟨h.nonzero gm member, fun i _ => bits gm member i⟩
  · rintro ⟨nonzero, same⟩
    obtain ⟨j, below, bit⟩ : ∃ j < 64, gm.mask.getLsbD j = true := by
      by_contra none
      push Not at none
      apply nonzero
      apply BitVec.eq_of_getLsbD_eq
      intro j below
      simpa using none j below
    have index : (BitVec.ofNat 32 j).toNat = j := by
      rw [BitVec.toNat_ofNat, Nat.mod_eq_of_lt (by omega)]
    have listed := (same (BitVec.ofNat 32 j) (by omega)).mp (by rwa [index])
    obtain ⟨other, member, group, -⟩ := (h.has _ _).mpr listed
    have equal : other.mask = gm.mask := by
      apply BitVec.eq_of_getLsbD_eq
      intro k hk
      have small : (BitVec.ofNat 32 k).toNat = k := by
        rw [BitVec.toNat_ofNat, Nat.mod_eq_of_lt (by omega)]
      have here := bits other member (BitVec.ofNat 32 k)
      have there := same (BitVec.ofNat 32 k) (by omega)
      rw [small, group] at here
      rw [small] at there
      rw [Bool.eq_iff_iff, here, there]
    have : other = gm := by
      cases other
      cases gm
      simp_all
    rwa [← this]

theorem Represents.unique (h : Represents set ps) (h' : Represents set' ps) : set = set' := by
  have members : ∀ gm, gm ∈ set.masks ↔ gm ∈ set'.masks := by
    intro gm
    rw [h.mem_masks, h'.mem_masks]
  have perm : set.masks.Perm set'.masks :=
    (List.perm_ext_iff_of_nodup h.single.of_map h'.single.of_map).mpr members
  have masks : set.masks = set'.masks := by
    refine perm.eq_of_pairwise ?_ h.sorted h'.sorted
    intro a b _ _ less more
    exact absurd (BitVec.lt_trans less more) (BitVec.lt_irrefl _)
  cases set
  cases set'
  exact congrArg AffinitySet.mk masks

theorem run_addProcessor (h : Represents set ps) (valid : g.isValid = true)
    (below : i.toNat < maxGroupMaskBits) :
    (addProcessor g i).run set = .ok () (AffinityMasks.withProcessor set g i) := by
  have after := (h.withProcessor valid below).valid
  rw [addProcessor, decide_eq_false (Nat.not_le.mpr below), run_bind_of_ok (run_throwIf_false _ _),
    ← BitVec.twoPow_eq]
  change check.run (AffinityMasks.withProcessor set g i) = _
  rw [run_check, if_pos after]

/-- The calls of a list, in order. -/
def addAll (ps : List (ProcessorGroupId × U32)) : Fault Exn AffinitySet Unit :=
  ps.forM fun p => addProcessor p.1 p.2

/-- A group that is set and an index that has a bit. -/
def Addable (p : ProcessorGroupId × U32) : Prop := p.1.isValid = true ∧ p.2.toNat < maxGroupMaskBits

theorem addAll_represents {l : List (ProcessorGroupId × U32)} (addable : ∀ p ∈ l, Addable p) :
    ∃ set, (addAll l).run {} = .ok () set ∧ Represents set l.toFinset := by
  have run : ∀ {set ps}, Represents set ps →
      ∃ set', (addAll l).run set = .ok () set' ∧ Represents set' (ps ∪ l.toFinset) := by
    induction l with
    | nil => exact fun {set ps} h => ⟨set, rfl, by simpa using h⟩
    | cons p l ih =>
      intro set ps h
      obtain ⟨valid, below⟩ := addable p List.mem_cons_self
      obtain ⟨set', ran, h'⟩ := ih (fun q hq => addable q (List.mem_cons_of_mem p hq))
        (h.withProcessor valid below)
      refine ⟨set', ?_, ?_⟩
      · change (addProcessor p.1 p.2 >>= fun _ => addAll l).run set = _
        rw [run_bind_of_ok (run_addProcessor h valid below), ran]
      · rw [List.toFinset_cons, Finset.union_insert]
        rwa [Finset.insert_union] at h'
  obtain ⟨set, ran, h⟩ := run represents_empty
  exact ⟨set, ran, by simpa using h⟩

/-- The calls make a set: masks in strict order and none empty, exactly the processors
added, each counted once, and the same object from any calls that add the same ones. -/
theorem addAll_is_set (l : List (ProcessorGroupId × U32)) (addable : ∀ p ∈ l, Addable p) :
    ∃ set, (addAll l).run {} = .ok () set ∧
      (set.masks.Pairwise fun a b => a.group.value < b.group.value) ∧
      (∀ gm ∈ set.masks, gm.mask ≠ 0) ∧
      (∀ g i, set.contains g i = true ↔ (g, i) ∈ l) ∧
      set.count = l.dedup.length ∧
      ∀ l' : List (ProcessorGroupId × U32), (∀ p, p ∈ l' ↔ p ∈ l) →
        (addAll l').run {} = .ok () set := by
  obtain ⟨set, ran, h⟩ := addAll_represents addable
  refine ⟨set, ran, h.sorted, h.nonzero, ?_, ?_, ?_⟩
  · intro g i
    rw [contains_iff h.single, h.has, List.mem_toFinset]
  · rw [h.count, List.card_toFinset]
  · intro l' same
    obtain ⟨set', ran', h'⟩ := addAll_represents (l := l') fun p hp => addable p ((same p).mp hp)
    have processors : l'.toFinset = l.toFinset := by
      ext p
      rw [List.mem_toFinset, List.mem_toFinset, same]
    rw [processors] at h'
    rw [ran', h.unique h']

theorem addAll_is_set_twice :
    (∃ set, (addAll [(⟨2⟩, 5), (⟨1⟩, 63), (⟨2⟩, 5)]).run {} = .ok () set ∧ set.count = 2) := by
  obtain ⟨set, ran, -, -, -, count, -⟩ :=
    addAll_is_set [(⟨2⟩, 5), (⟨1⟩, 63), (⟨2⟩, 5)] (by simp [Addable, Id.isValid, maxGroupMaskBits])
  exact ⟨set, ran, count⟩

end Sets

section Refusals

inductive Update
  | setMask (group : ProcessorGroupId) (mask : U64)
  | addProcessor (group : ProcessorGroupId) (logicalIndex : U32)
  deriving DecidableEq, Repr

namespace Update

def apply : Update → Fault Exn AffinitySet Unit
  | setMask group mask => AffinityUpdates.setMask group mask
  | addProcessor group logicalIndex => AffinityUpdates.addProcessor group logicalIndex

/-- The call names a valid group, or an index that is refused before anything is written. -/
def Sound : Update → Prop
  | setMask group _ => group.isValid = true
  | addProcessor group logicalIndex => group.isValid = true ∨ maxGroupMaskBits ≤ logicalIndex.toNat

end Update

/-- The object after some calls, of which any may have thrown. -/
def after (us : List Update) : AffinitySet := us.foldl (fun s u => stateAfter u.apply s) {}

/-- A call is refused for its index, or it writes the mask of its group and is checked then. -/
inductive Outcome (set : AffinitySet) (g : ProcessorGroupId) (u : Update) : Prop
  | early (sound : u.Sound) (refused : u.apply.run set = .error .invalidAffinity set)
  | wrote (change : U64 → U64) (valid : u.Sound → g.isValid = true)
      (ran : u.apply.run set =
        if OnlyValid ⟨AffinitySet.normalize (updateMask change set.masks g)⟩ then
          .ok () ⟨AffinitySet.normalize (updateMask change set.masks g)⟩
        else .error .invalidAffinity ⟨AffinitySet.normalize (updateMask change set.masks g)⟩)

def Update.group : Update → ProcessorGroupId
  | setMask group _ => group
  | addProcessor group _ => group

theorem apply_outcome (set : AffinitySet) (u : Update) : Outcome set u.group u := by
  cases u with
  | setMask group mask => exact .wrote (fun _ => mask) id (run_check _)
  | addProcessor group logicalIndex =>
    by_cases high : maxGroupMaskBits ≤ logicalIndex.toNat
    · refine .early (.inr high) ?_
      rw [Update.apply, addProcessor, decide_eq_true high, run_bind_of_error (run_throwIf_true _ _)]
    · refine .wrote (· ||| 1#64 <<< logicalIndex.toNat) (fun h => h.resolve_right high) ?_
      rw [Update.apply, addProcessor, decide_eq_false high, run_bind_of_ok (run_throwIf_false _ _),
        ← setBit_eq_updateMask]
      exact run_check _

theorem stateAfter_wrote {set t : AffinitySet} {u : Update}
    (ran : u.apply.run set = if OnlyValid t then .ok () t else .error .invalidAffinity t) :
    stateAfter u.apply set = t := by
  by_cases valid : OnlyValid t
  · rw [if_pos valid] at ran
    exact stateAfter_of_ok ran
  · rw [if_neg valid] at ran
    exact stateAfter_of_error ran

theorem single_stateAfter {set : AffinitySet} (single : Single set.masks) (u : Update) :
    Single (stateAfter u.apply set).masks := by
  cases apply_outcome set u with
  | early _ refused => rwa [stateAfter_of_error refused]
  | wrote change valid ran =>
    rw [stateAfter_wrote ran]
    exact ((normalize_perm (single_updateMask single)).map _).nodup_iff.mpr (single_updateMask single)

theorem single_after (us : List Update) : Single (after us).masks := by
  induction us using List.reverseRecOn with
  | nil => exact List.nodup_nil
  | append_singleton us u ih =>
    rw [after, List.foldl_append]
    exact single_stateAfter ih u

/-- A call that throws leaves the masks as they were. -/
def Kept (set : AffinitySet) (u : Update) : Prop :=
  ∀ e t, u.apply.run set = .error e t → stateAfter u.apply set = set

/-- A sound call on a valid set is refused without a trace, and its result is valid. -/
theorem sound_step {set : AffinitySet} (single : Single set.masks) (valid : OnlyValid set) {u : Update}
    (sound : u.Sound) : Kept set u ∧ OnlyValid (stateAfter u.apply set) := by
  cases apply_outcome set u with
  | early _ refused =>
    have same := stateAfter_of_error refused
    exact ⟨fun _ _ _ => same, by rwa [same]⟩
  | wrote change known ran =>
    have result : OnlyValid ⟨AffinitySet.normalize (updateMask change set.masks u.group)⟩ := by
      intro gm member
      rcases (mem_groups_normalize single).mp ⟨gm, member, rfl⟩ with here | ⟨other, member', here⟩
      · rw [here]
        exact known sound
      · rw [← here]
        exact valid other member'
    refine ⟨?_, by rwa [stateAfter_wrote ran]⟩
    intro e t thrown
    rw [ran, if_pos result] at thrown
    cases thrown

/-- A call that is not sound leaves its group behind, though it throws. -/
theorem unsound_step {set : AffinitySet} (single : Single set.masks) {u : Update}
    (unsound : ¬ u.Sound) : ¬ OnlyValid (stateAfter u.apply set) := by
  have bad : u.group.isValid = false := by
    cases u with
    | setMask group mask => simpa [Update.Sound, Update.group] using unsound
    | addProcessor group logicalIndex => simpa [Update.group] using (not_or.mp unsound).1
  cases apply_outcome set u with
  | early sound refused => exact absurd sound unsound
  | wrote change known ran =>
    rw [stateAfter_wrote ran]
    intro valid
    have written : ∃ gm ∈ AffinitySet.normalize (updateMask change set.masks u.group),
        gm.group = u.group := (mem_groups_normalize single).mpr (.inl rfl)
    obtain ⟨gm, member, here⟩ := written
    have := valid gm member
    rw [here, bad] at this
    cases this

/-- Along the calls: what throws leaves the set as it was, and every set has only valid groups. -/
def Intact (us : List Update) : Prop :=
  ∀ done u, done ++ [u] <+: us → Kept (after done) u ∧ OnlyValid (after (done ++ [u]))

theorem onlyValid_after {us : List Update} (sound : ∀ u ∈ us, u.Sound) : OnlyValid (after us) := by
  induction us using List.reverseRecOn with
  | nil => simp [after, OnlyValid]
  | append_singleton us u ih =>
    rw [after, List.foldl_append]
    refine (sound_step (single_after us) (ih ?_) (sound u (by simp))).2
    intro v hv
    exact sound v (List.mem_append_left _ hv)

/-- The calls of a run that only name valid groups, or are refused for their index, and no others. -/
theorem intact_iff_sound (us : List Update) : Intact us ↔ ∀ u ∈ us, u.Sound := by
  constructor
  · intro intact u member
    obtain ⟨done, rest, rfl⟩ := List.append_of_mem member
    have valid := (intact done u ⟨rest, by simp⟩).2
    by_contra unsound
    rw [after, List.foldl_append] at valid
    exact unsound_step (single_after done) unsound valid
  · intro sound done u before
    have sound' : ∀ v ∈ done ++ [u], v.Sound := fun v hv => sound v (before.subset hv)
    have reached := onlyValid_after fun v hv => sound' v (List.mem_append_left _ hv)
    refine ⟨(sound_step (single_after done) reached (sound' u (by simp))).1, onlyValid_after sound'⟩

/-- A mask for the invalid group: the call throws, and the set keeps the mask. -/
theorem refused_setMask_written :
    ¬ (∀ us, Intact us) ∧
      (∃ e t, (Update.apply (.setMask .invalid 1)).run (after []) = .error e t) ∧
      (after [.setMask .invalid 1]).masks = [⟨.invalid, 1⟩] := by
  have ran : (Update.apply (.setMask .invalid 1)).run (after []) =
      .error .invalidAffinity ⟨[⟨.invalid, 1⟩]⟩ := by
    have written : AffinitySet.normalize (updateMask (fun _ => 1) [] .invalid) =
        [⟨.invalid, 1⟩] := by
      simp [updateMask, AffinitySet.normalize, mergeGroups]
    change check.run ⟨AffinitySet.normalize (updateMask (fun _ => 1) [] .invalid)⟩ = _
    rw [written, run_check, if_neg (by decide)]
  have state : after [.setMask .invalid 1] = ⟨[⟨.invalid, 1⟩]⟩ := stateAfter_of_error ran
  refine ⟨?_, ⟨_, _, ran⟩, by rw [state]⟩
  intro intact
  have valid := (intact [.setMask .invalid 1] [] (.setMask .invalid 1) (by simp)).2
  rw [List.nil_append, state] at valid
  exact absurd (valid _ List.mem_cons_self) (by decide)

end Refusals

end NumaFabric.AffinityUpdates
