import NumaFabric.ReservationOutcome

/-! Which identities and generations a store hands out. Two counters must dominate a
table that is filled by fresh grants and by restored records. -/
namespace NumaFabric.ReservationIdentity
open Std FaultState FaultRun LedgerCounter ReservationStore

/-- The counters are ahead of every record. Once the watermark is exhausted no request
is granted any more, so the identifier counter no longer matters. -/
structure Dominated (s : ReservationStore) : Prop where
  next_le : s.watermark.value ≠ u64Max → s.nextId.toNat ≤ s.watermark.value.toNat + 1
  id_lt : s.watermark.value ≠ u64Max →
    ∀ (k : ReservationId) (r : Reservation), s.reservations[k]? = some r → k.value.toNat < s.nextId.toNat
  generation_le : ∀ (k : ReservationId) (r : Reservation), s.reservations[k]? = some r →
    r.generation.value.toNat ≤ s.watermark.value.toNat

/-- A restore that records what it is given. -/
def Readmits (cap : CapacityFn) (s : ReservationStore) (r : Reservation) : Prop :=
  r.id.isValid = true ∧ s.reservations.contains r.id = false ∧
    (r.active = true → restoreOver cap r s = false)

/-- A record that a restore takes in must carry an identity the store has already issued; an
inactive one, which does not advance the watermark, must also carry an old generation. -/
def Issued (cap : CapacityFn) (s : ReservationStore) : Call → Prop
  | .restore r => Readmits cap s r → r.id.value < s.nextId ∧
      (r.active = true ∨ r.generation.value ≤ s.watermark.value)
  | _ => True

theorem getElem?_record {s : ReservationStore} {r q : Reservation} {k : ReservationId}
    (h : (record r s).reservations[k]? = some q) :
    (k = r.id ∧ q = r) ∨ s.reservations[k]? = some q := by
  simp only [record, ExtTreeMap.getElem?_insert, Std.compare_eq_iff_eq] at h
  split_ifs at h with hk
  · exact .inl ⟨hk.symm, (Option.some.inj h).symm⟩
  · exact .inr h

/-- Moving both counters keeps them ahead of a table that did not change. -/
theorem Dominated.advanced {s t : ReservationStore} {g : ReservationGeneration}
    (h : Dominated s) (hg : s.watermark.next = .ok g) (hr : t.reservations = s.reservations)
    (hi : t.nextId = s.nextId + 1) (hw : t.watermark = g) : Dominated t := by
  have hgv := Generation.next_ok hg
  have hs := Generation.ne_max_of_next hg
  have hle := h.next_le hs
  refine ⟨fun hm => ?_, fun hm k r hk => ?_, fun k r hk => ?_⟩
  · rw [hw] at hm ⊢
    have := value_lt_max hm
    rw [hi, u64_succ hle (by omega)]
    omega
  · rw [hw] at hm
    have := value_lt_max hm
    rw [hr] at hk
    have := h.id_lt hs k r hk
    rw [hi, u64_succ hle (by omega)]
    omega
  · rw [hr] at hk
    have := h.generation_le k r hk
    rw [hw]
    omega

/-- A refused call that only moved the identifier counter past an exhausted watermark. -/
theorem Dominated.exhausted {s t : ReservationStore} (h : Dominated s)
    (hs : s.watermark.value = u64Max) (hr : t.reservations = s.reservations)
    (hw : t.watermark = s.watermark) : Dominated t := by
  refine ⟨fun hm => ?_, fun hm => ?_, fun k r hk => ?_⟩
  · exact absurd (hw ▸ hs) hm
  · exact absurd (hw ▸ hs) hm
  · rw [hr] at hk
    rw [hw]
    exact h.generation_le k r hk

theorem Dominated.ledgers {s t : ReservationStore} (h : Dominated s)
    (hr : t.reservations = s.reservations) (hi : t.nextId = s.nextId)
    (hw : t.watermark = s.watermark) : Dominated t := by
  refine ⟨?_, ?_, ?_⟩
  · rw [hi, hw]
    exact h.next_le
  · rw [hi, hw, hr]
    exact h.id_lt
  · rw [hr, hw]
    exact h.generation_le

/-- The lookup of the memory check touches one ledger only. -/
theorem touchMemory_eq (req : ReserveRequest) (s : ReservationStore) :
    touchMemory req s = { s with nodeMem := (touchMemory req s).nodeMem } := by
  unfold touchMemory
  split_ifs <;> rfl

theorem reserve_dominated (cap : CapacityFn) (req : ReserveRequest) {s : ReservationStore}
    (h : Dominated s) : Dominated (stateAfter (reserve cap req) s) := by
  have ho := reserve_outcome cap req s
  generalize hres : (reserve cap req).run s = res at ho
  cases ho with
  | malformed e bad => rw [stateAfter_of_error hres]; exact h
  | exhausted wf last =>
    rw [stateAfter_of_error hres]
    exact h.exhausted last rfl rfl
  | overMemory g wf next ex =>
    rw [stateAfter_of_error hres, touchMemory_eq]
    exact h.advanced next rfl rfl rfl
  | overAccelerator g wf next fits ex =>
    rw [stateAfter_of_error hres, touchMemory_eq]
    exact h.advanced next rfl rfl rfl
  | granted g wf next fits below r hr =>
    rw [stateAfter_of_ok hres]
    have ha : Dominated (advanced g s) := h.advanced next rfl rfl rfl
    have hs := Generation.ne_max_of_next next
    have hgv := Generation.next_ok next
    refine ⟨ha.next_le, fun hm k q hk => ?_, fun k q hk => ?_⟩
    · have hw : g.value.toNat < 2 ^ 64 - 1 := value_lt_max hm
      have hn : (s.nextId + 1).toNat = s.nextId.toNat + 1 :=
        u64_succ (h.next_le hs) (by omega)
      obtain ⟨rfl, -⟩ | hold := getElem?_record hk
      · change r.id.value.toNat < (s.nextId + 1).toNat
        rw [hr, hn]
        exact Nat.lt_succ_self _
      · exact ha.id_lt hm k q hold
    · obtain ⟨-, rfl⟩ | hold := getElem?_record hk
      · rw [hr]
        exact le_rfl
      · exact ha.generation_le k q hold

/-- A release closes at most the record it names and moves no counter. -/
theorem release_table (id : ReservationId) (expected : Option ReservationGeneration)
    (s : ReservationStore) :
    (stateAfter (release id expected) s).nextId = s.nextId ∧
      (stateAfter (release id expected) s).watermark = s.watermark ∧
      ((stateAfter (release id expected) s).reservations = s.reservations ∨
        ∃ r, s.reservations[id]? = some r ∧ (stateAfter (release id expected) s).reservations =
          s.reservations.insert id { r with active := false }) := by
  have ho := release_outcome id expected s
  generalize hres : (release id expected).run s = res at ho
  cases ho with
  | unknown absent => rw [stateAfter_of_error hres]; exact ⟨rfl, rfl, .inl rfl⟩
  | refused r e found bad => rw [stateAfter_of_error hres]; exact ⟨rfl, rfl, .inl rfl⟩
  | memory r found good under => rw [stateAfter_of_error hres]; exact ⟨rfl, rfl, .inl rfl⟩
  | slots r m found good mem under => rw [stateAfter_of_error hres]; exact ⟨rfl, rfl, .inl rfl⟩
  | accelerator r m k found good mem slot under =>
    rw [stateAfter_of_error hres]; exact ⟨rfl, rfl, .inl rfl⟩
  | released r m k a found good mem slot accel =>
    rw [stateAfter_of_ok hres]; exact ⟨rfl, rfl, .inr ⟨r, found, rfl⟩⟩

theorem release_dominated (id : ReservationId) (expected : Option ReservationGeneration)
    {s : ReservationStore} (h : Dominated s) :
    Dominated (stateAfter (release id expected) s) := by
  obtain ⟨hi, hw, hr | ⟨r, found, hr⟩⟩ := release_table id expected s
  · exact h.ledgers hr hi hw
  · have old : ∀ (k : ReservationId) (q : Reservation),
        (s.reservations.insert id { r with active := false })[k]? = some q →
        ∃ q', s.reservations[k]? = some q' ∧ q.generation = q'.generation := by
      intro k q hk
      simp only [ExtTreeMap.getElem?_insert, Std.compare_eq_iff_eq] at hk
      split_ifs at hk with hid
      · subst hid
        cases hk
        exact ⟨r, found, rfl⟩
      · exact ⟨q, hk, rfl⟩
    refine ⟨by rw [hi, hw]; exact h.next_le, fun hm k q hk => ?_, fun k q hk => ?_⟩
    · rw [hw] at hm
      rw [hr] at hk
      obtain ⟨q', hq', -⟩ := old k q hk
      rw [hi]
      exact h.id_lt hm k q' hq'
    · rw [hr] at hk
      obtain ⟨q', hq', hg⟩ := old k q hk
      rw [hw, hg]
      exact h.generation_le k q' hq'

theorem restore_dominated (cap : CapacityFn) (r : Reservation) {s : ReservationStore}
    (h : Dominated s) (hc : Issued cap s (.restore r)) :
    Dominated (stateAfter (restore cap r) s) := by
  have ho := restore_outcome cap r s
  generalize hres : (restore cap r).run s = res at ho
  cases ho with
  | invalid bad => rw [stateAfter_of_error hres]; exact h
  | duplicate present => rw [stateAfter_of_error hres]; exact h
  | refused valid fresh live ex => rw [stateAfter_of_ok hres]; exact h.ledgers rfl rfl rfl
  | inactive valid fresh closed =>
    rw [stateAfter_of_ok hres]
    obtain ⟨hid, hgen⟩ := hc ⟨valid, fresh, fun live => by rw [closed] at live; cases live⟩
    rw [BitVec.lt_def] at hid
    have hold : r.generation.value ≤ s.watermark.value := by simpa [closed] using hgen
    refine ⟨h.next_le, fun hm k q hk => ?_, fun k q hk => ?_⟩
    · obtain ⟨rfl, -⟩ | hq := getElem?_record hk
      · exact hid
      · exact h.id_lt hm k q hq
    · obtain ⟨-, rfl⟩ | hq := getElem?_record hk
      · exact BitVec.le_def.mp hold
      · exact h.generation_le k q hq
  | readmitted valid fresh live fits =>
    rw [stateAfter_of_ok hres]
    obtain ⟨hid, -⟩ := hc ⟨valid, fresh, fun _ => fits⟩
    rw [BitVec.lt_def] at hid
    have hwm : s.watermark.value.toNat ≤ (reinstate r s).watermark.value.toNat ∧
        r.generation.value.toNat ≤ (reinstate r s).watermark.value.toNat := by
      change _ ≤ (if s.watermark.value < r.generation.value then r.generation
        else s.watermark).value.toNat ∧ _ ≤ (if s.watermark.value < r.generation.value then
        r.generation else s.watermark).value.toNat
      split_ifs with hlt
      · exact ⟨Nat.le_of_lt (BitVec.lt_def.mp hlt), le_rfl⟩
      · exact ⟨le_rfl, BitVec.le_def.mp (BitVec.not_lt.mp hlt)⟩
    have hne : (reinstate r s).watermark.value ≠ u64Max → s.watermark.value ≠ u64Max := by
      intro hm hs
      apply hm
      apply BitVec.toNat_inj.mp
      have := (reinstate r s).watermark.value.isLt
      have hmax : u64Max.toNat = 2 ^ 64 - 1 := rfl
      rw [hs] at hwm
      omega
    refine ⟨fun hm => ?_, fun hm k q hk => ?_, fun k q hk => ?_⟩
    · exact Nat.le_trans (h.next_le (hne hm)) (Nat.add_le_add_right hwm.1 1)
    · obtain ⟨rfl, -⟩ | hq := getElem?_record hk
      · exact hid
      · exact h.id_lt (hne hm) k q hq
    · obtain ⟨-, rfl⟩ | hq := getElem?_record hk
      · exact hwm.2
      · exact Nat.le_trans (h.generation_le k q hq) hwm.1

theorem initial_dominated : Dominated {} := by
  refine ⟨fun _ => le_rfl, fun _ k r hk => ?_, fun k r hk => ?_⟩ <;> simp at hk

theorem step_dominated (cap : CapacityFn) (s : ReservationStore) (c : Call)
    (h : Dominated s) (hc : Issued cap s c) : Dominated (step cap s c) := by
  cases c with
  | reserve req => exact reserve_dominated cap req h
  | release id expected => exact release_dominated id expected h
  | restore r => exact restore_dominated cap r h hc

theorem run_dominated (cap : CapacityFn) {calls : List Call}
    (meets : Meets (step cap) (Issued cap) {} calls) : Dominated (run cap calls) :=
  foldl_invariant (step_dominated cap) initial_dominated meets

/-- Under the domination invariant a granted request carries a fresh identity. -/
theorem Dominated.fresh {s : ReservationStore} (h : Dominated s) {g : ReservationGeneration}
    (next : s.watermark.next = .ok g) : s.reservations[(⟨s.nextId⟩ : ReservationId)]? = none := by
  cases hk : s.reservations[(⟨s.nextId⟩ : ReservationId)]? with
  | none => rfl
  | some q => exact absurd (h.id_lt (Generation.ne_max_of_next next) _ q hk) (lt_irrefl _)

/-- In a run whose restores take in only identities the store has issued, every grant carries an
identity absent from the table and a generation above all of it, and loses no record. -/
theorem reserve_identity_fresh (cap : CapacityFn) (calls : List Call)
    (meets : Meets (step cap) (Issued cap) {} calls) (req : ReserveRequest) (r : Reservation)
    (t : ReservationStore) (granted : (reserve cap req).run (run cap calls) = .ok r t) :
    (run cap calls).reservations[r.id]? = none ∧
      (∀ (k : ReservationId) (q : Reservation), (run cap calls).reservations[k]? = some q →
        q.generation.value < r.generation.value) ∧
      ∀ (k : ReservationId) (q : Reservation), (run cap calls).reservations[k]? = some q →
        t.reservations[k]? = some q := by
  have h := run_dominated cap meets
  generalize run cap calls = s at h granted
  have ho := reserve_outcome cap req s
  rw [granted] at ho
  cases ho with
  | granted g wf next fits below r record_eq =>
    subst record_eq
    have hfresh := h.fresh next
    refine ⟨hfresh, fun k q hk => ?_, fun k q hk => ?_⟩
    · have := h.generation_le k q hk
      have hgv := Generation.next_ok next
      rw [BitVec.lt_def]
      change q.generation.value.toNat < g.value.toNat
      omega
    · change (s.reservations.insert ⟨s.nextId⟩ _)[k]? = some q
      rw [ExtTreeMap.getElem?_insert, if_neg, hk]
      intro hc
      rw [← Std.compare_eq_iff_eq.mp hc, hfresh] at hk
      cases hk

/-- A refused request used up identity 1, so restoring it is harmless; so is a record of
identity 9 that is refused for capacity. -/
theorem reserve_identity_fresh_after_refusal :
    let calls : List Call :=
      [.reserve { node := ⟨1⟩, bytes := ⟨100⟩ },
        .restore { id := ⟨1⟩, node := ⟨1⟩, bytes := ⟨4⟩, generation := ⟨1⟩ },
        .restore { id := ⟨9⟩, node := ⟨1⟩, bytes := ⟨7⟩, generation := ⟨5⟩ }]
    let cap : CapacityFn := some fun _ => ⟨10⟩
    ∃ r t, (reserve cap { node := ⟨1⟩, bytes := ⟨6⟩ }).run (run cap calls) = .ok r t ∧
      (run cap calls).reservations[(⟨1⟩ : ReservationId)]?.isSome ∧
      (run cap calls).reservations[r.id]? = none := by
  intro calls cap
  have meets : Meets (step cap) (Issued cap) {} calls :=
    ⟨trivial, fun _ => ⟨by decide, .inl rfl⟩, fun taken => absurd (taken.2.2 rfl) (by decide), trivial⟩
  refine ⟨_, _, rfl, by decide, ?_⟩
  exact (reserve_identity_fresh cap calls meets { node := ⟨1⟩, bytes := ⟨6⟩ } _ _ rfl).1

/-- Identity 1 is restored, issued again by the first request, and its record is lost. -/
theorem reserve_overwrites_restored :
    let old : Reservation := { id := ⟨1⟩, node := ⟨1⟩, bytes := ⟨8⟩, generation := ⟨1⟩ }
    ∃ r t, (reserve none { node := ⟨1⟩, bytes := ⟨4⟩ }).run (run none [.restore old]) = .ok r t ∧
      (run none [.restore old]).reservations[r.id]? = some old ∧ old.active = true ∧
      t.reservations[r.id]? = some r ∧ r ≠ old := by
  intro old
  exact ⟨_, _, rfl, by decide, rfl, by decide, by decide⟩

end NumaFabric.ReservationIdentity
