import NumaFabric.SyntheticBackend
import NumaFabric.FaultRun

/-! The synthetic backend as a bank of bytes. A client asks for allocations and gives them
back; the backend conserves capacity when what it counts on each node is the sum of what the
allocations still held were charged there. -/
namespace NumaFabric.SyntheticConservation
open Std FaultState FaultRun LedgerCounter SyntheticBackend

section Charges

/-- The additions to the ledger that one allocation makes, in order. -/
abbrev Charges := List (NumaNodeId × U64)

def apply (m : Ledger NumaNodeId 64) (cs : Charges) : Ledger NumaNodeId 64 :=
  cs.foldl (fun used c => charge used c.1 c.2) m

def shareOn (n : NumaNodeId) (cs : Charges) : ℕ :=
  (cs.map fun c => if c.1 = n then c.2.toNat else 0).sum

def amount (cs : Charges) : ℕ := (cs.map fun c => c.2.toNat).sum

theorem toNat_entry_apply (m : Ledger NumaNodeId 64) (cs : Charges) (n : NumaNodeId) :
    (entry (apply m cs) n).toNat = ((entry m n).toNat + shareOn n cs) % 2 ^ 64 := by
  induction cs generalizing m with
  | nil => exact (Nat.mod_eq_of_lt (entry m n).isLt).symm
  | cons c cs ih =>
    have first : (entry (charge m c.1 c.2) n).toNat =
        ((entry m n).toNat + if c.1 = n then c.2.toNat else 0) % 2 ^ 64 := by
      rw [entry_charge]
      split_ifs with here
      · rw [here, BitVec.toNat_add]
      · exact (Nat.mod_eq_of_lt (entry m n).isLt).symm
    have rest : (entry (apply m (c :: cs)) n).toNat = _ := ih (charge m c.1 c.2)
    rw [rest, first, Nat.mod_add_mod, shareOn, shareOn, List.map_cons, List.sum_cons, Nat.add_assoc]

/-- Charges that miss every other node are all on this one. -/
theorem amount_eq_shareOn {cs : Charges} {node : NumaNodeId}
    (only : ∀ n, n ≠ node → shareOn n cs = 0) : shareOn node cs = amount cs := by
  induction cs with
  | nil => rfl
  | cons c cs ih =>
    have split : ∀ n, shareOn n (c :: cs) = (if c.1 = n then c.2.toNat else 0) + shareOn n cs :=
      fun n => by rw [shareOn, shareOn, List.map_cons, List.sum_cons]
    have whole : amount (c :: cs) = c.2.toNat + amount cs := by
      rw [amount, amount, List.map_cons, List.sum_cons]
    have rest := ih fun n other => by
      have zero := only n other
      rw [split] at zero
      omega
    rw [split, whole, rest]
    split_ifs with here
    · rfl
    · have zero := only c.1 here
      rw [split, if_pos rfl] at zero
      omega

end Charges

/-- An allocation that the client holds, and what was charged for it. -/
structure Held where
  result : AllocationResult
  charges : Charges
  deriving DecidableEq, Repr

structure Client where
  backend : SyntheticBackend := {}
  held : List Held := []

/-- Of the allocations held, any may be given back, in any order. -/
inductive Op
  | allocate (spec : AllocationSpec)
  | free (k : ℕ)
  deriving DecidableEq, Repr

variable (cfg : SyntheticConfig)

/-- What an allocation that is granted adds to the ledger. -/
def charges (spec : AllocationSpec) (s : SyntheticBackend) : Charges :=
  if spec.mode = .interleaved then
    (interleaveNodes cfg spec).map fun n =>
      (n, chunk spec.bytes.value (interleaveNodes cfg spec).length)
  else
    let (target, allowFallback) := target cfg spec
    [(s.chooseNodeFor cfg spec.bytes.value target allowFallback, spec.bytes.value)]

def step (c : Client) : Op → Client
  | .allocate spec =>
    match (allocate cfg spec).run c.backend with
    | .ok r s => { backend := s, held := c.held ++ [⟨r, charges cfg spec c.backend⟩] }
    | .error _ s => { c with backend := s }
  | .free k =>
    match c.held[k]? with
    | none => c
    | some h => { backend := free h.result c.backend, held := c.held.eraseIdx k }

def run (ops : List Op) : Client := ops.foldl (step cfg) {}

section Steps
variable {cfg} {c : Client} {spec : AllocationSpec} {k : ℕ}

theorem step_of_ok {r : AllocationResult} {s : SyntheticBackend}
    (asked : (allocate cfg spec).run c.backend = .ok r s) :
    step cfg c (.allocate spec) =
      { backend := s, held := c.held ++ [⟨r, charges cfg spec c.backend⟩] } := by
  simp only [step, asked]

theorem step_of_error {e : BackendError} {s : SyntheticBackend}
    (asked : (allocate cfg spec).run c.backend = .error e s) :
    step cfg c (.allocate spec) = { c with backend := s } := by
  simp only [step, asked]

theorem step_of_none (absent : c.held[k]? = none) : step cfg c (.free k) = c := by
  simp only [step, absent]

theorem step_of_some {h : Held} (found : c.held[k]? = some h) :
    step cfg c (.free k) = { backend := free h.result c.backend, held := c.held.eraseIdx k } := by
  simp only [step, found]

end Steps

def owed (n : NumaNodeId) (held : List Held) : ℕ := (held.map fun h => shareOn n h.charges).sum

/-- No node is used beyond its capacity, what was charged for an allocation is what it was
granted, and each node is used as far as the allocations still held were charged to it. -/
structure Conserves (c : Client) : Prop where
  bounded : ∀ n, c.backend.usedFor n ≤ cfg.capacityFor n
  whole : ∀ h ∈ c.held, amount h.charges = h.result.grantedBytes.value.toNat
  accounted : ∀ n, (c.backend.usedFor n).toNat = owed n c.held
  empty : c.held = [] → ∀ n, c.backend.usedFor n = 0

/-- That everything given back leaves nothing used is a case of the account. -/
theorem conserves_of {c : Client} (bounded : ∀ n, c.backend.usedFor n ≤ cfg.capacityFor n)
    (whole : ∀ h ∈ c.held, amount h.charges = h.result.grantedBytes.value.toNat)
    (accounted : ∀ n, (c.backend.usedFor n).toNat = owed n c.held) : Conserves cfg c := by
  refine ⟨bounded, whole, accounted, fun none_held n => BitVec.toNat_inj.mp ?_⟩
  rw [accounted, none_held]
  rfl

/-- The allocation is known under its number, and was charged only to the node it is known on. -/
def Returnable (s : SyntheticBackend) (h : Held) : Prop :=
  h.result.regionId.isValid = true ∧ ∃ node, s.regionNode[h.result.regionId]? = some node ∧
    ∀ n, n ≠ node → shareOn n h.charges = 0

/-- A spread allocation counts what it grants and leaves every node within its capacity, and an
allocation given back is returnable. -/
def Conserving (c : Client) : Op → Prop
  | .allocate spec => spec.validate = .ok () → spec.mode = .interleaved →
      amount (charges cfg spec c.backend) = spec.bytes.value.toNat ∧
        ∀ n, (c.backend.usedFor n).toNat + shareOn n (charges cfg spec c.backend) ≤
          (cfg.capacityFor n).toNat
  | .free k => ∀ h, c.held[k]? = some h → Returnable c.backend h

section Allocate
variable {cfg} {spec : AllocationSpec} {s t : SyntheticBackend} {r : AllocationResult}

theorem allocate_error {e : BackendError} (h : (allocate cfg spec).run s = .error e t) :
    t = s ∧ ¬(spec.validate = .ok () ∧ spec.mode = .interleaved) := by
  cases validated : spec.validate with
  | error e =>
    rw [allocate, validated] at h
    cases h
    refine ⟨rfl, fun both => ?_⟩
    cases both.1
  | ok u =>
    by_cases spread : spec.mode = .interleaved
    · rw [allocate, validated, if_pos spread] at h
      cases h
    · rw [allocate_single cfg validated spread rfl] at h
      split_ifs at h <;> cases h <;> exact ⟨rfl, fun both => spread both.2⟩

/-- What a granted allocation is, what it adds to the ledger, and, unless it is spread, that
its node has room. -/
theorem allocate_ok (h : (allocate cfg spec).run s = .ok r t) :
    spec.validate = .ok () ∧ r.grantedBytes = spec.bytes ∧ t.used = apply s.used (charges cfg spec s) ∧
      (spec.mode ≠ .interleaved → ∃ n, charges cfg spec s = [(n, spec.bytes.value)] ∧
        spec.bytes.value ≤ s.remaining cfg n) := by
  cases validated : spec.validate with
  | error e =>
    rw [allocate, validated] at h
    cases h
  | ok u =>
    by_cases spread : spec.mode = .interleaved
    · rw [allocate, validated, if_pos spread] at h
      cases h
      refine ⟨rfl, rfl, ?_, fun single => absurd spread single⟩
      rw [charges, if_pos spread, apply, List.foldl_map]
    · rw [allocate_single cfg validated spread rfl] at h
      split_ifs at h with invalid short
      cases h
      refine ⟨rfl, rfl, ?_, fun _ => ⟨_, if_neg spread, BitVec.not_lt.mp short⟩⟩
      rw [charges, if_neg spread]
      rfl

theorem pos_of_validate (h : spec.validate = .ok ()) : 0 < spec.bytes.value.toNat := by
  have nonzero : spec.bytes.isZero = false := by
    unfold AllocationSpec.validate at h
    split_ifs at h with zero
    exact Bool.eq_false_iff.mpr zero
  rw [Quantity.isZero, beq_eq_false_iff_ne] at nonzero
  exact Nat.pos_of_ne_zero fun zero => nonzero (BitVec.toNat_inj.mp (by simpa using zero))

end Allocate

theorem owed_append (n : NumaNodeId) (held : List Held) (h : Held) :
    owed n (held ++ [h]) = owed n held + shareOn n h.charges := by
  simp [owed]

theorem owed_eraseIdx (n : NumaNodeId) {held : List Held} {k : ℕ} {h : Held}
    (found : held[k]? = some h) : owed n (held.eraseIdx k) + shareOn n h.charges = owed n held := by
  obtain ⟨inside, rfl⟩ := List.getElem?_eq_some_iff.mp found
  have sum := ((List.getElem_cons_eraseIdx_perm inside).map fun h => shareOn n h.charges).sum_eq
  rw [List.map_cons, List.sum_cons] at sum
  rw [owed, owed, ← sum, Nat.add_comm]

section Step
variable {cfg} {c : Client}

/-- A further allocation conserves exactly when its charges are what it was granted and fit on
their nodes. -/
theorem conserves_enter (conserves : Conserves cfg c) {s : SyntheticBackend} {h : Held}
    (added : s.used = apply c.backend.used h.charges) :
    Conserves cfg { backend := s, held := c.held ++ [h] } ↔
      amount h.charges = h.result.grantedBytes.value.toNat ∧
        ∀ n, (c.backend.usedFor n).toNat + shareOn n h.charges ≤ (cfg.capacityFor n).toNat := by
  have used : ∀ n, (s.usedFor n).toNat =
      ((c.backend.usedFor n).toNat + shareOn n h.charges) % 2 ^ 64 := by
    intro n
    rw [usedFor, added]
    exact toNat_entry_apply _ _ n
  constructor
  · intro after
    refine ⟨after.whole h (by simp), fun n => ?_⟩
    have sum : (s.usedFor n).toNat = _ := after.accounted n
    rw [owed_append, ← conserves.accounted n] at sum
    rw [← sum]
    exact BitVec.le_def.mp (after.bounded n)
  · rintro ⟨whole, fits⟩
    have sum : ∀ n, (s.usedFor n).toNat = (c.backend.usedFor n).toNat + shareOn n h.charges := by
      intro n
      rw [used]
      exact Nat.mod_eq_of_lt (Nat.lt_of_le_of_lt (fits n) (cfg.capacityFor n).isLt)
    refine conserves_of cfg (fun n => ?_) (fun q hq => ?_) fun n => ?_
    · rw [BitVec.le_def]
      exact sum n ▸ fits n
    · rcases List.mem_append.mp hq with old | new
      · exact conserves.whole q old
      · rw [List.mem_singleton.mp new]
        exact whole
    · rw [owed_append, ← conserves.accounted n]
      exact sum n

/-- Bytes that the chosen node has left can be charged to it. -/
theorem single_fits (conserves : Conserves cfg c) {n : NumaNodeId} {bytes : U64}
    (room : bytes ≤ c.backend.remaining cfg n) (m : NumaNodeId) :
    (c.backend.usedFor m).toNat + shareOn m [(n, bytes)] ≤ (cfg.capacityFor m).toNat := by
  have below := BitVec.le_def.mp (conserves.bounded m)
  have share : shareOn m [(n, bytes)] = if n = m then bytes.toNat else 0 := by simp [shareOn]
  rw [share]
  split_ifs with here
  · subst here
    rw [remaining, BitVec.le_def, BitVec.toNat_sub_of_le (conserves.bounded n)] at room
    omega
  · exact below

theorem step_allocate (conserves : Conserves cfg c) (spec : AllocationSpec) :
    Conserves cfg (step cfg c (.allocate spec)) ↔ Conserving cfg c (.allocate spec) := by
  cases asked : (allocate cfg spec).run c.backend with
  | error e t =>
    obtain ⟨same, other⟩ := allocate_error asked
    rw [step_of_error asked, same]
    exact ⟨fun _ validated spread => absurd ⟨validated, spread⟩ other, fun _ => conserves⟩
  | ok r t =>
    obtain ⟨validated, granted, added, single⟩ := allocate_ok asked
    have enters : Conserves cfg { backend := t, held := c.held ++ [⟨r, charges cfg spec c.backend⟩] } ↔ _ :=
      conserves_enter conserves (h := ⟨r, charges cfg spec c.backend⟩) added
    rw [step_of_ok asked, enters, granted]
    by_cases spread : spec.mode = .interleaved
    · exact ⟨fun sound _ _ => sound, fun sound => sound validated spread⟩
    · obtain ⟨n, only, room⟩ := single spread
      refine ⟨fun _ _ other => absurd other spread, fun _ => ⟨?_, fun m => ?_⟩⟩
      · rw [only]
        simp [amount]
      · rw [only]
        exact single_fits conserves room m

/-- Giving back takes the granted bytes off the node the allocation is known on. -/
theorem toNat_usedFor_free {r : AllocationResult} {s : SyntheticBackend} {node : NumaNodeId}
    (valid : r.regionId.isValid = true) (known : s.regionNode[r.regionId]? = some node)
    (n : NumaNodeId) :
    ((free r s).usedFor n).toNat =
      (s.usedFor n).toNat - if node = n then r.grantedBytes.value.toNat else 0 := by
  unfold free
  simp only [valid, known, Bool.not_true, Bool.false_eq_true, if_false]
  cases present : s.used[node]? with
  | none =>
    have zero : node = n → (s.usedFor n).toNat = 0 := by
      rintro rfl
      rw [usedFor, entry_of_none present]
      rfl
    change (s.usedFor n).toNat = _
    split_ifs with here
    · rw [zero here, Nat.zero_sub]
    · rfl
  | some u =>
    unfold usedFor entry
    dsimp only
    rw [ExtTreeMap.getElem?_insert]
    simp only [Std.compare_eq_iff_eq]
    split_ifs with here low
    · subst here
      have le := BitVec.le_def.mp low
      rw [present, Option.getD_some, Option.getD_some, Nat.sub_eq_zero_of_le le]
      rfl
    · subst here
      have le := BitVec.le_of_lt (BitVec.not_le.mp low)
      rw [present, Option.getD_some, Option.getD_some, BitVec.toNat_sub_of_le le]
    · rfl

theorem free_unknown {r : AllocationResult} {s : SyntheticBackend}
    (unknown : ¬(r.regionId.isValid = true ∧ ∃ node, s.regionNode[r.regionId]? = some node)) :
    free r s = s := by
  unfold free
  cases valid : r.regionId.isValid with
  | false => rfl
  | true =>
    cases known : s.regionNode[r.regionId]? with
    | none => rfl
    | some node => exact absurd ⟨valid, node, known⟩ unknown

theorem free_known (conserves : Conserves cfg c) {k : ℕ} {h : Held} (found : c.held[k]? = some h)
    {node : NumaNodeId} (valid : h.result.regionId.isValid = true)
    (known : c.backend.regionNode[h.result.regionId]? = some node) :
    Conserves cfg { backend := free h.result c.backend, held := c.held.eraseIdx k } ↔
      ∀ n, n ≠ node → shareOn n h.charges = 0 := by
  have whole := conserves.whole h (List.mem_of_getElem? found)
  have left := fun n => owed_eraseIdx n found
  have used := fun n => toNat_usedFor_free valid known n
  constructor
  · intro after n other
    have sum : ((free h.result c.backend).usedFor n).toNat = owed n (c.held.eraseIdx k) :=
      after.accounted n
    rw [used, if_neg (Ne.symm other), conserves.accounted n, ← left n] at sum
    omega
  · intro only
    have share := (amount_eq_shareOn only).trans whole
    refine conserves_of cfg (fun n => ?_) (fun q hq => ?_) fun n => ?_
    · have below := BitVec.le_def.mp (conserves.bounded n)
      rw [BitVec.le_def]
      change ((free h.result c.backend).usedFor n).toNat ≤ _
      rw [used]
      exact Nat.le_trans (Nat.sub_le _ _) below
    · exact conserves.whole q (List.mem_of_mem_eraseIdx hq)
    · change ((free h.result c.backend).usedFor n).toNat = owed n (c.held.eraseIdx k)
      have sum := left n
      rw [used, conserves.accounted n]
      split_ifs with here
      · subst here
        omega
      · have zero := only n (Ne.symm here)
        omega

/-- An allocation that is not known leaves its bytes behind. -/
theorem not_conserves_unknown (conserves : Conserves cfg c) {k : ℕ} {h : Held}
    (found : c.held[k]? = some h) (positive : 0 < h.result.grantedBytes.value.toNat) :
    ¬Conserves cfg { backend := c.backend, held := c.held.eraseIdx k } := by
  intro after
  have nothing : ∀ n, shareOn n h.charges = 0 := by
    intro n
    have sum : (c.backend.usedFor n).toNat = owed n (c.held.eraseIdx k) := after.accounted n
    rw [conserves.accounted n, ← owed_eraseIdx n found] at sum
    omega
  have zero : shareOn .invalid h.charges = amount h.charges := amount_eq_shareOn fun n _ => nothing n
  rw [nothing, conserves.whole h (List.mem_of_getElem? found)] at zero
  omega

theorem step_free (conserves : Conserves cfg c)
    (positive : ∀ h ∈ c.held, 0 < h.result.grantedBytes.value.toNat) (k : ℕ) :
    Conserves cfg (step cfg c (.free k)) ↔ Conserving cfg c (.free k) := by
  cases found : c.held[k]? with
  | none =>
    rw [step_of_none found]
    refine ⟨fun _ h present => ?_, fun _ => conserves⟩
    rw [found] at present
    cases present
  | some h =>
    have one : Conserving cfg c (.free k) ↔ Returnable c.backend h := by
      refine ⟨fun all => all h found, fun returnable q present => ?_⟩
      rw [found] at present
      cases present
      exact returnable
    rw [step_of_some found, one]
    by_cases known : h.result.regionId.isValid = true ∧
        ∃ node, c.backend.regionNode[h.result.regionId]? = some node
    · obtain ⟨valid, node, recorded⟩ := known
      rw [free_known conserves found valid recorded]
      refine ⟨fun only => ⟨valid, node, recorded, only⟩, ?_⟩
      rintro ⟨-, other, same, only⟩
      rw [recorded] at same
      cases same
      exact only
    · rw [free_unknown known]
      refine iff_of_false ?_ fun ⟨valid, node, recorded, _⟩ => known ⟨valid, node, recorded⟩
      exact not_conserves_unknown conserves found (positive h (List.mem_of_getElem? found))

/-- Nothing is granted for no bytes. -/
theorem step_positive (positive : ∀ h ∈ c.held, 0 < h.result.grantedBytes.value.toNat) (op : Op) :
    ∀ h ∈ (step cfg c op).held, 0 < h.result.grantedBytes.value.toNat := by
  cases op with
  | allocate spec =>
    cases asked : (allocate cfg spec).run c.backend with
    | error e t => rw [step_of_error asked]; exact positive
    | ok r t =>
      obtain ⟨validated, granted, -, -⟩ := allocate_ok asked
      rw [step_of_ok asked]
      intro h held
      rcases List.mem_append.mp held with old | new
      · exact positive h old
      · rw [List.mem_singleton.mp new, granted]
        exact pos_of_validate validated
  | free k =>
    cases found : c.held[k]? with
    | none => rw [step_of_none found]; exact positive
    | some h =>
      rw [step_of_some found]
      exact fun q hq => positive q (List.mem_of_mem_eraseIdx hq)

theorem step_conserves (conserves : Conserves cfg c)
    (positive : ∀ h ∈ c.held, 0 < h.result.grantedBytes.value.toNat) (op : Op) :
    Conserves cfg (step cfg c op) ↔ Conserving cfg c op := by
  cases op with
  | allocate spec => exact step_allocate conserves spec
  | free k => exact step_free conserves positive k

end Step

theorem initial_conserves : Conserves cfg {} := by
  refine conserves_of cfg (fun n => ?_) (by simp) fun n => ?_
  · rw [usedFor, entry_empty, BitVec.le_def]
    exact Nat.zero_le _
  · rw [usedFor, entry_empty]
    rfl

/-- Capacity is conserved in every state of a run exactly when each of its steps conserves it. -/
theorem conserves_iff (ops : List Op) :
    (∀ pre, pre <+: ops → Conserves cfg (run cfg pre)) ↔ Meets (step cfg) (Conserving cfg) {} ops := by
  refine forall_prefix_iff
    (P := fun c : Client => ∀ h ∈ c.held, 0 < h.result.grantedBytes.value.toNat)
    (fun c op _ positive conserves => ?_) (by simp) (initial_conserves cfg)
  exact ⟨step_positive positive op, step_conserves conserves positive op⟩

/-- Four bytes are spread over two nodes and given back to the first of them. -/
theorem spread_leaks :
    ¬ ∀ (cfg : SyntheticConfig), 1 ≤ cfg.nodeCount → ∀ ops, Conserves cfg (run cfg ops) := by
  intro conserves
  have zero := (conserves {} (by decide)
    [.allocate { bytes := ⟨4⟩, mode := .interleaved }, .free 0]).empty rfl ⟨2⟩
  exact absurd zero (by decide)

end NumaFabric.SyntheticConservation
