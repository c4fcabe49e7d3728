import NumaFabric.FleetProgress
import NumaFabric.FleetSessions

/-! What comes of a whole run of the fleet: every worker comes to an end, and has given back what
it reserved. -/
namespace NumaFabric.FleetReturns
open Std FaultState FaultRun LedgerCounter LedgerTotal Coordinator CoordinatorAuthority
  ReservationLedger ReservationTotals ReservationIsolation PlacementPromise WorkerProgram WorkerBooks
  WorkerFleet FleetRequests FleetSessions FleetProgress
open ReservationStore hiding step run

variable {β : Type}

section Results
variable (b : Backend β) (float : FloatCosts) {crew : U64 → Option CommandLine} {start : Coordinator β}
  {turns : List Turn}

/-- The worker has the same active reservations. -/
def SameActive (w : WorkerId) (s t : ReservationStore) : Prop :=
  ∀ (k : ReservationId) (x : Reservation), x.worker = w → x.active = true →
    (t.reservations[k]? = some x ↔ s.reservations[k]? = some x)

theorem sound_start {base : Coordinator β} (numbered : Numbered base.runtime.reservations)
    (conns : base.conns = ∅) :
    Sound crew base.runtime.reservations { coordinator := base } where
  numbered := numbered
  entered := by
    intro conn st found
    rw [conns] at found
    simp at found
  threw _ thrown := by cases thrown
  books _ _ _ := books_start

/-- A worker that has ended, whose connection is whole and whose work has not thrown, holds what it
held at the start. -/
theorem sameActive_of_ended {base : ReservationStore} {s : Fleet β} (h : Sound crew base s) {conn : U64}
    {c : CommandLine} (member : crew conn = some c) {e : Ending} (ending : s.phases conn = .ended e)
    (whole : s.cut conn = false) (worked : s.threw conn = false) (releases : c.releaseAtEnd = true) :
    SameActive c.workerId base s.coordinator.runtime.reservations := by
  intro k x worker active
  have books := h.books conn c member
  refine ⟨fun found => ?_, books.old k x worker⟩
  rcases books.new k x worker active found with kept | ⟨boot, owes⟩ | excused | keeps
  · exact kept
  · rw [ending, owing_ended] at owes
    cases owes
  · rw [Fleet.excused, whole, worked] at excused
    cases excused
  · rw [releases] at keeps
    cases keeps

/-- However the moves of the workers interleave, and whatever other clients do in between, the
accounting stays exact, and an active reservation of a worker that was not there at the start
is about to be given back, unless its connection has failed, its work has thrown or it was told not
to. A worker ends after a bounded number of moves, with the code 5 if its work throws; and one that
has ended with its connection whole, and whose work has not thrown, has the active reservations of
the start. -/
theorem fleet_returns (distinct : Distinct crew) (numbered : Numbered start.runtime.reservations)
    (conns : start.conns = ∅)
    (meets : Meets (Fleet.step b float crew) (Allowed crew) { coordinator := start } turns) :
    let s := Fleet.run b float crew { coordinator := start } turns
    Numbered s.coordinator.runtime.reservations ∧ ∀ conn c, crew conn = some c →
      Books c start.runtime.reservations s.coordinator.runtime.reservations (s.phases conn)
        (s.excused conn) s.coordinator.runtime.registry ∧
      (2 + 4 * c.iterations.toNat ≤ turns.countP (moves conn) → ∃ e, s.phases conn = .ended e) ∧
      (s.threw conn = true → s.phases conn = .ended (.exit 5)) ∧
      ((∃ e, s.phases conn = .ended e) → s.cut conn = false → s.threw conn = false →
        c.releaseAtEnd = true →
        SameActive c.workerId start.runtime.reservations s.coordinator.runtime.reservations) := by
  intro s
  have sound : Sound crew start.runtime.reservations s :=
    (sound_start numbered conns).run b float distinct meets
  refine ⟨sound.numbered, fun conn c member => ⟨sound.books conn c member, fun enough => ?_,
    sound.threw conn, ?_⟩⟩
  · apply ended_of_movesLeft (c := c)
    have left : movesLeft c (s.phases conn) ≤ movesLeft c .registering - turns.countP (moves conn) :=
      movesLeft_run b float crew (s := { coordinator := start }) member turns
    rw [movesLeft] at left
    omega
  · rintro ⟨e, ending⟩ whole worked releases
    exact sameActive_of_ended sound member ending whole worked releases

/-- The same active reservations, worker by worker, keep every counter. -/
theorem entry_eq_of_same {s t : ReservationStore} (hs : Accounted s) (ht : Accounted t)
    (same : ∀ w, SameActive w s t) (n : NumaNodeId) :
    entry t.nodeMem n = entry s.nodeMem n ∧ entry t.nodeSlots n = entry s.nodeSlots n := by
  have sums : ∀ f, activeTotal f t = activeTotal f s := by
    intro f
    refine total_congr_of_counted fun k x counts => ?_
    refine same x.worker k x rfl ?_
    by_contra closed
    exact counts (if_neg closed)
  constructor
  · apply BitVec.eq_of_toNat_eq
    rw [ht.tracks.mem n trivial, hs.tracks.mem n trivial, sums]
  · apply BitVec.eq_of_toNat_eq
    rw [ht.tracks.slots n trivial, hs.tracks.slots n trivial, sums]

/-- When all workers have ended with their connections whole and their work done, and nobody else
has reserved or released anything, every node has as many bytes and slots reserved as at the start. -/
theorem fleet_restores_counters (distinct : Distinct crew)
    (numbered : Numbered start.runtime.reservations) (conns : start.conns = ∅)
    (meets : Meets (Fleet.step b float crew) (fun s turn => Allowed crew s turn ∧ Quiet turn)
      { coordinator := start } turns)
    (ended : ∀ conn c, crew conn = some c → c.releaseAtEnd = true ∧
      (Fleet.run b float crew { coordinator := start } turns).excused conn = false ∧
      ∃ e, (Fleet.run b float crew { coordinator := start } turns).phases conn = .ended e)
    (n : NumaNodeId) :
    let s := Fleet.run b float crew { coordinator := start } turns
    entry s.coordinator.runtime.reservations.nodeMem n = entry start.runtime.reservations.nodeMem n ∧
      entry s.coordinator.runtime.reservations.nodeSlots n =
        entry start.runtime.reservations.nodeSlots n := by
  intro s
  have started : Sound crew start.runtime.reservations { coordinator := start } :=
    sound_start numbered conns
  have sound : Sound crew start.runtime.reservations s :=
    started.run b float distinct (meets.mono fun _ _ both => both.1)
  refine entry_eq_of_same numbered.toAccounted sound.numbered.toAccounted (fun w => ?_) n
  by_cases inside : ∃ conn c, crew conn = some c ∧ w = c.workerId
  · obtain ⟨conn, c, member, rfl⟩ := inside
    obtain ⟨releases, unexcused, e, ending⟩ := ended conn c member
    obtain ⟨whole, worked⟩ := Bool.or_eq_false_iff.mp unexcused
    exact sameActive_of_ended sound member ending whole worked releases
  · push Not at inside
    have same := outside_run b float started distinct inside meets
    exact fun k x worker _ => same.records k x worker

end Results

section Examples

instance decidableWraps (s : Coordinator β) (conn : U64) (f : Frame) :
    Decidable (WrapsNothing s (.frame conn f)) :=
  inferInstanceAs (Decidable (∀ c ∈ asks f,
    Exact s.runtime.nodeCapacityProvider AllNodes s.runtime.reservations c))

/-- A move of a worker that wraps no counter. -/
def Alone (crew : U64 → Option CommandLine) (s : Fleet β) : Turn → Prop
  | .move conn _ => ∀ x ∈ s.pending crew conn, s.cut conn = false →
      WrapsNothing s.coordinator (.frame conn x.2.frame)
  | _ => False

instance decidableAlone (crew : U64 → Option CommandLine) (s : Fleet β) :
    (turn : Turn) → Decidable (Alone crew s turn)
  | .move conn _ => inferInstanceAs (Decidable (∀ x ∈ s.pending crew conn,
      s.cut conn = false → WrapsNothing s.coordinator (.frame conn x.2.frame)))
  | .fail _ _ => inferInstanceAs (Decidable False)
  | .lost _ => inferInstanceAs (Decidable False)
  | .other _ => inferInstanceAs (Decidable False)

theorem Alone.allowed {crew : U64 → Option CommandLine} {s : Fleet β} {turn : Turn}
    (h : Alone crew s turn) : Allowed crew s turn ∧ Quiet turn := by
  cases turn with
  | move conn allocates => exact ⟨fun c q next => h (c, q) next, trivial⟩
  | fail conn handled => exact h.elim
  | lost conn => exact h.elim
  | other ev => exact h.elim

theorem excused_move (b : Backend β) (float : FloatCosts) (crew : U64 → Option CommandLine)
    (s : Fleet β) (conn : U64) :
    (Fleet.step b float crew s (.move conn true)).excused = s.excused := by
  funext k
  rw [Fleet.step]
  split_ifs
  · rw [Fleet.work]
    cases crew conn with
    | none => rfl
    | some c =>
      rw [Fleet.excused, Fleet.excused]
      dsimp only
      by_cases here : k = conn
      · subst here
        rw [Function.update_self, Bool.not_true, Bool.or_false]
      · rw [Function.update_of_ne here]
  · rw [Fleet.call]
    cases s.pending crew conn with
    | none => rfl
    | some x =>
      dsimp only
      split_ifs <;> rfl

/-- Where every turn is a move and all work gets its memory, nobody is excused. -/
theorem excused_run {crew : U64 → Option CommandLine} {s : Fleet β} (b : Backend β) (float : FloatCosts)
    {turns : List Turn} (moves : ∀ turn ∈ turns, ∃ conn, turn = .move conn true) :
    (Fleet.run b float crew s turns).excused = s.excused := by
  induction turns generalizing s with
  | nil => rfl
  | cons turn turns ih =>
    obtain ⟨conn, rfl⟩ := moves turn List.mem_cons_self
    have rest : (Fleet.run b float crew (Fleet.step b float crew s (.move conn true)) turns).excused =
        (Fleet.step b float crew s (.move conn true)).excused :=
      ih fun t member => moves t (List.mem_cons_of_mem _ member)
    exact rest.trans (excused_move b float crew s conn)

/-- Two workers that each want a quarter of the node. -/
def couple (conn : U64) : Option CommandLine :=
  if conn = 1 then some { id := 1, pid := ⟨7⟩, footprint := 16 }
  else if conn = 2 then some { id := 2, pid := ⟨8⟩, footprint := 16 }
  else none

/-- The second worker overtakes the first, and both hold their reservation at one time. -/
def dance : List Turn :=
  [.move 1 true, .move 2 true, .move 2 true, .move 1 true, .move 2 true, .move 1 true, .move 1 true,
    .move 2 true, .move 2 true, .move 1 true, .move 1 true, .move 2 true]

theorem distinct_couple : Distinct couple := by
  intro conn conn' c c' member member' same
  unfold couple at member member'
  split_ifs at member member' with first second second second <;> cases member <;> cases member'
  · rw [first, second]
  · exact absurd same (by decide)
  · exact absurd same (by decide)
  · rw [‹conn = 2›, ‹conn' = 2›]

set_option maxRecDepth 20000 in
theorem meets_dance : Meets (Fleet.step (MemoryAccounting.budgeted 64) noCosts couple) (Alone couple)
    { coordinator := started } dance := by
  decide +kernel

theorem excused_dance (conn : U64) :
    (Fleet.run (MemoryAccounting.budgeted 64) noCosts couple { coordinator := started } dance).excused
      conn = false := by
  rw [excused_run (MemoryAccounting.budgeted 64) noCosts (by simp [dance])]
  rfl

theorem enough_dance {conn : U64} {c : CommandLine} (member : couple conn = some c) :
    2 + 4 * c.iterations.toNat ≤ dance.countP (moves conn) := by
  unfold couple at member
  split_ifs at member with first second
  · cases member
    subst first
    decide
  · cases member
    subst second
    decide

theorem fleet_returns_two :
    SameActive ⟨2⟩ started.runtime.reservations
      (Fleet.run (MemoryAccounting.budgeted 64) noCosts couple { coordinator := started }
        dance).coordinator.runtime.reservations := by
  have returns := (fleet_returns (MemoryAccounting.budgeted 64) noCosts distinct_couple
    numbered_empty rfl (meets_dance.mono fun _ _ alone => alone.allowed.1)).2 2 _ rfl
  obtain ⟨whole, worked⟩ := Bool.or_eq_false_iff.mp (excused_dance 2)
  exact returns.2.2.2 (returns.2.1 (enough_dance rfl)) whole worked rfl

theorem fleet_restores_counters_two :
    entry (Fleet.run (MemoryAccounting.budgeted 64) noCosts couple { coordinator := started }
      dance).coordinator.runtime.reservations.nodeMem ⟨1⟩ =
      entry started.runtime.reservations.nodeMem ⟨1⟩ := by
  refine (fleet_restores_counters (MemoryAccounting.budgeted 64) noCosts distinct_couple
    numbered_empty rfl (meets_dance.mono fun _ _ alone => alone.allowed) (fun conn c member => ?_) ⟨1⟩).1
  have left := movesLeft_run (MemoryAccounting.budgeted 64) noCosts couple
    (s := { coordinator := started }) member dance
  have none_left : movesLeft c .registering - dance.countP (moves conn) = 0 :=
    Nat.sub_eq_zero_of_le (enough_dance member)
  dsimp only at left
  rw [none_left] at left
  refine ⟨?_, excused_dance conn, ended_of_movesLeft (Nat.le_zero.mp left)⟩
  unfold couple at member
  split_ifs at member <;> cases member <;> rfl

end Examples

end NumaFabric.FleetReturns
