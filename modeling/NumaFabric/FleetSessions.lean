import NumaFabric.FleetRequests

/-! The fleet turn by turn: the books of every worker stay in order, and the reservations of
everybody else are left alone. -/
namespace NumaFabric.FleetSessions
open Std FaultState FaultRun Coordinator CoordinatorAuthority CoordinatorFencing ReservationIsolation
  PlacementPromise WorkerProgram WorkerBooks WorkerFleet FleetRequests
open ReservationStore hiding step run
open SessionAgreement (Request)

variable {β : Type}

section Fleet
variable (b : Backend β) (float : FloatCosts) {crew : U64 → Option CommandLine}
  {base : ReservationStore} {s : Fleet β} {conn : U64} {c : CommandLine} {q : Request}

/-- A turn that wraps no counter, and if it is somebody else's, one that leaves the workers
of the fleet alone. -/
def Allowed (crew : U64 → Option CommandLine) (s : Fleet β) : Turn → Prop
  | .move conn _ | .fail conn _ => ∀ c q, s.pending crew conn = some (c, q) → s.cut conn = false →
      WrapsNothing s.coordinator (.frame conn q.frame)
  | .lost _ => True
  | .other ev => WrapsNothing s.coordinator ev ∧ Foreign crew s.coordinator ev

/-- The workers have numbers of their own. -/
def Distinct (crew : U64 → Option CommandLine) : Prop :=
  ∀ conn conn' c c', crew conn = some c → crew conn' = some c' → c.workerId = c'.workerId → conn = conn'

/-- The invariant of the fleet. -/
structure Sound (crew : U64 → Option CommandLine) (base : ReservationStore) (s : Fleet β) : Prop where
  numbered : Numbered s.coordinator.runtime.reservations
  entered : Entered crew s.coordinator
  threw : ∀ conn, s.threw conn = true → s.phases conn = .ended (.exit 5)
  books : ∀ conn c, crew conn = some c → Books c base s.coordinator.runtime.reservations
    (s.phases conn) (s.excused conn) s.coordinator.runtime.registry

theorem Sound.going (h : Sound crew base s) (asked : (s.phases conn).request c = some q) :
    s.threw conn = false := by
  rw [Bool.eq_false_iff]
  intro thrown
  rw [h.threw conn thrown] at asked
  cases asked

theorem Sound.whole (h : Sound crew base s) (asked : (s.phases conn).request c = some q) :
    s.excused conn = s.cut conn := by
  rw [Fleet.excused, h.going asked, Bool.or_false]

/-- A process whose work has thrown stays where it is when another moves on. -/
theorem Sound.threw_receive (h : Sound crew base s) (asked : (s.phases conn).request c = some q)
    (p : Phase) (k : U64) (thrown : s.threw k = true) :
    Function.update s.phases conn p k = .ended (.exit 5) := by
  have elsewhere : k ≠ conn := by
    rintro rfl
    rw [h.going asked] at thrown
    cases thrown
  rw [Function.update_of_ne elsewhere]
  exact h.threw k thrown

/-- The request of a worker registers only the worker itself. -/
theorem registers_request {p : Phase} {w : WorkerId} (asked : p.request c = some q)
    (registered : registers (.frame conn q.frame) = some w) : w = c.workerId := by
  have kind : MsgType.ofU16? q.frame.type = some q.type := MsgType.ofU16?_toU16 _
  rw [registers, kind] at registered
  split_ifs at registered with type
  cases p with
  | registering =>
    cases asked
    have read : registerFields.run (Request.register c.workerId c.pid).payload =
        .ok (c.workerId, c.pid) [] :=
      SessionAgreement.run_of_reads (SessionAgreement.reads_registerFields _ _)
    rw [Request.frame, registrant, read] at registered
    dsimp only at registered
    split_ifs at registered
    exact (Option.some.inj registered).symm
  | working reg left id => cases asked
  | ended e => cases asked
  | _ => cases asked; cases type

theorem Sound.sever (h : Sound crew base s) (conn : U64) : Sound crew base (s.sever conn) := by
  refine ⟨h.numbered, h.entered, h.threw, fun k c member => ?_⟩
  have books := h.books k c member
  rw [Fleet.sever, Fleet.excused]
  dsimp only
  by_cases here : k = conn
  · subst here
    rw [Function.update_self, Bool.true_or]
    exact books.severed _
  · rw [Function.update_of_ne here]
    exact books

/-- A worker without a connection goes on, and nobody notices. -/
theorem Sound.silent (h : Sound crew base s) (member : crew conn = some c)
    (asked : (s.phases conn).request c = some q) (cut : s.cut conn = true) :
    Sound crew base (s.receive conn c none) := by
  refine ⟨h.numbered, h.entered, h.threw_receive asked _, fun k d other => ?_⟩
  have books := h.books k d other
  rw [Fleet.receive, Fleet.excused]
  dsimp only
  by_cases here : k = conn
  · subst here
    obtain rfl : c = d := Option.some.inj (member.symm.trans other)
    rw [h.whole asked, cut] at books
    rw [Function.update_self, cut, Bool.true_or]
    exact books.dropped (owing_refused asked rfl)
  · rw [Function.update_of_ne here]
    exact books

/-- What handling a request of one worker does to the others. -/
theorem Sound.handle (h : Sound crew base s) (distinct : Distinct crew) (member : crew conn = some c)
    (asked : (s.phases conn).request c = some q) (whole : s.cut conn = false) {k : U64}
    {d : CommandLine} (other : crew k = some d) (elsewhere : k ≠ conn) :
    Books d base (s.handle b float conn q.frame).coordinator.runtime.reservations (s.phases k)
      (s.excused k) (s.handle b float conn q.frame).coordinator.runtime.registry := by
  have books := h.books conn c member
  rw [h.whole asked, whole] at books
  have foreign : d.workerId ≠ c.workerId := fun same => elsewhere (distinct k conn d c other member same)
  have handled := handled_request b float conn asked h.numbered books
  refine (h.books k d other).untouched (handled.others d.workerId foreign) fun boot _ live => ?_
  refine live_event b float live ?_
  rintro (again | dies)
  · exact foreign (registers_request asked again)
  · cases dies

theorem Sound.entered_handle (h : Sound crew base s) (distinct : Distinct crew)
    (member : crew conn = some c) (asked : (s.phases conn).request c = some q) :
    Entered crew (s.handle b float conn q.frame).coordinator := by
  refine h.entered.event b float ?_
  rintro _ _ ⟨⟩ k d other registered
  exact distinct conn k c d member other (registers_request asked registered).symm

/-- A call that is answered. -/
theorem Sound.answered (h : Sound crew base s) (distinct : Distinct crew) (member : crew conn = some c)
    (asked : (s.phases conn).request c = some q) (whole : s.cut conn = false)
    (wraps : WrapsNothing s.coordinator (.frame conn q.frame)) :
    Sound crew base ((s.handle b float conn q.frame).receive conn c
      (answer b float s.coordinator conn q.frame)) := by
  refine ⟨numbered_event b float h.numbered wraps, h.entered_handle b float distinct member asked,
    h.threw_receive asked _, fun k d other => ?_⟩
  rw [Fleet.receive, Fleet.excused]
  dsimp only
  by_cases here : k = conn
  · subst here
    obtain rfl : c = d := Option.some.inj (member.symm.trans other)
    have books := h.books k c member
    rw [h.whole asked, whole] at books
    have handled := handled_request b float k asked h.numbered books
    rw [Fleet.handle]
    dsimp only
    rw [Function.update_self, whole, h.going asked]
    exact handled.received
  · have books := h.handle b float distinct member asked whole other here
    rw [Function.update_of_ne here]
    exact books

/-- A call that is handled, and whose reply is lost. -/
theorem Sound.missed (h : Sound crew base s) (distinct : Distinct crew) (member : crew conn = some c)
    (asked : (s.phases conn).request c = some q) (whole : s.cut conn = false)
    (wraps : WrapsNothing s.coordinator (.frame conn q.frame)) :
    Sound crew base (((s.handle b float conn q.frame).receive conn c none).sever conn) := by
  refine ⟨numbered_event b float h.numbered wraps, h.entered_handle b float distinct member asked,
    h.threw_receive asked _, fun k d other => ?_⟩
  rw [Fleet.sever, Fleet.receive, Fleet.excused]
  dsimp only
  by_cases here : k = conn
  · subst here
    obtain rfl : c = d := Option.some.inj (member.symm.trans other)
    have books := h.books k c member
    rw [h.whole asked, whole] at books
    have handled := handled_request b float k asked h.numbered books
    rw [Fleet.handle]
    dsimp only
    rw [Function.update_self, Function.update_self, Bool.true_or]
    exact handled.missed
  · have books := h.handle b float distinct member asked whole other here
    rw [Function.update_of_ne here, Function.update_of_ne here]
    exact books

/-- The work of a round is done, or has thrown. -/
theorem Sound.work (h : Sound crew base s) (works : (s.phases conn).atWork = true) (allocates : Bool) :
    Sound crew base (s.work crew conn allocates) := by
  obtain ⟨reg, left, id, phase⟩ := Phase.atWork_iff.mp works
  rw [Fleet.work]
  cases member : crew conn with
  | none => exact h
  | some c =>
    refine ⟨h.numbered, h.entered, fun k thrown => ?_, fun k d other => ?_⟩
    · dsimp only at thrown ⊢
      by_cases here : k = conn
      · subst here
        rw [Function.update_self] at thrown ⊢
        have before : s.threw k = false := by
          rw [Bool.eq_false_iff]
          intro already
          rw [h.threw k already] at phase
          cases phase
        rw [before, Bool.false_or, Bool.not_eq_true'] at thrown
        rw [phase, thrown]
        rfl
      · rw [Function.update_of_ne here] at thrown ⊢
        exact h.threw k thrown
    · have books := h.books k d other
      rw [Fleet.excused] at books ⊢
      dsimp only
      by_cases here : k = conn
      · subst here
        obtain rfl : c = d := Option.some.inj (member.symm.trans other)
        rw [Function.update_self, Function.update_self, ← Bool.or_assoc]
        exact books.work allocates phase
      · rw [Function.update_of_ne here, Function.update_of_ne here]
        exact books

theorem Sound.lost (h : Sound crew base s) (conn : U64) :
    Sound crew base (Fleet.step b float crew s (.lost conn)) := by
  have kept : (step b float s.coordinator (.lost conn)).runtime.reservations =
      s.coordinator.runtime.reservations := by
    rcases event_reservations b float (.lost conn) s.coordinator with same | ⟨_, _, _, sent, -⟩
    · exact same
    · cases sent
  rw [Fleet.step]
  refine ⟨?_, ?_, h.threw, fun k d other => ?_⟩
  · dsimp only
    rw [kept]
    exact h.numbered
  · exact h.entered.event b float fun _ _ sent => by cases sent
  · have books := (h.sever conn).books k d other
    dsimp only
    rw [kept]
    refine books.untouched (.of_eq rfl) fun boot whole live => live_event b float live ?_
    rintro (again | dies)
    · cases again
    · rw [← h.entered.marksDead other dies, Fleet.sever, Fleet.excused] at whole
      dsimp only at whole
      rw [Function.update_self, Bool.true_or] at whole
      cases whole

theorem Sound.other (h : Sound crew base s) {ev : Event} (wraps : WrapsNothing s.coordinator ev)
    (foreign : Foreign crew s.coordinator ev) :
    Sound crew base (Fleet.step b float crew s (.other ev)) := by
  refine ⟨numbered_event b float h.numbered wraps, h.entered.event b float ?_, h.threw,
    fun k d other => ?_⟩
  · rintro conn f rfl k d other registered
    exact absurd registered (foreign.registers k d other)
  · exact (h.books k d other).untouched (foreign.untouched b float other)
      fun boot _ live => live_event b float live (foreign.keeps h.entered other boot)

/-- Every allowed turn keeps the invariant. -/
theorem Sound.step (h : Sound crew base s) (distinct : Distinct crew) {turn : Turn}
    (allowed : Allowed crew s turn) : Sound crew base (Fleet.step b float crew s turn) := by
  cases turn with
  | move conn allocates =>
    rw [Fleet.step]
    split_ifs with works
    · exact h.work works allocates
    · rw [Fleet.call]
      cases next : s.pending crew conn with
      | none => exact h
      | some x =>
        obtain ⟨c, q⟩ := x
        obtain ⟨member, asked⟩ := pending_eq_some.mp next
        dsimp only
        cases cut : s.cut conn with
        | true => exact h.silent member asked cut
        | false => exact h.answered b float distinct member asked cut (allowed c q next cut)
  | fail conn handled =>
    rw [Fleet.step, Fleet.fail]
    cases next : s.pending crew conn with
    | none => exact h.sever conn
    | some x =>
      obtain ⟨c, q⟩ := x
      obtain ⟨member, asked⟩ := pending_eq_some.mp next
      dsimp only
      split_ifs with served
      · rw [Bool.and_eq_true, Bool.not_eq_true'] at served
        exact h.missed b float distinct member asked served.2 (allowed c q next served.2)
      · have severed : (s.sever conn).cut conn = true := Function.update_self ..
        exact (h.sever conn).silent member asked severed
  | lost conn => exact h.lost b float conn
  | other ev => exact h.other b float allowed.1 allowed.2

theorem Sound.run (h : Sound crew base s) (distinct : Distinct crew) {turns : List Turn}
    (meets : Meets (Fleet.step b float crew) (Allowed crew) s turns) :
    Sound crew base (Fleet.run b float crew s turns) := by
  induction turns generalizing s with
  | nil => exact h
  | cons turn turns ih => exact ih (h.step b float distinct meets.1) meets.2

/-- Somebody else's event that asks nothing of the reservations. -/
def Quiet : Turn → Prop
  | .other (.frame _ f) => asks f = none
  | _ => True

/-- The records of everybody outside the fleet. -/
theorem Sound.outside (h : Sound crew base s) {w : WorkerId}
    (outside : ∀ conn c, crew conn = some c → w ≠ c.workerId) {turn : Turn} (quiet : Quiet turn) :
    Untouched w s.coordinator.runtime.reservations
      (Fleet.step b float crew s turn).coordinator.runtime.reservations := by
  have called : ∀ conn c q, s.pending crew conn = some (c, q) → s.cut conn = false →
      Untouched w s.coordinator.runtime.reservations
        (s.handle b float conn q.frame).coordinator.runtime.reservations := by
    intro conn c q next whole
    obtain ⟨member, asked⟩ := pending_eq_some.mp next
    have books := h.books conn c member
    rw [h.whole asked, whole] at books
    exact (handled_request b float conn asked h.numbered books).others w
      (outside conn c member)
  have unchanged : Untouched w s.coordinator.runtime.reservations s.coordinator.runtime.reservations :=
    .of_eq rfl
  cases turn with
  | move conn allocates =>
    rw [Fleet.step]
    split_ifs
    · rw [Fleet.work]
      cases crew conn <;> exact unchanged
    · rw [Fleet.call]
      cases next : s.pending crew conn with
      | none => exact unchanged
      | some x =>
        dsimp only
        cases whole : s.cut conn with
        | true => exact unchanged
        | false => exact called conn x.1 x.2 next whole
  | fail conn handled =>
    rw [Fleet.step, Fleet.fail]
    cases next : s.pending crew conn with
    | none => exact unchanged
    | some x =>
      dsimp only
      split_ifs with served
      · rw [Bool.and_eq_true, Bool.not_eq_true'] at served
        exact called conn x.1 x.2 next served.2
      · exact unchanged
  | lost conn =>
    rcases event_reservations b float (.lost conn) s.coordinator with same | ⟨_, _, _, sent, -⟩
    · exact .of_eq (congrArg ReservationStore.reservations same)
    · cases sent
  | other ev =>
    rcases event_reservations b float ev s.coordinator with same | ⟨_, _, _, rfl, asked, -⟩
    · exact .of_eq (congrArg ReservationStore.reservations same)
    · rw [Quiet] at quiet
      rw [quiet] at asked
      cases asked

theorem outside_run (h : Sound crew base s) (distinct : Distinct crew) {w : WorkerId}
    (outside : ∀ conn c, crew conn = some c → w ≠ c.workerId) {turns : List Turn}
    (meets : Meets (Fleet.step b float crew) (fun s turn => Allowed crew s turn ∧ Quiet turn) s turns) :
    Untouched w s.coordinator.runtime.reservations
      (Fleet.run b float crew s turns).coordinator.runtime.reservations := by
  induction turns generalizing s with
  | nil => exact .of_eq rfl
  | cons turn turns ih =>
    obtain ⟨⟨allowed, quiet⟩, rest⟩ := meets
    exact (h.outside b float outside quiet).trans (ih (h.step b float distinct allowed) rest)

end Fleet

end NumaFabric.FleetSessions
