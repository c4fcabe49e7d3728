import NumaFabric.WorkerBooks
import NumaFabric.WorkerFleet

/-! What the request of a worker does to its own books and to those of the others, and what an event
of somebody else does to them. -/
namespace NumaFabric.FleetRequests
open Std FaultState FaultRun ByteCodec Coordinator CoordinatorAuthority CoordinatorFencing
  LedgerCounter ReservationIdentity ReservationLedger ReservationTotals ReservationIsolation
  PlacementPromise WorkerProgram WorkerBooks WorkerFleet
open ReservationStore hiding step run
open SessionAgreement (Request)

variable {β : Type}

section Own
variable (b : Backend β) (float : FloatCosts) {s : Coordinator β} {conn : U64} {c : CommandLine}
  {base : ReservationStore} {p : Phase} {q : Request}

/-- What the own request of a worker does: to its books when it receives the reply, and when it
does not; and nothing to the records of any other worker. -/
structure Handled (s t : Coordinator β) (base : ReservationStore) (c : CommandLine) (p : Phase)
    (reply : Option Frame) : Prop where
  received : Books c base t.runtime.reservations (p.receive c reply) false t.runtime.registry
  missed : Books c base t.runtime.reservations (p.receive c none) true t.runtime.registry
  others : ∀ w, w ≠ c.workerId → Untouched w s.runtime.reservations t.runtime.reservations

/-- A request that leaves the records alone, and the worker owing nothing before and after. -/
theorem handled_of_same {t : Coordinator β} {reply : Option Frame} (asked : p.request c = some q)
    (books : Books c base s.runtime.reservations p false s.runtime.registry)
    (same : table t = table s) (before : owing p = none) (after : owing (p.receive c reply) = none) :
    Handled s t base c p reply where
  received := (books.idle before after).untouched (.of_eq same) fun _ _ live => live
  missed := ((books.severed t.runtime.registry).idle before
    (owing_refused asked rfl)).untouched (.of_eq same) fun _ _ live => live
  others _ _ := .of_eq same

/-- The requests that are not about reservations. -/
theorem asks_none (asked : p.request c = some q)
    (reserving : ∀ reg left node, p ≠ .reserving reg left node)
    (releasing : ∀ reg left id, p ≠ .releasing reg left id) : asks q.frame = none := by
  cases p with
  | registering => cases asked; rfl
  | discovering reg => cases asked; rfl
  | placing reg left => cases asked; rfl
  | reserving reg left node => exact absurd rfl (reserving reg left node)
  | working reg left id => cases asked
  | releasing reg left id => exact absurd rfl (releasing reg left id)
  | ended e => cases asked

/-- Before a call that is no release nothing is owed. -/
theorem owing_of_request (asked : p.request c = some q)
    (releasing : ∀ reg left id, p ≠ .releasing reg left id) : owing p = none := by
  cases p with
  | working reg left id => cases asked
  | releasing reg left id => exact absurd rfl (releasing reg left id)
  | _ => rfl

/-- What asks for nothing leaves the reservations alone. -/
theorem reservations_of_asks_none (s : Coordinator β) (conn : U64) {f : Frame} (quiet : asks f = none) :
    (step b float s (.frame conn f)).runtime.reservations = s.runtime.reservations := by
  rcases step_reservations b float conn f s with same | ⟨call, asked, -⟩
  · exact same
  · rw [quiet] at asked
    cases asked

theorem handled_reserve {reg : RegisterInfo} {left : ℕ} {node : U64}
    (numbered : Numbered s.runtime.reservations)
    (books : Books c base s.runtime.reservations (.reserving reg left node) false s.runtime.registry) :
    let f := (Request.reserve c.workerId reg.boot node c.footprint 2 0 false).frame
    Handled s (step b float s (.frame conn f)) base c (.reserving reg left node)
      (answer b float s conn f) := by
  intro f
  have asked : Phase.request c (.reserving reg left node) =
      some (.reserve c.workerId reg.boot node c.footprint 2 0 false) := rfl
  cases reserve_effect b float s conn c.workerId reg.boot node c.footprint 2 with
  | refused told same => exact handled_of_same asked books same rfl (owing_refused asked told)
  | granted x live going id worker active told recorded =>
    have unrecorded : (table s)[x.id]? = none := by
      rw [id]
      cases found : (table s)[(⟨s.runtime.reservations.nextId⟩ : ReservationId)]? with
      | none => rfl
      | some y => exact absurd (numbered.dominated.id_lt going _ y found) (lt_irrefl _)
    have counted : x.id.value ≠ 0 := by
      intro zero
      rw [id] at zero
      exact nextId_ne_zero numbered going (congrArg Id.mk zero)
    have type : MsgType.ofU16? f.type = some .reserveRequest := MsgType.ofU16?_toU16 _
    have other : MsgType.ofU16? f.type ≠ some .register := by
      rw [type]
      decide
    have current := (preserves_handleFrame b float conn other s).authority c.workerId
    have owes : owing (.working reg left x.id.value) = some (reg.boot, x.id) := if_neg counted
    refine ⟨?_, ?_, fun w foreign => ?_⟩
    · rw [told, receive_granted]
      refine books.granted rfl worker active unrecorded recorded (fun boot k owed => ?_)
        (.inl ⟨reg.boot, owes⟩)
      rw [owes] at owed
      cases owed
      exact ⟨rfl, fun _ => current.trans live⟩
    · refine (books.severed s.runtime.registry).granted rfl worker active unrecorded recorded
        (fun boot k owed => ?_) (.inr rfl)
      rw [owing_refused asked rfl] at owed
      cases owed
    · have stranger : x.worker ≠ w := worker ▸ foreign.symm
      refine Untouched.insert stranger (fun r found => ?_) recorded
      rw [unrecorded] at found
      cases found

/-- Releasing the number of a refused reservation changes nothing. -/
theorem release_zero {boot : WorkerBootId} (numbered : Numbered s.runtime.reservations) :
    table (step b float s (.frame conn (Request.release c.workerId boot 0).frame)) = table s := by
  rcases step_reservations b float conn (Request.release c.workerId boot 0).frame s with
    same | ⟨call, asked, called⟩
  · exact congrArg ReservationStore.reservations same
  · rw [asks_release, Option.some.injEq] at asked
    subst asked
    have outcome := release_outcome ⟨0⟩ none s.runtime.reservations
    rw [table, called, ReservationStore.step]
    generalize returned : (release ⟨0⟩ none).run s.runtime.reservations = res at outcome
    have unused := numbered.unused
    cases outcome with
    | unknown absent => rw [stateAfter_of_error returned]
    | refused r e found bad => rw [stateAfter_of_error returned]
    | memory r found good under => rw [stateAfter_of_error returned]
    | slots r m found good mem under => rw [stateAfter_of_error returned]
    | accelerator r m k found good mem slot under => rw [stateAfter_of_error returned]
    | released r m k a found good mem slot accel =>
      rw [unused] at found
      cases found

theorem handled_release {reg : RegisterInfo} {left : ℕ} {id : U64} {reply : Option Frame}
    (numbered : Numbered s.runtime.reservations)
    (books : Books c base s.runtime.reservations (.releasing reg left id) false s.runtime.registry) :
    Handled s (step b float s (.frame conn (Request.release c.workerId reg.boot id).frame)) base c
      (.releasing reg left id) reply := by
  have asked : Phase.request c (.releasing reg left id) = some (.release c.workerId reg.boot id) := rfl
  have after : ∀ reply, owing (Phase.receive c reply (.releasing reg left id)) = none :=
    fun _ => owing_receive asked (by simp)
  by_cases counted : id = 0
  · subst counted
    exact handled_of_same asked books (release_zero b float numbered) rfl (after reply)
  · have owes : owing (.releasing reg left id) = some (reg.boot, ⟨id⟩) := owing_releasing counted
    obtain ⟨x, found, active, worker, -, current⟩ := books.owed _ _ owes
    have closed := release_effect b float conn numbered.toAccounted (current rfl) found active
    refine ⟨?_, ?_, fun w other => ?_⟩
    · exact books.returned owes closed (after reply)
    · exact (books.severed s.runtime.registry).returned owes closed (after none)
    · have stranger : x.worker ≠ w := worker ▸ other.symm
      refine Untouched.insert (q := { x with active := false }) stranger (fun r here => ?_) closed
      obtain rfl : x = r := Option.some.inj (found.symm.trans here)
      exact stranger

/-- Whatever a process calls. -/
theorem handled_request (conn : U64) (asked : p.request c = some q) (numbered : Numbered s.runtime.reservations)
    (books : Books c base s.runtime.reservations p false s.runtime.registry) :
    Handled s (step b float s (.frame conn q.frame)) base c p (answer b float s conn q.frame) := by
  by_cases reserving : ∃ reg left node, p = .reserving reg left node
  · obtain ⟨reg, left, node, rfl⟩ := reserving
    cases asked
    exact handled_reserve b float numbered books
  · by_cases releasing : ∃ reg left id, p = .releasing reg left id
    · obtain ⟨reg, left, id, rfl⟩ := releasing
      cases asked
      exact handled_release b float numbered books
    · push Not at reserving releasing
      have same := reservations_of_asks_none b float s conn (asks_none asked reserving releasing)
      exact handled_of_same asked books (congrArg ReservationStore.reservations same)
        (owing_of_request asked releasing) (owing_receive asked reserving)

end Own

section Events
variable (b : Backend β) (float : FloatCosts) {crew : U64 → Option CommandLine} {s : Coordinator β}
  {ev : Event}

theorem numbered_event (h : Numbered s.runtime.reservations) (wraps : WrapsNothing s ev) :
    Numbered (step b float s ev).runtime.reservations := by
  rcases event_reservations b float ev s with same | ⟨conn, f, c, rfl, asked, called⟩
  · rw [same]
    exact h
  · rw [called]
    exact h.step (wraps c asked)

/-- The worker that a connection remembers is the one that it belongs to. -/
def Entered (crew : U64 → Option CommandLine) (s : Coordinator β) : Prop :=
  ∀ (conn : U64) st, s.conns[conn]? = some st → st.isWorker = true →
    ∀ conn' c, crew conn' = some c → st.workerId = c.workerId → conn = conn'

theorem Entered.event (h : Entered crew s)
    (own : ∀ conn f, ev = .frame conn f → ∀ conn' c, crew conn' = some c →
      registers ev = some c.workerId → conn = conn') : Entered crew (step b float s ev) := by
  intro conn st found worker conn' c member same
  cases ev with
  | frame k f =>
    cases registered : registers (.frame k f) with
    | none =>
      rw [ConnectionLoss.conns_frame b float registered] at found
      exact h conn st found worker conn' c member same
    | some w =>
      rw [(step_registers b float registered s).2, ExtTreeMap.getElem?_insert] at found
      split_ifs at found with here
      · cases found
        rw [← Std.compare_eq_iff_eq.mp here]
        exact own k f rfl conn' c member (registered.trans (congrArg some same))
      · exact h conn st found worker conn' c member same
  | opened k =>
    change (s.conns.insert k {})[conn]? = some st at found
    rw [ExtTreeMap.getElem?_insert] at found
    split_ifs at found
    · cases found
      cases worker
    · exact h conn st found worker conn' c member same
  | closed k =>
    change (s.conns.erase k)[conn]? = some st at found
    rw [ExtTreeMap.getElem?_erase] at found
    split_ifs at found
    exact h conn st found worker conn' c member same
  | lost k =>
    change (s.conns.erase k)[conn]? = some st at found
    rw [ExtTreeMap.getElem?_erase] at found
    split_ifs at found
    exact h conn st found worker conn' c member same
  | advanceEpoch =>
    have kept : Preserves ConnectionLoss.SameConns (Coordinator.advanceEpoch (β := β)) :=
      ConnectionLoss.sameConns_onRuntime _
    have conns : (step b float s .advanceEpoch).conns = s.conns := kept s
    rw [conns] at found
    exact h conn st found worker conn' c member same

/-- A loss marks dead the worker that the connection belongs to. -/
theorem Entered.marksDead (h : Entered crew s) {conn conn' : U64} {c : CommandLine}
    {boot : WorkerBootId} (member : crew conn' = some c)
    (dies : marksDead s (.lost conn) = some (c.workerId, boot)) : conn = conn' := by
  simp only [CoordinatorFencing.marksDead, Option.map_eq_some_iff, Option.filter_eq_some_iff,
    Bool.and_eq_true, Prod.mk.injEq] at dies
  obtain ⟨st, ⟨found, worker, -⟩, same, -⟩ := dies
  exact h conn st found worker conn' c member same

/-- An event of somebody else. -/
structure Foreign (crew : U64 → Option CommandLine) (s : Coordinator β) (ev : Event) : Prop where
  registers : ∀ conn c, crew conn = some c → registers ev ≠ some c.workerId
  spares : ∀ conn c, crew conn = some c → SparesWorker c.workerId s ev
  own : ∀ conn c conn' f req, crew conn = some c → ev = .frame conn' f →
    asks f = some (.reserve req) → req.worker ≠ c.workerId
  lost : ∀ conn c, crew conn = some c → ev ≠ .lost conn

variable {conn : U64} {c : CommandLine}

theorem Foreign.untouched (h : Foreign crew s ev) (member : crew conn = some c) :
    Untouched c.workerId s.runtime.reservations (step b float s ev).runtime.reservations := by
  rcases event_reservations b float ev s with same | ⟨k, f, call, rfl, asked, called⟩
  · exact .of_eq (congrArg ReservationStore.reservations same)
  · rw [called]
    refine untouched_step _ (fun req reserves => ?_) (h.spares conn c member call asked)
    exact h.own conn c k f req member rfl (reserves ▸ asked)

theorem Foreign.keeps (h : Foreign crew s ev) (entered : Entered crew s) (member : crew conn = some c)
    (boot : WorkerBootId) : ¬ Retires s c.workerId boot ev := by
  rintro (again | dies)
  · exact h.registers conn c member again
  · cases ev with
    | lost k => exact h.lost conn c member (congrArg Event.lost (entered.marksDead member dies))
    | frame k f => cases dies
    | opened k => cases dies
    | closed k => cases dies
    | advanceEpoch => cases dies

end Events

end NumaFabric.FleetRequests
