import NumaFabric.WorkerFleet

/-! A worker that moves comes to its end: every call that returns and every piece of work brings it
closer, whatever the others do. -/
namespace NumaFabric.FleetProgress
open FaultState ByteCodec Coordinator WorkerProgram WorkerFleet

variable {β : Type} (b : Backend β) (float : FloatCosts) (crew : U64 → Option CommandLine)
  {s : Fleet β} {conn : U64} {c : CommandLine} {p : Phase}

/-- How many moves a process has still to make at most. -/
def movesLeft (c : CommandLine) : Phase → ℕ
  | .registering => 2 + 4 * c.iterations.toNat
  | .discovering _ => 1 + 4 * c.iterations.toNat
  | .placing _ left => 4 + 4 * left
  | .reserving _ left _ => 3 + 4 * left
  | .working _ left _ => 2 + 4 * left
  | .releasing _ left _ => 1 + 4 * left
  | .ended _ => 0

theorem movesLeft_rounds (reg : RegisterInfo) (left : ℕ) :
    movesLeft c (Phase.rounds c reg left) = 4 * left := by
  cases left with
  | zero => rfl
  | succ left =>
    change 4 + 4 * left = 4 * (left + 1)
    omega

theorem movesLeft_reading {α : Type} {r : Reader Exn α} {f : Frame} {next : α → Phase} {n : ℕ}
    (h : ∀ a, movesLeft c (next a) ≤ n) : movesLeft c (Phase.reading r f next) ≤ n := by
  rw [Phase.reading]
  cases r.run f.payload with
  | ok a rest => exact h a
  | error e rest => exact Nat.zero_le n

/-- Every call that returns brings the end closer, whatever it returns. -/
theorem movesLeft_receive (idle : p.atWork = false) (reply : Option Frame) :
    movesLeft c (p.receive c reply) ≤ movesLeft c p - 1 := by
  have registered : ∀ reg, movesLeft c (Phase.registered reg) ≤ 1 + 4 * c.iterations.toNat := by
    intro reg
    rw [Phase.registered]
    split_ifs
    · exact le_rfl
    · exact Nat.zero_le _
  cases p with
  | registering =>
    have bound : movesLeft c .registering - 1 = 1 + 4 * c.iterations.toNat := by
      rw [movesLeft]
      omega
    rw [bound]
    cases reply with
    | none => exact registered {}
    | some f => exact movesLeft_reading registered
  | discovering reg =>
    have bound : movesLeft c (.discovering reg) - 1 = 4 * c.iterations.toNat := by
      rw [movesLeft]
      omega
    rw [bound]
    cases reply with
    | none => exact (movesLeft_rounds reg _).le
    | some f => exact movesLeft_reading fun _ => (movesLeft_rounds reg _).le
  | placing reg left =>
    rw [Phase.receive]
    cases WorkerSession.accepted reply with
    | none => exact Nat.zero_le _
    | some f =>
      refine movesLeft_reading fun out => ?_
      simp only [movesLeft]
      omega
  | reserving reg left node =>
    have bound : movesLeft c (.reserving reg left node) - 1 = 2 + 4 * left := by
      rw [movesLeft]
      omega
    rw [bound, Phase.receive]
    cases WorkerSession.accepted reply with
    | none => exact le_rfl
    | some f => exact movesLeft_reading fun _ => le_rfl
  | working reg left id => cases idle
  | releasing reg left id =>
    have bound : movesLeft c (.releasing reg left id) - 1 = 4 * left := by
      rw [movesLeft]
      omega
    rw [bound]
    exact (movesLeft_rounds reg left).le
  | ended e => exact Nat.zero_le _

/-- So does the work, whether it gets its memory or not. -/
theorem movesLeft_work (works : p.atWork = true) (allocates : Bool) :
    movesLeft c (p.work c allocates) ≤ movesLeft c p - 1 := by
  obtain ⟨reg, left, id, rfl⟩ := Phase.atWork_iff.mp works
  have bound : movesLeft c (.working reg left id) - 1 = 1 + 4 * left := by
    rw [movesLeft]
    omega
  rw [bound, Phase.work, Phase.worked]
  split_ifs
  · exact le_rfl
  · rw [movesLeft_rounds]
    omega
  · exact Nat.zero_le _

/-- The process on the connection moves in this turn. -/
def moves (conn : U64) : Turn → Bool
  | .move k _ => k == conn
  | _ => false

theorem ended_of_movesLeft (h : movesLeft c p = 0) : ∃ e, p = .ended e := by
  cases p with
  | ended e => exact ⟨e, rfl⟩
  | _ => simp [movesLeft] at h

theorem ended_of_silent (idle : p.atWork = false) (silent : p.request c = none) : ∃ e, p = .ended e := by
  cases p with
  | ended e => exact ⟨e, rfl⟩
  | working reg left id => cases idle
  | _ => cases silent

/-- A process that has received a reply, beside one that is on another connection. -/
theorem movesLeft_received (member : crew conn = some c) {t : Fleet β} {k : U64} {d : CommandLine}
    (reply : Option Frame) (same : t.phases = s.phases) (owner : crew k = some d)
    (idle : (s.phases k).atWork = false) :
    movesLeft c ((t.receive k d reply).phases conn) ≤
      movesLeft c (s.phases conn) - if k == conn then 1 else 0 := by
  rw [Fleet.receive]
  dsimp only
  by_cases here : conn = k
  · subst here
    obtain rfl : c = d := Option.some.inj (member.symm.trans owner)
    rw [Function.update_self, same, beq_self_eq_true, if_pos rfl]
    exact movesLeft_receive idle reply
  · rw [Function.update_of_ne here, same, if_neg (by simpa using Ne.symm here), Nat.sub_zero]

theorem movesLeft_call (member : crew conn = some c) {k : U64} (idle : (s.phases k).atWork = false) :
    movesLeft c ((s.call b float crew k).phases conn) ≤
      movesLeft c (s.phases conn) - if k == conn then 1 else 0 := by
  rw [Fleet.call]
  cases next : s.pending crew k with
  | none =>
    by_cases here : k = conn
    · subst here
      have silent : (s.phases k).request c = none := by
        cases asked : (s.phases k).request c with
        | none => rfl
        | some q =>
          rw [pending_eq_some.mpr ⟨member, asked⟩] at next
          cases next
      obtain ⟨e, ended⟩ := ended_of_silent idle silent
      dsimp only
      rw [ended]
      exact Nat.zero_le _
    · rw [if_neg (by simpa using here), Nat.sub_zero]
  | some x =>
    obtain ⟨d, q⟩ := x
    have owner := (pending_eq_some.mp next).1
    dsimp only
    cases s.cut k with
    | true => exact movesLeft_received crew member none rfl owner idle
    | false => exact movesLeft_received crew (t := s.handle b float k q.frame) member _ rfl owner idle

theorem movesLeft_worked (member : crew conn = some c) {k : U64} (works : (s.phases k).atWork = true)
    (allocates : Bool) :
    movesLeft c ((s.work crew k allocates).phases conn) ≤
      movesLeft c (s.phases conn) - if k == conn then 1 else 0 := by
  rw [Fleet.work]
  by_cases here : conn = k
  · subst here
    rw [member]
    dsimp only
    rw [Function.update_self, beq_self_eq_true, if_pos rfl]
    exact movesLeft_work works allocates
  · rw [if_neg (by simpa using Ne.symm here), Nat.sub_zero]
    cases crew k with
    | none => exact le_rfl
    | some d =>
      dsimp only
      rw [Function.update_of_ne here]

theorem movesLeft_step (member : crew conn = some c) (turn : Turn) :
    movesLeft c ((Fleet.step b float crew s turn).phases conn) ≤
      movesLeft c (s.phases conn) - if moves conn turn then 1 else 0 := by
  cases turn with
  | move k allocates =>
    rw [Fleet.step, moves]
    cases works : (s.phases k).atWork with
    | true => exact movesLeft_worked crew member works allocates
    | false => exact movesLeft_call b float crew member works
  | fail k handled =>
    rw [Fleet.step, Fleet.fail]
    change _ ≤ movesLeft c (s.phases conn)
    cases next : s.pending crew k with
    | none => exact le_rfl
    | some x =>
      obtain ⟨d, q⟩ := x
      have owner := (pending_eq_some.mp next).1
      have idle : (s.phases k).atWork = false := by
        rw [Bool.eq_false_iff]
        intro works
        rw [pending_of_atWork works] at next
        cases next
      dsimp only [Fleet.sever]
      cases handled && !s.cut k with
      | true =>
        exact (movesLeft_received crew (t := s.handle b float k q.frame) member none rfl owner
          idle).trans (Nat.sub_le _ _)
      | false => exact (movesLeft_received crew member none rfl owner idle).trans (Nat.sub_le _ _)
  | lost k => exact le_rfl
  | other ev => exact le_rfl

theorem movesLeft_run (member : crew conn = some c) (turns : List Turn) :
    movesLeft c ((Fleet.run b float crew s turns).phases conn) ≤
      movesLeft c (s.phases conn) - turns.countP (moves conn) := by
  induction turns generalizing s with
  | nil => exact le_rfl
  | cons turn turns ih =>
    have first := movesLeft_step b float crew (s := s) member turn
    have rest := ih (s := Fleet.step b float crew s turn)
    rw [List.countP_cons]
    change movesLeft c ((Fleet.run b float crew (Fleet.step b float crew s turn) turns).phases conn) ≤ _
    omega

end NumaFabric.FleetProgress
