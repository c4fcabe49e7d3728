import NumaFabric.NetworkRefinement

/-! No request gets stuck: as long as a connection is up, its own thread and its own client
can bring everything that was sent to its end, whatever the others do. -/
namespace NumaFabric.NetworkProgress
open FaultState FrameStreamDecoder FrameStream FrameSegmentation Coordinator MessageSessions
  SessionNetwork NetworkRefinement StepSimulation Relation

variable {β : Type}

/-- The bytes a pipe still has to move or to take apart. -/
def load (p : Pipe) : ℕ := 2 * p.wire.length + p.decoder.buffer.length

/-- A receive moves bytes on, and a message that is taken is gone. -/
theorem load_read {n : ℕ} {p q : Pipe} {next : Option Frame}
    (h : (Pipe.read n).run p = .ok next q) :
    load q + min (min n kReceiveBuffer) p.wire.length + (if next.isSome then 1 else 0) ≤ load p := by
  simp only [Pipe.read, EStateM.run_bind, EStateM.run_get, EStateM.run_modify, run_zoom,
    FrameStream.push_run] at h
  have outcome := decodeOne_outcome (p.decoder.buffer ++ p.wire.take (min n kReceiveBuffer))
  generalize hd : decodeOne (p.decoder.buffer ++ p.wire.take (min n kReceiveBuffer)) = res at outcome h
  cases outcome with
  | residue _ =>
    cases h
    simp only [load, List.length_append, List.length_take, List.length_drop]
    simp
    omega
  | frame t payload rest small bytes =>
    cases h
    have total := congrArg List.length bytes
    simp only [List.length_append, List.length_take, length_frameBytes] at total
    have size : kFrameHeaderSize = 20 := rfl
    simp only [load, List.length_append, List.length_take, List.length_drop]
    simp
    omega
  | malformed e => cases h

/-- The events with which a connection makes headway. -/
def Headway (conn : U64) : SessionNetwork.Event → Prop
  | .receive c _ => c = conn
  | .serve c broken => c = conn ∧ broken = none
  | .poll c _ => c = conn
  | _ => False

/-- A connection that is up and follows its messages. -/
structure Up (n : Network β) (s : Sessions β) (conn : U64) : Prop where
  refines : Refines n s
  serving : (n.links conn).serving = true
  writable : (n.links conn).writable = true

section Rounds
variable (b : Backend β) (float : FloatCosts) {n : Network β} {s : Sessions β} {conn : U64}

theorem Up.known (h : Up n s conn) : (n.links conn).accepted = true := by
  by_contra unknown
  obtain ⟨empty, -⟩ := (h.refines.links conn).fresh (by simpa using unknown)
  have serving := h.serving
  simp [empty] at serving

/-- A thread that waits takes what has arrived. -/
theorem Up.receive (h : Up n s conn) (free : (n.links conn).pending = none) (k : ℕ) :
    ∃ next q, (Pipe.read k).run (n.links conn).requests = .ok next q ∧
      n.step b float (.receive conn k) =
        n.put conn { n.links conn with requests := q, pending := next } ∧
      ∃ t, Up (n.step b float (.receive conn k)) t conn := by
  obtain ⟨t, -, refines⟩ := h.refines.step (.receive conn k)
  obtain ⟨waiting, cut, carries, -⟩ := (h.refines.links conn).requests
  have outcome := carries.read k
  cases hr : (Pipe.read k).run (n.links conn).requests with
  | error e q =>
    rw [hr] at outcome
    cases outcome
  | ok next q =>
    have moved : n.step b float (.receive conn k) =
        n.put conn { n.links conn with requests := q, pending := next } := by
      simp [Network.step, Network.receive, h.serving, free, hr]
    refine ⟨next, q, rfl, moved, t, refines, ?_, ?_⟩
    · simp [moved, Network.put, h.serving]
    · simp [moved, Network.put, h.writable]

/-- A thread that has a frame answers it and looks for the next one. -/
theorem Up.serve (h : Up n s conn) {f : Frame} (busy : (n.links conn).pending = some f) :
    ∃ next q replies, (Pipe.read 0).run (n.links conn).requests = .ok next q ∧
      (n.step b float (.serve conn none)).links conn =
        { n.links conn with requests := q, pending := next, replies } ∧
      ∃ t, Up (n.step b float (.serve conn none)) t conn := by
  obtain ⟨t, -, refines⟩ := h.refines.step (.serve conn none)
  obtain ⟨waiting, cut, carries, -⟩ := (h.refines.links conn).requests
  obtain ⟨r, u, small, handled⟩ := handled_message b float conn f n.coordinator
  have outcome := carries.read 0
  cases hr : (Pipe.read 0).run (n.links conn).requests with
  | error e q =>
    rw [hr] at outcome
    cases outcome
  | ok next q =>
    have moved : (n.step b float (.serve conn none)).links conn =
        { n.links conn with
          requests := q, pending := next, replies := (n.links conn).replies.write r.bytes } := by
      simp [Network.step, Network.serve, busy, handled, hr, Network.put]
    refine ⟨next, q, _, rfl, moved, t, refines, ?_, ?_⟩
    · simp [moved, h.serving]
    · simp [moved, h.writable]

/-- A client takes what has arrived. -/
theorem Up.poll (h : Up n s conn) (k : ℕ) :
    ∃ next q inbox, (Pipe.read k).run (n.links conn).replies = .ok next q ∧
      (n.step b float (.poll conn k)).links conn = { n.links conn with replies := q, inbox } ∧
      ∃ t, Up (n.step b float (.poll conn k)) t conn := by
  obtain ⟨t, -, refines⟩ := h.refines.step (.poll conn k)
  obtain ⟨cut, carries, -⟩ := (h.refines.links conn).replies
  have known := h.known
  have outcome := carries.read k
  have moved : ∀ next q, (Pipe.read k).run (n.links conn).replies = .ok next q →
      ∃ inbox, (n.step b float (.poll conn k)).links conn =
        { n.links conn with replies := q, inbox } := by
    intro next q hr
    cases next <;> simp [Network.step, Network.poll, known, hr, Network.put]
  cases hr : (Pipe.read k).run (n.links conn).replies with
  | error e q =>
    rw [hr] at outcome
    cases outcome
  | ok next q =>
    obtain ⟨inbox, moved⟩ := moved next q hr
    refine ⟨next, q, inbox, rfl, moved, t, refines, ?_, ?_⟩
    · simp [moved, h.serving]
    · simp [moved, h.writable]

/-- What a thread still has before it, its own frame included. -/
def effort (l : Link) : ℕ := load l.requests + if l.pending.isSome then 1 else 0

/-- With its own events alone the thread of the connection handles all that was sent to it. -/
def Served (n : Network β) (conn : U64) : Prop :=
  ∃ more, (∀ e ∈ more, Headway conn e) ∧ (∃ t, Up (SessionNetwork.run b float n more) t conn) ∧
    ((SessionNetwork.run b float n more).links conn).sent = (n.links conn).sent ∧
    ((SessionNetwork.run b float n more).links conn).pending = none ∧
    ((SessionNetwork.run b float n more).links conn).requests.wire = []

/-- With its own events alone the client of the connection receives every reply. -/
def Received (n : Network β) (conn : U64) : Prop :=
  ∃ more, (∀ e ∈ more, Headway conn e) ∧ (∃ t, Up (SessionNetwork.run b float n more) t conn) ∧
    ((SessionNetwork.run b float n more).links conn).sent = (n.links conn).sent ∧
    ((SessionNetwork.run b float n more).links conn).pending = (n.links conn).pending ∧
    ((SessionNetwork.run b float n more).links conn).requests = (n.links conn).requests ∧
    ((SessionNetwork.run b float n more).links conn).replies.wire = [] ∧
    decodeOne ((SessionNetwork.run b float n more).links conn).replies.decoder.buffer = .ok none

theorem Up.served (h : Up n s conn) : Served b float n conn := by
  induction hm : effort (n.links conn) using Nat.strong_induction_on generalizing n s with
  | _ m ih =>
    -- one event of the connection brings it nearer to its end
    have onward : ∀ e, Headway conn e → (∃ t, Up (n.step b float e) t conn) →
        ((n.step b float e).links conn).sent = (n.links conn).sent →
        effort ((n.step b float e).links conn) < m → Served b float n conn := by
      rintro e headway ⟨t, up⟩ sent less
      obtain ⟨more, moves, ended, same, rest⟩ := ih _ less up rfl
      exact ⟨e :: more, by simpa [headway] using moves, ended, same.trans sent, rest⟩
    cases busy : (n.links conn).pending with
    | some f =>
      obtain ⟨next, q, replies, taken, link, up⟩ := h.serve b float busy
      refine onward (.serve conn none) ⟨rfl, rfl⟩ up (by rw [link]) ?_
      have less := load_read taken
      simp only [effort, busy, Option.isSome_some, if_true] at hm
      simp only [effort, link]
      omega
    | none =>
      by_cases empty : (n.links conn).requests.wire = []
      · exact ⟨[], by simp, ⟨s, h⟩, rfl, busy, empty⟩
      · obtain ⟨next, q, taken, step, up⟩ :=
          h.receive b float busy (n.links conn).requests.wire.length
        have link : (n.step b float (.receive conn (n.links conn).requests.wire.length)).links conn =
            { n.links conn with requests := q, pending := next } := by
          simp [step, Network.put]
        refine onward (.receive conn _) rfl up (by rw [link]) ?_
        have less := load_read taken
        have some_left := List.length_pos_of_ne_nil empty
        have size : kReceiveBuffer = 16384 := rfl
        simp only [effort, busy, Option.isSome_none, Bool.false_eq_true, if_false] at hm
        simp only [effort, link]
        omega

theorem Up.received (h : Up n s conn) : Received b float n conn := by
  induction hm : load (n.links conn).replies using Nat.strong_induction_on generalizing n s with
  | _ m ih =>
    obtain ⟨next, q, inbox, taken, link, t, up⟩ :=
      h.poll b float (n.links conn).replies.wire.length
    have less := load_read taken
    have size : kReceiveBuffer = 16384 := rfl
    by_cases ended : (n.links conn).replies.wire = [] ∧ next = none
    · obtain ⟨empty, rfl⟩ := ended
      obtain ⟨cut, carries, -⟩ := (h.refines.links conn).replies
      have outcome := carries.read (n.links conn).replies.wire.length
      rw [taken] at outcome
      cases outcome with
      | nothing q _ waits =>
        have gone : q.wire = [] := by simp [Pipe.wire_read taken, empty]
        refine ⟨[.poll conn _], by simp [Headway], ⟨t, up⟩, ?_⟩
        change ((n.step b float (.poll conn _)).links conn).sent = _ ∧ _
        simp [SessionNetwork.run, link, gone, decodeOne_of_residue waits]
    · have lower : load ((n.step b float (.poll conn (n.links conn).replies.wire.length)).links
          conn).replies < m := by
        rw [link]
        by_cases empty : (n.links conn).replies.wire = []
        · have found : next.isSome = true := by
            rw [Option.isSome_iff_ne_none]
            exact fun nothing => ended ⟨empty, nothing⟩
          simp only [found, if_true] at less
          dsimp only
          omega
        · have some_left := List.length_pos_of_ne_nil empty
          dsimp only
          omega
      obtain ⟨more, moves, still, sent, pending, requests, rest⟩ := ih _ lower up rfl
      rw [link] at sent pending requests
      exact ⟨_ :: more, by simpa [Headway] using moves, still, sent, pending, requests, rest⟩

end Rounds

/-- From every state the network reaches, the events of a connection that is up are enough to
answer all that its client has sent, and the client has every answer then. -/
theorem network_completes (b : Backend β) (float : FloatCosts) (start : Coordinator β)
    (events : List SessionNetwork.Event) (conn : U64) :
    let n := SessionNetwork.run b float { coordinator := start } events
    (n.links conn).serving = true → (n.links conn).writable = true →
      ∃ more, (∀ e ∈ more, Headway conn e) ∧
        let m := SessionNetwork.run b float n more
        (m.links conn).Drained ∧ (m.links conn).sent = (n.links conn).sent ∧
          (transcript b float conn start m.history).map Prod.fst =
            (n.links conn).sent.map Message.frame ∧
          (m.links conn).inbox.map (fun f => frameBytes f.type f.payload) =
            (transcript b float conn start m.history).map Prod.snd := by
  intro n serving writable
  obtain ⟨s, refines, -⟩ := reachable b float start events
  obtain ⟨first, moves, ⟨t, up⟩, sent, pending, requests⟩ :=
    (Up.mk refines serving writable).served b float
  obtain ⟨second, moves', ⟨u, up'⟩, sent', pending', requests', replies, session⟩ :=
    up.received b float
  have whole : SessionNetwork.run b float n (first ++ second) =
      SessionNetwork.run b float (SessionNetwork.run b float n first) second := List.foldl_append
  have drained : ((SessionNetwork.run b float n (first ++ second)).links conn).Drained := by
    rw [whole]
    exact ⟨up'.serving, up'.writable, by rw [requests', requests], by rw [pending', pending],
      replies, session⟩
  have same : ((SessionNetwork.run b float n (first ++ second)).links conn).sent =
      (n.links conn).sent := by
    rw [whole, sent', sent]
  have all : SessionNetwork.run b float n (first ++ second) =
      SessionNetwork.run b float { coordinator := start } (events ++ (first ++ second)) :=
    List.foldl_append.symm
  obtain ⟨v, refines', consistent⟩ := reachable b float start (events ++ (first ++ second))
  have complete := (refines'.faithful consistent conn).complete
  rw [← all] at complete
  obtain ⟨asked, answered⟩ := complete drained
  refine ⟨first ++ second, fun e he => ?_, drained, same, by rw [asked, same], answered⟩
  exact (List.mem_append.mp he).elim (moves e) (moves' e)

section Examples

def noCosts : FloatCosts := ⟨fun _ _ => 0, fun _ => 0⟩

/-- A client has sent a ping, of which nothing has been received. -/
def pinged : Network Unit :=
  SessionNetwork.run (MemoryAccounting.budgeted 64) noCosts
    { coordinator := { runtime := { migrator := MigrationManager.initial () fun _ => 0 } } }
    [.accept 1, .send 1 (.ping, [])]

theorem network_completes_ping :
    ∃ more, let m := SessionNetwork.run (MemoryAccounting.budgeted 64) noCosts pinged more
      (m.links 1).Drained ∧ (m.links 1).sent = [(.ping, [])] := by
  obtain ⟨more, -, drained, sent, -⟩ := network_completes (MemoryAccounting.budgeted 64) noCosts
    { runtime := { migrator := MigrationManager.initial () fun _ => 0 } }
    [.accept 1, .send 1 (.ping, [])] 1 rfl rfl
  exact ⟨more, drained, sent⟩

end Examples

end NumaFabric.NetworkProgress
