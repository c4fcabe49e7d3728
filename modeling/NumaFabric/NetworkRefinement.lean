import NumaFabric.MessageSessions
import NumaFabric.SessionNetwork

/-! The bytes of any number of connections, cut and interleaved in any way, carry the messages
of a coordinator that handles one request after another. -/
namespace NumaFabric.NetworkRefinement
open FaultState FrameStreamDecoder FrameStream FrameSegmentation Coordinator MessageSessions
  SessionNetwork StepSimulation Relation

variable {β : Type}

/-- A link carries exactly the messages of its dialogue. -/
structure Follows (l : Link) (d : Dialogue) : Prop where
  fresh : l.accepted = false → l = {} ∧ d = {}
  sent : d.sent = l.sent
  inbox : l.inbox = d.inbox.map Message.frame
  serving : l.serving = true → d.closed = false
  busy : l.pending.isSome = true → l.serving = true
  idle : l.serving = true → l.pending = none → Residue l.requests.decoder.buffer
  requests : ∃ waiting cut, l.requests.Carries waiting cut ∧ (l.writable = true → cut = []) ∧
    (l.pending = none → d.requests = waiting) ∧
    ∀ f, l.pending = some f → ∃ m, f = m.frame ∧ d.requests = m :: waiting
  replies : ∃ cut, l.replies.Carries d.replies cut ∧ (l.serving = true → cut = [])
  bounded : l.requests.decoder.buffer.length < kFrameHeaderSize + kMaxPayloadLength + kReceiveBuffer

structure Refines (n : Network β) (s : Sessions β) : Prop where
  quiet : n.raised = false
  coordinator : s.coordinator = n.coordinator
  history : s.history = n.history
  links : ∀ conn, Follows (n.links conn) (s.dialogues conn)

theorem follows_empty : Follows {} {} where
  fresh _ := ⟨rfl, rfl⟩
  sent := rfl
  inbox := rfl
  serving h := by cases h
  busy h := by cases h
  idle h := by cases h
  requests := ⟨[], [], Pipe.carries_empty, fun _ => rfl, fun _ => rfl, fun f h => by cases h⟩
  replies := ⟨[], Pipe.carries_empty, fun _ => rfl⟩
  bounded := by decide

theorem follows_accepted : Follows { accepted := true, serving := true, writable := true } {} where
  fresh h := by cases h
  sent := rfl
  inbox := rfl
  serving _ := rfl
  busy _ := rfl
  idle _ _ := .inl (by decide)
  requests := ⟨[], [], Pipe.carries_empty, fun _ => rfl, fun _ => rfl, fun f h => by cases h⟩
  replies := ⟨[], Pipe.carries_empty, fun _ => rfl⟩
  bounded := by decide

section Steps
variable {b : Backend β} {float : FloatCosts} {n : Network β} {s : Sessions β} {conn : U64}

/-- Both sides move one connection. -/
theorem Refines.put (h : Refines n s) {l : Link} {d : Dialogue} (follows : Follows l d) :
    Refines (n.put conn l) (s.put conn d s.coordinator []) where
  quiet := h.quiet
  coordinator := h.coordinator
  history := by simpa [Network.put, Sessions.put] using h.history
  links c := by
    by_cases same : c = conn
    · simpa [Network.put, Sessions.put, same] using follows
    · simpa [Network.put, Sessions.put, same] using h.links c

/-- A connection moves, and its messages stay where they are. -/
theorem Refines.put_link (h : Refines n s) {l : Link} (follows : Follows l (s.dialogues conn)) :
    Refines (n.put conn l) s where
  quiet := h.quiet
  coordinator := h.coordinator
  history := h.history
  links c := by
    by_cases same : c = conn
    · simpa [Network.put, same] using follows
    · simpa [Network.put, same] using h.links c

/-- A frame of the connection is handled. -/
theorem Refines.put_handled (h : Refines n s) {f : Frame} {l : Link} {d : Dialogue}
    {t : Coordinator β}
    (noted : CoordinatorAuthority.step b float n.coordinator (.frame conn f) = t)
    (follows : Follows l d) :
    Refines ((n.note b float (.frame conn f)).put conn l) (s.put conn d t [.frame conn f]) where
  quiet := h.quiet
  coordinator := noted.symm
  history := by simp [Network.put, Network.note, Sessions.put, h.history]
  links c := by
    by_cases same : c = conn
    · simpa [Network.put, Sessions.put, same] using follows
    · simpa [Network.put, Network.note, Sessions.put, same] using h.links c

/-- Something that is not a frame happens to the coordinator. -/
theorem Refines.note (h : Refines n s) (e : CoordinatorAuthority.Event) (other : isFrame e = false) :
    ∃ t, ReflTransGen (Step b float) s t ∧ Refines (n.note b float e) t := by
  refine ⟨_, .single (.event s e other), h.quiet, ?_, ?_, h.links⟩
  · rw [Network.note, h.coordinator]
  · rw [Network.note, h.history]

theorem Refines.refl (h : Refines n s) : ∃ t, ReflTransGen (Step b float) s t ∧ Refines n t :=
  ⟨s, .refl, h⟩

theorem Refines.accept (h : Refines n s) (conn : U64) :
    ∃ t, ReflTransGen (Step b float) s t ∧ Refines (n.accept b float conn) t := by
  unfold Network.accept
  split_ifs with known
  · exact h.refl
  · obtain ⟨-, nothing⟩ := (h.links conn).fresh (by simpa using known)
    refine Refines.note (h.put_link ?_) _ rfl
    rw [nothing]
    exact follows_accepted

theorem Refines.send (h : Refines n s) (conn : U64) (m : Message) :
    ∃ t, ReflTransGen (Step b float) s t ∧ Refines (n.send conn m) t := by
  have follows := h.links conn
  simp only [Network.send, encodeFrame]
  split_ifs with writable large
  · exact h.refl
  · have small : m.small := Nat.not_lt.mp large
    obtain ⟨waiting, cut, carries, whole, idle, busy⟩ := follows.requests
    obtain rfl := whole writable
    refine ⟨_, .single (.send s conn m), h.put ?_⟩
    exact
      { fresh := fun unknown => by
          obtain ⟨empty, -⟩ := follows.fresh unknown
          simp [empty] at writable
        sent := by simp [follows.sent]
        inbox := follows.inbox
        serving := follows.serving
        busy := follows.busy
        idle := follows.idle
        requests := by
          refine ⟨waiting ++ [m], [], carries.write small, fun _ => rfl, fun free => ?_, fun f next => ?_⟩
          · simp [idle free]
          · obtain ⟨x, frame, first⟩ := busy f next
            exact ⟨x, frame, by simp [first]⟩
        replies := follows.replies
        bounded := follows.bounded }
  · exact h.refl

theorem Refines.sendPart (h : Refines n s) (conn : U64) (m : Message) (k : ℕ) :
    ∃ t, ReflTransGen (Step b float) s t ∧ Refines (n.sendPart conn m k) t := by
  have follows := h.links conn
  simp only [Network.sendPart, encodeFrame]
  split_ifs with writable large
  · exact h.refl
  · have small : m.small := Nat.not_lt.mp large
    obtain ⟨waiting, cut, carries, whole, idle, busy⟩ := follows.requests
    obtain rfl := whole writable
    have missing : min k (m.bytes.length - 1) < m.bytes.length := by
      have := List.length_pos_of_ne_nil (frameBytes_ne_nil m.1.toU16 m.2)
      rw [← Message.bytes] at this
      omega
    have part : (frameBytes m.1.toU16 m.2).dropLast.take k =
        m.bytes.take (min k (m.bytes.length - 1)) := by
      rw [← Message.bytes, List.dropLast_eq_take, List.take_take]
    refine ⟨s, .refl, h.put_link ?_⟩
    rw [part]
    exact
      { fresh := fun unknown => by
          obtain ⟨empty, -⟩ := follows.fresh unknown
          simp [empty] at writable
        sent := follows.sent
        inbox := follows.inbox
        serving := follows.serving
        busy := follows.busy
        idle := follows.idle
        requests := ⟨waiting, _, carries.write_cut small missing, fun still => by simp at still,
          idle, busy⟩
        replies := follows.replies
        bounded := follows.bounded }
  · exact h.refl

theorem length_of_residue {l : ByteString} (waits : Residue l) {k : ℕ} (more : k ≤ kReceiveBuffer) :
    l.length + k < kFrameHeaderSize + kMaxPayloadLength + kReceiveBuffer := by
  have := length_lt_of_residue waits
  omega

theorem Refines.receive (h : Refines n s) (conn : U64) (k : ℕ) :
    ∃ t, ReflTransGen (Step b float) s t ∧ Refines (n.receive conn k) t := by
  have follows := h.links conn
  simp only [Network.receive]
  split_ifs with ready
  · rw [Bool.and_eq_true, Option.isNone_iff_eq_none] at ready
    obtain ⟨serving, free⟩ := ready
    obtain ⟨waiting, cut, carries, whole, idle, -⟩ := follows.requests
    have all := idle free
    have waits := follows.idle serving free
    have known : (n.links conn).accepted = true := by
      by_contra unknown
      obtain ⟨empty, -⟩ := follows.fresh (by simpa using unknown)
      simp [empty] at serving
    have outcome := carries.read k
    have most := @Pipe.length_read (n.links conn).requests k
    generalize (Pipe.read k).run (n.links conn).requests = res at outcome most
    cases outcome with
    | nothing q carries waits =>
      exact ⟨s, .refl, h.put_link
        { fresh := fun unknown => by simp [known] at unknown
          sent := follows.sent
          inbox := follows.inbox
          serving := follows.serving
          busy := fun _ => serving
          idle := fun _ _ => waits
          requests := ⟨waiting, cut, carries, whole, fun _ => all, fun f busy => by cases busy⟩
          replies := follows.replies
          bounded := by simpa using length_of_residue waits (Nat.zero_le _) }⟩
    | message q m rest first carries =>
      exact ⟨s, .refl, h.put_link
        { fresh := fun unknown => by simp [known] at unknown
          sent := follows.sent
          inbox := follows.inbox
          serving := follows.serving
          busy := fun _ => serving
          idle := fun _ free => by cases free
          requests := by
            refine ⟨rest, cut, carries, whole, fun free => ?_, fun f busy => ?_⟩
            · cases free
            · cases busy
              exact ⟨m, rfl, all.trans first⟩
          replies := follows.replies
          bounded := by
            have := most rfl
            have := length_of_residue waits (Nat.min_le_right k kReceiveBuffer)
            dsimp only
            omega }⟩
  · exact h.refl

/-- The reply to a frame is a message. -/
theorem handled_message (b : Backend β) (float : FloatCosts) (conn : U64) (f : Frame)
    (s : Coordinator β) :
    ∃ (r : Message) (t : Coordinator β), r.small ∧
      (handleFrame b float conn f).run s = .ok r.bytes t := by
  obtain ⟨kind, payload, t, -, small, handled⟩ :=
    CoordinatorReplies.handleFrame_answers b float conn f s
  exact ⟨(kind, payload), t, small, handled⟩

/-- A link whose thread has a frame at hand, the oldest message of its dialogue. -/
structure Handles (l : Link) (d : Dialogue) (m : Message) (waiting : List Message) : Prop where
  follows : Follows l d
  oldest : d.requests = m :: waiting
  known : l.accepted = true
  serving : l.serving = true
  taking : d.closed = false
  requests : ∃ cut, l.requests.Carries waiting cut ∧ (l.writable = true → cut = [])
  replies : l.replies.Carries d.replies []

section Handles
variable {l : Link} {d : Dialogue} {m : Message} {waiting : List Message}

theorem Follows.handles (h : Follows l d) {f : Frame} (busy : l.pending = some f) :
    ∃ m waiting, f = m.frame ∧ Handles l d m waiting := by
  obtain ⟨waiting, cut, carries, whole, -, oldest⟩ := h.requests
  obtain ⟨m, rfl, oldest⟩ := oldest f busy
  have serving := h.busy (by rw [busy]; rfl)
  have known : l.accepted = true := by
    by_contra unknown
    obtain ⟨empty, -⟩ := h.fresh (by simpa using unknown)
    simp [empty] at serving
  obtain ⟨left, replies, complete⟩ := h.replies
  obtain rfl := complete serving
  exact ⟨m, waiting, rfl, h, oldest, known, serving, h.serving serving, ⟨cut, carries, whole⟩, replies⟩

/-- The reply breaks off, and the thread gives the connection up. -/
theorem Handles.dropped (h : Handles l d m waiting) {r : Message} (small : r.small) (k : ℕ) :
    Follows
      { l with pending := none, serving := false, replies := l.replies.write (r.bytes.dropLast.take k) }
      { d with requests := waiting, log := d.log ++ [(m, r)], dropped := d.dropped ++ [r], closed := true } := by
  have missing : min k (r.bytes.length - 1) < r.bytes.length := by
    have := List.length_pos_of_ne_nil (frameBytes_ne_nil r.1.toU16 r.2)
    rw [← Message.bytes] at this
    omega
  have part : r.bytes.dropLast.take k = r.bytes.take (min k (r.bytes.length - 1)) := by
    rw [List.dropLast_eq_take, List.take_take]
  obtain ⟨cut, carries, whole⟩ := h.requests
  rw [part]
  exact
    { fresh := fun unknown => by simp [h.known] at unknown
      sent := h.follows.sent
      inbox := h.follows.inbox
      serving := fun still => by cases still
      busy := fun still => by cases still
      idle := fun still => by cases still
      requests := ⟨waiting, cut, carries, whole, fun _ => rfl, fun f busy => by cases busy⟩
      replies := ⟨_, h.replies.write_cut small missing, fun still => by cases still⟩
      bounded := h.follows.bounded }

/-- The reply goes out, and the decoder holds no further frame. -/
theorem Handles.answered_idle (h : Handles l d m waiting) {r : Message} (small : r.small) {q : Pipe}
    {cut : ByteString} (carries : q.Carries waiting cut) (whole : l.writable = true → cut = [])
    (waits : Residue q.decoder.buffer) :
    Follows { l with pending := none, requests := q, replies := l.replies.write r.bytes }
      { d with requests := waiting, replies := d.replies ++ [r], log := d.log ++ [(m, r)] } where
  fresh unknown := by simp [h.known] at unknown
  sent := h.follows.sent
  inbox := h.follows.inbox
  serving := h.follows.serving
  busy _ := h.serving
  idle _ _ := waits
  requests := ⟨waiting, cut, carries, whole, fun _ => rfl, fun f busy => by cases busy⟩
  replies := ⟨[], h.replies.write small, fun _ => rfl⟩
  bounded := by simpa using length_of_residue waits (Nat.zero_le _)

/-- The reply goes out, and the decoder already holds the next frame. -/
theorem Handles.answered_busy (h : Handles l d m waiting) {r m' : Message} (small : r.small) {q : Pipe}
    {rest : List Message} {cut : ByteString} (first : waiting = m' :: rest)
    (carries : q.Carries rest cut) (whole : l.writable = true → cut = [])
    (read : (Pipe.read 0).run l.requests = .ok (some m'.frame) q) :
    Follows
      { l with pending := some m'.frame, requests := q, replies := l.replies.write r.bytes }
      { d with requests := waiting, replies := d.replies ++ [r], log := d.log ++ [(m, r)] } where
  fresh unknown := by simp [h.known] at unknown
  sent := h.follows.sent
  inbox := h.follows.inbox
  serving := h.follows.serving
  busy _ := h.serving
  idle _ free := by cases free
  requests := by
    refine ⟨rest, cut, carries, whole, fun free => ?_, fun f busy => ?_⟩
    · cases free
    · cases busy
      exact ⟨m', rfl, first⟩
  replies := ⟨[], h.replies.write small, fun _ => rfl⟩
  bounded := by
    have most := Pipe.length_read read
    have := h.follows.bounded
    dsimp only
    omega

theorem Handles.answered (h : Handles l d m waiting) {r : Message} (small : r.small) :
    ∃ next q, (Pipe.read 0).run l.requests = .ok next q ∧
      Follows { l with pending := next, requests := q, replies := l.replies.write r.bytes }
        { d with requests := waiting, replies := d.replies ++ [r], log := d.log ++ [(m, r)] } := by
  obtain ⟨cut, carries, whole⟩ := h.requests
  have outcome := carries.read 0
  cases read : (Pipe.read 0).run l.requests with
  | ok next q =>
    rw [read] at outcome
    cases outcome with
    | nothing q carries waits => exact ⟨none, q, rfl, h.answered_idle small carries whole waits⟩
    | message q m' rest first carries =>
      exact ⟨some m'.frame, q, rfl, h.answered_busy small first carries whole read⟩
  | error e q =>
    rw [read] at outcome
    cases outcome

end Handles

theorem Refines.serve (h : Refines n s) (conn : U64) (broken : Option ℕ) :
    ∃ t, ReflTransGen (Step b float) s t ∧ Refines (n.serve b float conn broken) t := by
  unfold Network.serve
  dsimp only
  cases busy : (n.links conn).pending with
  | none => exact h.refl
  | some f =>
    obtain ⟨m, waiting, rfl, handles⟩ := (h.links conn).handles busy
    obtain ⟨r, t, small, handled⟩ := handled_message b float conn m.frame n.coordinator
    have noted : CoordinatorAuthority.step b float n.coordinator (.frame conn m.frame) = t :=
      stateAfter_of_ok handled
    have full : r.bytes.isEmpty = false := by
      simpa [List.isEmpty_iff, Message.bytes] using frameBytes_ne_nil r.1.toU16 r.2
    have handled' := handled
    rw [← h.coordinator] at handled'
    simp only [handled, full, Bool.false_eq_true, if_false]
    cases broken with
    | some k =>
      obtain ⟨u, later, refines⟩ := (h.put_handled noted (handles.dropped small k)).note (.lost conn) rfl
      exact ⟨u, .head (.drop s conn m r waiting t handles.oldest handles.taking handled') later, refines⟩
    | none =>
      obtain ⟨next, q, read, follows⟩ := handles.answered small
      simp only [read]
      exact ⟨_, .single (.answer s conn m r waiting t handles.oldest handles.taking handled'),
        h.put_handled noted follows⟩

theorem Refines.disconnect (h : Refines n s) (conn : U64) :
    ∃ t, ReflTransGen (Step b float) s t ∧ Refines (n.disconnect b float conn) t := by
  have follows := h.links conn
  simp only [Network.disconnect]
  split_ifs with ready
  · rw [Bool.and_eq_true, Option.isNone_iff_eq_none] at ready
    obtain ⟨serving, free⟩ := ready
    obtain ⟨cut, replies, -⟩ := follows.replies
    refine Refines.note (h.put_link ?_) (.lost conn) rfl
    exact
      { fresh := fun unknown => by
          obtain ⟨empty, -⟩ := follows.fresh unknown
          simp [empty] at serving
        sent := follows.sent
        inbox := follows.inbox
        serving := fun still => by cases still
        busy := fun busy => by simp [free] at busy
        idle := fun still => by cases still
        requests := follows.requests
        replies := ⟨cut, replies, fun still => by cases still⟩
        bounded := follows.bounded }
  · exact h.refl

theorem Refines.poll (h : Refines n s) (conn : U64) (k : ℕ) :
    ∃ t, ReflTransGen (Step b float) s t ∧ Refines (n.poll conn k) t := by
  have follows := h.links conn
  simp only [Network.poll]
  split_ifs with known
  · obtain ⟨cut, replies, complete⟩ := follows.replies
    have outcome := replies.read k
    generalize (Pipe.read k).run (n.links conn).replies = res at outcome
    cases outcome with
    | nothing q carries waits =>
      exact ⟨s, .refl, h.put_link
        { follows with
          fresh := fun unknown => by simp [known] at unknown
          replies := ⟨cut, carries, complete⟩ }⟩
    | message q r rest first carries =>
      exact ⟨_, .single (.receive s conn r rest first), h.put
        { follows with
          fresh := fun unknown => by simp [known] at unknown
          inbox := by simp [follows.inbox]
          replies := ⟨cut, carries, complete⟩ }⟩
  · exact h.refl

/-- Every event of the network is some steps of the messages, or none. -/
theorem Refines.step (h : Refines n s) (e : SessionNetwork.Event) :
    ∃ t, ReflTransGen (Step b float) s t ∧ Refines (n.step b float e) t := by
  cases e with
  | accept conn => exact h.accept conn
  | send conn m => exact h.send conn m
  | sendPart conn m k => exact h.sendPart conn m k
  | receive conn k => exact h.receive conn k
  | serve conn broken => exact h.serve conn broken
  | disconnect conn => exact h.disconnect conn
  | poll conn k => exact h.poll conn k
  | advanceEpoch => exact h.note .advanceEpoch rfl

end Steps

/-- What the client of a connection may rely on, against the history of the coordinator. -/
structure Faithful (b : Backend β) (float : FloatCosts) (start : Coordinator β) (n : Network β)
    (conn : U64) : Prop where
  once : (transcript b float conn start n.history).map Prod.fst <+:
    (n.links conn).sent.map Message.frame
  ordered : (n.links conn).inbox.map (fun f => frameBytes f.type f.payload) <+:
    (transcript b float conn start n.history).map Prod.snd
  complete : (n.links conn).Drained →
    (transcript b float conn start n.history).map Prod.fst = (n.links conn).sent.map Message.frame ∧
      (n.links conn).inbox.map (fun f => frameBytes f.type f.payload) =
        (transcript b float conn start n.history).map Prod.snd
  bounded : (n.links conn).requests.decoder.buffered <
    kFrameHeaderSize + kMaxPayloadLength + kReceiveBuffer

theorem Refines.faithful {b : Backend β} {float : FloatCosts} {start : Coordinator β}
    {n : Network β} {s : Sessions β} (h : Refines n s) (consistent : Consistent b float start s)
    (conn : U64) : Faithful b float start n conn := by
  have follows := h.links conn
  have recorded := consistent.recorded conn
  have once := consistent.once conn
  have ordered := consistent.ordered conn
  rw [h.history] at recorded
  have asked : (transcript b float conn start n.history).map Prod.fst =
      ((s.dialogues conn).log.map Prod.fst).map Message.frame := by
    simp [recorded, List.map_map, Function.comp_def]
  have answered : (transcript b float conn start n.history).map Prod.snd =
      ((s.dialogues conn).log.map Prod.snd).map Message.bytes := by
    simp [recorded, List.map_map, Function.comp_def]
  have inbox : (n.links conn).inbox.map (fun f => frameBytes f.type f.payload) =
      (s.dialogues conn).inbox.map Message.bytes := by
    simp [follows.inbox, List.map_map, Function.comp_def, Message.frame, Message.bytes]
  refine ⟨?_, ?_, fun drained => ?_, follows.bounded⟩
  · rw [asked, ← follows.sent, once, List.map_append]
    exact List.prefix_append _ _
  · rw [answered, inbox, ordered, List.append_assoc, List.map_append]
    exact List.prefix_append _ _
  · obtain ⟨waiting, cut, requests, whole, idle, -⟩ := follows.requests
    obtain ⟨left, replies, complete⟩ := follows.replies
    obtain rfl := whole drained.writable
    obtain rfl := complete drained.serving
    have served : (s.dialogues conn).requests = [] := by
      rw [idle drained.pending]
      exact requests.drained drained.requests (follows.idle drained.serving drained.pending)
    have received : (s.dialogues conn).replies = [] := by
      have outcome := decodeOne_outcome (n.links conn).replies.decoder.buffer
      rw [drained.session] at outcome
      cases outcome with
      | residue waits => exact replies.drained drained.replies waits
    have dropped := consistent.kept conn (follows.serving drained.serving)
    rw [asked, answered, inbox, ← follows.sent, once, ordered, served, received, dropped]
    simp

/-- Every state the network reaches follows its messages. -/
theorem reachable (b : Backend β) (float : FloatCosts) (start : Coordinator β)
    (events : List SessionNetwork.Event) :
    ∃ s, Refines (SessionNetwork.run b float { coordinator := start } events) s ∧
      Consistent b float start s := by
  have init : Refines (β := β) { coordinator := start } { coordinator := start } :=
    ⟨rfl, rfl, rfl, fun _ => follows_empty⟩
  have each : ∀ (n : Network β) (s : Sessions β) (e : SessionNetwork.Event), Refines n s →
      ∃ t, ReflTransGen (Step b float) s t ∧ Refines (n.step b float e) t :=
    fun _ _ e related => related.step e
  have keep : ∀ s t : Sessions β, Consistent b float start s → Step b float s t →
      Consistent b float start t := fun _ _ consistent next => consistent.step next
  exact simulates_invariant each keep init (consistent_start start) events

/-- However the bytes of any number of connections are cut, delayed and interleaved, no
thread raises, the coordinator is where its history of whole requests leads, each request is
handled at most once and in order, and each client receives the replies of its own requests
in that order; a connection with nothing on its way has all of them. -/
theorem network_faithful (b : Backend β) (float : FloatCosts) (start : Coordinator β)
    (events : List SessionNetwork.Event) :
    let n := SessionNetwork.run b float { coordinator := start } events
    n.raised = false ∧ n.coordinator = CoordinatorAuthority.run b float start n.history ∧
      ∀ conn, Faithful b float start n conn := by
  intro n
  obtain ⟨s, refines, consistent⟩ := reachable b float start events
  have coordinator := consistent.coordinator
  rw [refines.coordinator, refines.history] at coordinator
  exact ⟨refines.quiet, coordinator, refines.faithful consistent⟩

end NumaFabric.NetworkRefinement
