import NumaFabric.CoordinatorReplies
import NumaFabric.CoordinatorAuthority
import NumaFabric.StepSimulation

/-! What the connections of a coordinator are for: each carries whole messages both ways, in
order, and every request is handled once. Here nothing is cut into bytes. -/
namespace NumaFabric.MessageSessions
open FaultState FrameStream Coordinator CoordinatorAuthority CoordinatorReplies StepSimulation
  Relation

variable {β : Type}

/-- The two ends of one connection and the messages between them. -/
structure Dialogue where
  requests : List Message := []
  replies : List Message := []
  inbox : List Message := []
  sent : List Message := []
  log : List (Message × Message) := []
  dropped : List Message := []
  closed : Bool := false

structure Sessions (β : Type) where
  coordinator : Coordinator β
  dialogues : U64 → Dialogue := fun _ => {}
  history : List Event := []

/-- One dialogue has moved, and the coordinator has been through some more events. -/
def Sessions.put (s : Sessions β) (conn : U64) (d : Dialogue) (t : Coordinator β)
    (events : List Event) : Sessions β where
  coordinator := t
  dialogues := Function.update s.dialogues conn d
  history := s.history ++ events

def isFrame : Event → Bool
  | .frame _ _ => true
  | _ => false

/-- A client sends a message, the coordinator answers the oldest one of a connection, the
reply arrives or is lost for good, or something else happens to the coordinator. -/
inductive Step (b : Backend β) (float : FloatCosts) : Sessions β → Sessions β → Prop
  | send (s : Sessions β) (conn : U64) (m : Message) :
      Step b float s (s.put conn
        { s.dialogues conn with
          requests := (s.dialogues conn).requests ++ [m], sent := (s.dialogues conn).sent ++ [m] }
        s.coordinator [])
  | answer (s : Sessions β) (conn : U64) (m r : Message) (rest : List Message) (t : Coordinator β)
      (oldest : (s.dialogues conn).requests = m :: rest)
      (serving : (s.dialogues conn).closed = false)
      (handled : (handleFrame b float conn m.frame).run s.coordinator = .ok r.bytes t) :
      Step b float s (s.put conn
        { s.dialogues conn with
          requests := rest, replies := (s.dialogues conn).replies ++ [r]
          log := (s.dialogues conn).log ++ [(m, r)] }
        t [.frame conn m.frame])
  | drop (s : Sessions β) (conn : U64) (m r : Message) (rest : List Message) (t : Coordinator β)
      (oldest : (s.dialogues conn).requests = m :: rest)
      (serving : (s.dialogues conn).closed = false)
      (handled : (handleFrame b float conn m.frame).run s.coordinator = .ok r.bytes t) :
      Step b float s (s.put conn
        { s.dialogues conn with
          requests := rest, log := (s.dialogues conn).log ++ [(m, r)]
          dropped := (s.dialogues conn).dropped ++ [r], closed := true }
        t [.frame conn m.frame])
  | receive (s : Sessions β) (conn : U64) (r : Message) (rest : List Message)
      (oldest : (s.dialogues conn).replies = r :: rest) :
      Step b float s (s.put conn
        { s.dialogues conn with
          replies := rest, inbox := (s.dialogues conn).inbox ++ [r] }
        s.coordinator [])
  | event (s : Sessions β) (e : Event) (other : isFrame e = false) :
      Step b float s
        { s with
          coordinator := CoordinatorAuthority.step b float s.coordinator e
          history := s.history ++ [e] }

section Transcript
variable (b : Backend β) (float : FloatCosts) (conn : U64)

/-- What the coordinator returns for an event, if it is a frame of the connection. -/
def entry (s : Coordinator β) : Event → List (Frame × ByteString)
  | .frame c f =>
    if c = conn then
      match (handleFrame b float c f).run s with
      | .ok out _ => [(f, out)]
      | .error _ _ => []
    else []
  | _ => []

/-- The frames of one connection with their replies, as the coordinator alone goes through
the events one after another. -/
def transcript (s : Coordinator β) : List Event → List (Frame × ByteString)
  | [] => []
  | e :: events => entry b float conn s e ++ transcript (CoordinatorAuthority.step b float s e) events

theorem transcript_concat (s : Coordinator β) (events : List Event) (e : Event) :
    transcript b float conn s (events ++ [e]) =
      transcript b float conn s events ++
        entry b float conn (CoordinatorAuthority.run b float s events) e := by
  induction events generalizing s with
  | nil => simp [transcript, CoordinatorAuthority.run]
  | cons x events ih =>
    simp only [List.cons_append, transcript, ih, CoordinatorAuthority.run, List.foldl_cons,
      List.append_assoc]

theorem entry_of_not_frame {s : Coordinator β} {e : Event} (other : isFrame e = false) :
    entry b float conn s e = [] := by
  cases e <;> first | rfl | cases other

variable {b float conn}

theorem entry_frame {s t : Coordinator β} {f : Frame} {out : ByteString}
    (handled : (handleFrame b float conn f).run s = .ok out t) :
    entry b float conn s (.frame conn f) = [(f, out)] := by
  simp [entry, handled]

theorem entry_of_ne {s : Coordinator β} {c : U64} {f : Frame} (other : c ≠ conn) :
    entry b float conn s (.frame c f) = [] := by
  simp [entry, other]

end Transcript

/-- The coordinator is where its history leads, and every dialogue is its own part of it. -/
structure Consistent (b : Backend β) (float : FloatCosts) (start : Coordinator β) (s : Sessions β) :
    Prop where
  coordinator : s.coordinator = CoordinatorAuthority.run b float start s.history
  once : ∀ conn, (s.dialogues conn).sent =
    (s.dialogues conn).log.map Prod.fst ++ (s.dialogues conn).requests
  ordered : ∀ conn, (s.dialogues conn).log.map Prod.snd =
    (s.dialogues conn).inbox ++ (s.dialogues conn).replies ++ (s.dialogues conn).dropped
  kept : ∀ conn, (s.dialogues conn).closed = false → (s.dialogues conn).dropped = []
  recorded : ∀ conn, transcript b float conn start s.history =
    (s.dialogues conn).log.map fun p => (p.1.frame, p.2.bytes)

section Steps
variable {b : Backend β} {float : FloatCosts} {start : Coordinator β} {s t : Sessions β}

/-- A dialogue moves and the coordinator does not. -/
theorem Consistent.put_quiet (h : Consistent b float start s) (conn : U64) {d : Dialogue}
    (once : d.sent = d.log.map Prod.fst ++ d.requests)
    (ordered : d.log.map Prod.snd = d.inbox ++ d.replies ++ d.dropped)
    (kept : d.closed = false → d.dropped = []) (log : d.log = (s.dialogues conn).log) :
    Consistent b float start (s.put conn d s.coordinator []) where
  coordinator := by simpa [Sessions.put] using h.coordinator
  once c := by
    by_cases same : c = conn
    · simpa [Sessions.put, same] using once
    · simpa [Sessions.put, same] using h.once c
  ordered c := by
    by_cases same : c = conn
    · simpa [Sessions.put, same] using ordered
    · simpa [Sessions.put, same] using h.ordered c
  kept c := by
    by_cases same : c = conn
    · simpa [Sessions.put, same] using kept
    · simpa [Sessions.put, same] using h.kept c
  recorded c := by
    by_cases same : c = conn
    · simpa [Sessions.put, same, log] using h.recorded conn
    · simpa [Sessions.put, same] using h.recorded c

/-- The coordinator handles the oldest request of a dialogue. -/
theorem Consistent.put_handled (h : Consistent b float start s) {conn : U64} {m r : Message}
    {t : Coordinator β} {d : Dialogue}
    (handled : (handleFrame b float conn m.frame).run s.coordinator = .ok r.bytes t)
    (log : d.log = (s.dialogues conn).log ++ [(m, r)])
    (once : d.sent = d.log.map Prod.fst ++ d.requests)
    (ordered : d.log.map Prod.snd = d.inbox ++ d.replies ++ d.dropped)
    (kept : d.closed = false → d.dropped = []) :
    Consistent b float start (s.put conn d t [.frame conn m.frame]) where
  coordinator := by
    have after : CoordinatorAuthority.step b float s.coordinator (.frame conn m.frame) = t :=
      stateAfter_of_ok handled
    have before := h.coordinator
    simp only [Sessions.put, CoordinatorAuthority.run, List.foldl_append, List.foldl_cons,
      List.foldl_nil] at before ⊢
    rw [← before, after]
  once c := by
    by_cases same : c = conn
    · simpa [Sessions.put, same] using once
    · simpa [Sessions.put, same] using h.once c
  ordered c := by
    by_cases same : c = conn
    · simpa [Sessions.put, same] using ordered
    · simpa [Sessions.put, same] using h.ordered c
  kept c := by
    by_cases same : c = conn
    · simpa [Sessions.put, same] using kept
    · simpa [Sessions.put, same] using h.kept c
  recorded c := by
    have before := h.recorded c
    simp only [Sessions.put]
    rw [transcript_concat, ← h.coordinator, before]
    by_cases same : c = conn
    · subst same
      simp [entry_frame handled, log]
    · simp [entry_of_ne (Ne.symm same), same]

theorem Consistent.step (h : Consistent b float start s) (next : Step b float s t) :
    Consistent b float start t := by
  cases next with
  | send conn m =>
    exact h.put_quiet conn (by simp [h.once conn]) (h.ordered conn) (h.kept conn) rfl
  | answer conn m r rest t oldest serving handled =>
    have none_dropped := h.kept conn serving
    refine h.put_handled handled rfl ?_ ?_ fun _ => none_dropped
    · simp [h.once conn, oldest]
    · simp [h.ordered conn, none_dropped]
  | drop conn m r rest t oldest serving handled =>
    refine h.put_handled handled rfl ?_ ?_ fun still => absurd still (by simp)
    · simp [h.once conn, oldest]
    · simp [h.ordered conn]
  | receive conn r rest oldest =>
    refine h.put_quiet conn (h.once conn) ?_ (h.kept conn) rfl
    simp [h.ordered conn, oldest]
  | event e other =>
    refine ⟨?_, h.once, h.ordered, h.kept, fun conn => ?_⟩
    · have before := h.coordinator
      simp only [CoordinatorAuthority.run, List.foldl_append, List.foldl_cons,
        List.foldl_nil] at before ⊢
      rw [← before]
    · rw [transcript_concat, entry_of_not_frame b float conn other, List.append_nil]
      exact h.recorded conn

theorem consistent_start (start : Coordinator β) :
    Consistent b float start { coordinator := start } :=
  ⟨rfl, fun _ => rfl, fun _ => rfl, fun _ _ => rfl, fun _ => rfl⟩

end Steps

end NumaFabric.MessageSessions
