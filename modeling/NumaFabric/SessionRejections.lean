import NumaFabric.SessionAgreement

/-! What a session makes of error replies. Two of its methods do not look at the type of a
reply and one takes any reply for success, and an error that was noted stays noted. -/
namespace NumaFabric.SessionRejections
open FaultState ByteCodec WorkerSession FrameStreamDecoder SessionAgreement

/-- A call of a session: a request, or a ping. -/
inductive Call
  | request (q : Request)
  | ping
  deriving DecidableEq, Repr

namespace Call

def type : Call → MsgType
  | request q => q.type
  | ping => .ping

def payload : Call → ByteString
  | request q => q.payload
  | ping => []

def send : Call → Exec WorkerSession Response
  | request q => q.send
  | ping => return .done (← sendPing)

end Call

section Receive

/-- The flag after the bytes are read: an error sets it, and nothing clears it. -/
inductive Flagged (before : Bool) : EStateM.Result Exn WorkerSession (Option Frame) → Prop
  | frame (f : Frame) (t : WorkerSession)
      (flag : t.lastError = (decide (f.type = MsgType.error.toU16) || before)) :
      Flagged before (.ok (some f) t)
  | nothing (t : WorkerSession) (flag : t.lastError = before) : Flagged before (.ok none t)
  | thrown (e : Exn) (t : WorkerSession) (flag : t.lastError = before) : Flagged before (.error e t)

theorem flagged_noted (f : Frame) (s : WorkerSession) : Flagged s.lastError ((noted f).run s) := by
  obtain ⟨code, msg, same⟩ := recordError_eq f s
  rw [noted]
  split_ifs with error
  · change Flagged s.lastError (.ok (some f) (recordError f s))
    rw [same]
    exact .frame f _ (by simp [error])
  · exact .frame f s (by simp [error])

/-- Bytes that are handed to the decoder do not touch the flag. -/
theorem flagged_push {data : ByteString} {next : Option Frame → Exec WorkerSession (Option Frame)}
    {s : WorkerSession} (rest : ∀ r t, t.lastError = s.lastError → Flagged s.lastError ((next r).run t)) :
    Flagged s.lastError ((WorkerSession.push data >>= next).run s) := by
  rw [EStateM.run_bind, push_run]
  cases decodeOne (s.decoder.buffer ++ data) with
  | error e => exact .thrown e _ rfl
  | ok r =>
    cases r with
    | none => exact rest none _ rfl
    | some p => exact rest (some p.1) _ rfl

theorem flagged_recvChunks (chunks : List ByteString) (s : WorkerSession) :
    Flagged s.lastError ((recvChunks chunks).run s) := by
  induction chunks generalizing s with
  | nil => exact .nothing s rfl
  | cons chunk rest ih =>
    rw [recvChunks]
    simp only [EStateM.run_bind, EStateM.run_modify]
    split_ifs with closed
    · exact .nothing _ rfl
    · refine flagged_push (s := { s with incoming := rest }) fun r t same => ?_
      dsimp only at same ⊢
      rw [← same]
      cases r with
      | none => exact ih t
      | some f => exact flagged_noted f t

theorem flagged_recvFrame (s : WorkerSession) : Flagged s.lastError (recvFrame.run s) := by
  rw [recvFrame]
  simp only [EStateM.run_bind, EStateM.run_get]
  split_ifs with closed
  · exact .nothing s rfl
  · refine flagged_push fun r t same => ?_
    rw [← same]
    cases r with
    | none => exact flagged_recvChunks t.incoming t
    | some f => exact flagged_noted f t

theorem flagged_exchange (type : MsgType) (body : ByteString) (s : WorkerSession) :
    Flagged s.lastError ((exchange type body).run s) := by
  rw [exchange]
  cases encodeFrame type.toU16 body with
  | error e => exact .thrown e s rfl
  | ok bytes =>
    have flag : (if s.connected then { s with sent := s.sent ++ [bytes] } else s).lastError =
        s.lastError := by
      split <;> rfl
    have waited := flagged_recvFrame (if s.connected then { s with sent := s.sent ++ [bytes] } else s)
    rw [flag] at waited
    exact waited

end Receive

section Calls
variable {s t : WorkerSession} {f : Frame} {c : Call}

/-- The reply a call gets. -/
def received (c : Call) (s : WorkerSession) : Option Frame :=
  match (exchange c.type c.payload).run s with
  | .ok reply _ => reply
  | .error _ _ => none

theorem quiet_pure {α : Type} (a : α) : Quiet (pure a : Exec WorkerSession α) := fun _ => rfl

theorem quiet_readReply {α : Type} (r : Reader Exn α) (f : Frame) : Quiet (readReply r f) := by
  intro s
  unfold readReply
  cases r.run f.payload <;> rfl

theorem stateAfter_reading {α : Type} (type : MsgType) (body : ByteString) (r : Reader Exn α) (default : α) :
    stateAfter (exchange type body >>= fun reply =>
      match reply with
      | none => pure default
      | some f => readReply r f) s = stateAfter (exchange type body) s := by
  refine stateAfter_bind_quiet (fun reply => ?_) s
  cases reply with
  | none => exact quiet_pure default
  | some f => exact quiet_readReply r f

theorem stateAfter_accepting {α : Type} (type : MsgType) (body : ByteString) (r : Reader Exn α)
    (default : α) :
    stateAfter (exchange type body >>= fun reply =>
      match accepted reply with
      | none => pure default
      | some f => readReply r f) s = stateAfter (exchange type body) s := by
  refine stateAfter_bind_quiet (fun reply => ?_) s
  cases accepted reply with
  | none => exact quiet_pure default
  | some f => exact quiet_readReply r f

/-- All a call writes it writes while it waits for the reply. -/
theorem stateAfter_send (c : Call) (s : WorkerSession) :
    stateAfter c.send s = stateAfter (exchange c.type c.payload) s := by
  cases c with
  | ping =>
    exact (stateAfter_bind_quiet (fun _ => quiet_pure _) s).trans
      (stateAfter_bind_quiet (fun _ => quiet_pure _) s)
  | request q =>
    cases q with
    | register id pid =>
      exact (stateAfter_bind_quiet (fun _ => quiet_pure _) s).trans
        (stateAfter_reading _ _ registerInfo {})
    | discover =>
      exact (stateAfter_bind_quiet (fun _ => quiet_pure _) s).trans
        (stateAfter_reading _ _ discoverInfo {})
    | placement id boot f =>
      exact (stateAfter_bind_quiet (fun _ => quiet_pure _) s).trans
        (stateAfter_accepting _ _ placementOut {})
    | reserve id boot node bytes cpu accel accelCap =>
      exact (stateAfter_bind_quiet (fun _ => quiet_pure _) s).trans
        (stateAfter_accepting _ _ WorkerSession.pair (0, 0))
    | release id boot reservationId =>
      exact (stateAfter_bind_quiet (fun _ => quiet_pure _) s).trans
        (stateAfter_bind_quiet (fun _ => quiet_pure _) s)
    | bind id boot node apply =>
      exact (stateAfter_bind_quiet (fun _ => quiet_pure _) s).trans
        (stateAfter_accepting _ _ WorkerSession.pair (0, 0))
    | migrate id boot region target reason =>
      exact (stateAfter_bind_quiet (fun _ => quiet_pure _) s).trans
        (stateAfter_accepting _ _ WireReader.flag false)
    | observe id boot node source stale =>
      exact (stateAfter_bind_quiet (fun _ => quiet_pure _) s).trans
        (stateAfter_bind_quiet (fun _ => quiet_pure _) s)

/-- After a call the flag is set if its reply is an error, and is as before otherwise. -/
theorem lastError_send (c : Call) (s : WorkerSession) :
    (stateAfter c.send s).lastError =
      ((received c s).any (fun f => decide (f.type = MsgType.error.toU16)) || s.lastError) := by
  have flagged := flagged_exchange c.type c.payload s
  rw [stateAfter_send, stateAfter, received]
  generalize (exchange c.type c.payload).run s = result at flagged
  cases flagged with
  | frame f t flag => exact flag
  | nothing t flag => exact flag
  | thrown e t flag => exact flag

/-- The call tells its caller that it failed. -/
def Failed : Response → Prop
  | .registered info => info.boot = .invalid
  | .discovered info => info = {}
  | .placed out => out.ok = false
  | .pair first second => first = 0 ∧ second = 0
  | .done ok => ok = false

/-- The payload of an error reply that a call does not take for success: a registration and a
discovery read it as theirs, and a ping does not look at it. -/
def Harmless (payload : ByteString) : Call → Prop
  | .request (.register _ _) => 44 ≤ payload.length ∧ payload.take 8 = List.replicate 8 0
  | .request .discover => 21 ≤ payload.length ∧ payload.take 21 = List.replicate 21 0
  | .ping => False
  | _ => True

theorem run_word {w n : ℕ} {e : Exn} {l : ByteString} (enough : n ≤ l.length) :
    (word w n e).run l = .ok (ofBytes (l.take n)) (l.drop n) := by
  have taken : (take n e).run l = .ok (l.take n) (l.drop n) := by
    rw [take_run, if_neg (by omega)]
  rw [word, run_bind_of_ok taken]
  rfl

theorem run_u64 {l : ByteString} (enough : 8 ≤ l.length) :
    WireReader.u64.run l = .ok (ofBytes (l.take 8)) (l.drop 8) := run_word enough

theorem run_u32 {l : ByteString} (enough : 4 ≤ l.length) :
    WireReader.u32.run l = .ok (ofBytes (l.take 4)) (l.drop 4) := run_word enough

theorem toBytes_zero (w n : ℕ) : toBytes n (0 : BitVec w) = List.replicate n 0 := by
  induction n with
  | zero => rfl
  | succ n ih =>
    rw [toBytes, BitVec.ofNat_eq_ofNat, BitVec.zero_ushiftRight, List.replicate_succ]
    rw [BitVec.ofNat_eq_ofNat] at ih
    rw [ih]
    simp

theorem ofBytes_replicate_zero (w n : ℕ) : (ofBytes (List.replicate n 0) : BitVec w) = 0 := by
  induction n with
  | zero => rfl
  | succ n ih => rw [List.replicate_succ, ofBytes, ih]; simp

/-- A registration reads its reply as failed if the payload is long enough for an acknowledgement,
and the boot there is the invalid one. -/
theorem registerInfo_iff {l : ByteString} :
    (∃ info rest, registerInfo.run l = .ok info rest ∧ info.boot = .invalid) ↔
      44 ≤ l.length ∧ l.take 8 = List.replicate 8 0 := by
  constructor
  · rintro ⟨info, rest, read, invalid⟩
    obtain ⟨boot, l₁, h₁, read⟩ := run_bind_eq_ok.mp read
    obtain ⟨epoch, l₂, h₂, read⟩ := run_bind_eq_ok.mp read
    obtain ⟨policy, l₃, h₃, read⟩ := run_bind_eq_ok.mp read
    obtain ⟨host, l₄, h₄, read⟩ := run_bind_eq_ok.mp read
    obtain ⟨nodes, l₅, h₅, read⟩ := run_bind_eq_ok.mp read
    obtain ⟨digest, l₆, h₆, read⟩ := run_bind_eq_ok.mp read
    obtain ⟨rfl, -⟩ := run_pure_eq_ok.mp read
    obtain rfl : boot = 0 := congrArg Id.value invalid
    rw [word_eq_ok rfl h₁, word_eq_ok rfl h₂, word_eq_ok rfl h₃, word_eq_ok rfl h₄, word_eq_ok rfl h₅,
      word_eq_ok rfl h₆]
    refine ⟨?_, ?_⟩
    · simp only [List.length_append, length_toBytes]
      omega
    · rw [List.take_left' (length_toBytes _ _), toBytes_zero]
  · rintro ⟨enough, zero⟩
    refine ⟨?info, ?rest, ?read, ?boot⟩
    case read =>
      rw [registerInfo, run_bind_of_ok (run_u64 (by omega)),
        run_bind_of_ok (run_u64 (by simp only [List.length_drop]; omega)),
        run_bind_of_ok (run_u64 (by simp only [List.length_drop]; omega)),
        run_bind_of_ok (run_u64 (by simp only [List.length_drop]; omega)),
        run_bind_of_ok (run_u32 (by simp only [List.length_drop]; omega)),
        run_bind_of_ok (run_u64 (by simp only [List.length_drop]; omega))]
      rfl
    rw [zero, ofBytes_replicate_zero]
    rfl

theorem reads_discoverInfo_zero : Reads discoverInfo (List.replicate 21 0) {} :=
  (WireReader.reads_u32 0).bind <| (WireReader.reads_u32 0).bind <| (WireReader.reads_u32 0).bind <|
    (WireReader.reads_u64 0).bind (WireReader.reads_flag false).pure_bind

/-- A discovery reads its reply as failed if everything it reads there is zero. -/
theorem discoverInfo_iff {l : ByteString} :
    (∃ rest, discoverInfo.run l = .ok {} rest) ↔
      21 ≤ l.length ∧ l.take 21 = List.replicate 21 0 := by
  constructor
  · rintro ⟨rest, read⟩
    obtain ⟨nodes, l₁, h₁, read⟩ := run_bind_eq_ok.mp read
    obtain ⟨groups, l₂, h₂, read⟩ := run_bind_eq_ok.mp read
    obtain ⟨processors, l₃, h₃, read⟩ := run_bind_eq_ok.mp read
    obtain ⟨digest, l₄, h₄, read⟩ := run_bind_eq_ok.mp read
    obtain ⟨single, l₅, h₅, read⟩ := run_bind_eq_ok.mp read
    obtain ⟨made, -⟩ := run_pure_eq_ok.mp read
    obtain ⟨byte, l₆, h₆, flag⟩ := run_bind_eq_ok.mp h₅
    obtain ⟨rfl, rfl⟩ := run_pure_eq_ok.mp flag
    rw [DiscoverInfo.mk.injEq] at made
    obtain ⟨rfl, rfl, rfl, rfl, single⟩ := made
    obtain rfl : byte = 0 := by simpa using single
    rw [word_eq_ok rfl h₁, word_eq_ok rfl h₂, word_eq_ok rfl h₃, word_eq_ok rfl h₄, word_eq_ok rfl h₆]
    refine ⟨?_, rfl⟩
    simp only [List.length_append, length_toBytes]
    omega
  · rintro ⟨enough, zero⟩
    refine ⟨l.drop 21, ?_⟩
    have read := reads_discoverInfo_zero (l.drop 21)
    rwa [← zero, List.take_append_drop] at read

section Shapes
variable {α : Type} {type : MsgType} {body : ByteString}

theorem exchange_of_received (got : received c s = some f) :
    ∃ t, (exchange c.type c.payload).run s = .ok (some f) t := by
  unfold received at got
  cases ran : (exchange c.type c.payload).run s with
  | ok reply t =>
    rw [ran] at got
    exact ⟨t, by rw [← got]⟩
  | error e t =>
    rw [ran] at got
    cases got

theorem accepted_error (error : f.type = MsgType.error.toU16) : accepted (some f) = none := by
  simp [accepted, error]

/-- A method that does not look at the type reads the payload. -/
theorem reading_eq_ok (got : (exchange type body).run s = .ok (some f) t) {r : Reader Exn α} {default a : α}
    {u : WorkerSession} :
    (exchange type body >>= fun reply =>
      match reply with
      | none => pure default
      | some f => readReply r f).run s = .ok a u ↔ (∃ rest, r.run f.payload = .ok a rest) ∧ t = u := by
  rw [run_bind_of_ok got]
  change (readReply r f).run t = _ ↔ _
  rw [readReply]
  cases r.run f.payload with
  | ok b rest => simp
  | error e rest => simp

/-- A method that looks at the type returns its default. -/
theorem accepting_run (got : (exchange type body).run s = .ok (some f) t)
    (error : f.type = MsgType.error.toU16) (r : Reader Exn α) (default : α) :
    (exchange type body >>= fun reply =>
      match accepted reply with
      | none => pure default
      | some f => readReply r f).run s = .ok default t := by
  rw [run_bind_of_ok got]
  simp only [accepted_error error]
  rfl

theorem acknowledging_run (got : (exchange type body).run s = .ok (some f) t)
    (error : f.type = MsgType.error.toU16) :
    (exchange type body >>= fun reply => pure (accepted reply).isSome).run s = .ok false t := by
  rw [run_bind_of_ok got, accepted_error error]
  rfl

end Shapes

/-- A call that got an error returns as failed exactly when the payload is harmless to it. -/
theorem failed_iff (got : received c s = some f) (error : f.type = MsgType.error.toU16) :
    (∃ r t, c.send.run s = .ok r t ∧ Failed r) ↔ Harmless f.payload c := by
  obtain ⟨t, ran⟩ := exchange_of_received got
  have returns : ∀ r, c.send.run s = .ok r t → Failed r → ∃ r t, c.send.run s = .ok r t ∧ Failed r :=
    fun r called failed => ⟨r, t, called, failed⟩
  cases c with
  | ping =>
    have called : (Call.send .ping).run s = .ok (.done true) t := by
      have pinged : sendPing.run s = .ok true t := by
        rw [sendPing]
        exact run_bind_of_ok ran
      exact run_bind_of_ok pinged
    simp [called, Failed, Harmless]
  | request q =>
    cases q with
    | register id pid =>
      rw [Harmless, ← registerInfo_iff]
      constructor
      · rintro ⟨r, u, called, failed⟩
        obtain ⟨info, v, inner, made⟩ := run_bind_eq_ok.mp called
        obtain ⟨rfl, rfl⟩ := run_pure_eq_ok.mp made
        obtain ⟨⟨rest, read⟩, -⟩ := (reading_eq_ok ran).mp inner
        exact ⟨info, rest, read, failed⟩
      · rintro ⟨info, rest, read, invalid⟩
        have inner : (sendRegister id pid).run s = .ok info t := (reading_eq_ok ran).mpr ⟨⟨rest, read⟩, rfl⟩
        exact returns (.registered info) (run_bind_of_ok inner) invalid
    | discover =>
      rw [Harmless, ← discoverInfo_iff]
      constructor
      · rintro ⟨r, u, called, failed⟩
        obtain ⟨info, v, inner, made⟩ := run_bind_eq_ok.mp called
        obtain ⟨rfl, rfl⟩ := run_pure_eq_ok.mp made
        obtain ⟨⟨rest, read⟩, -⟩ := (reading_eq_ok ran).mp inner
        obtain rfl : info = {} := failed
        exact ⟨rest, read⟩
      · rintro ⟨rest, read⟩
        have inner : sendDiscover.run s = .ok {} t := (reading_eq_ok ran).mpr ⟨⟨rest, read⟩, rfl⟩
        exact returns (.discovered {}) (run_bind_of_ok inner) rfl
    | placement id boot fields =>
      have inner : (sendPlacement id boot fields).run s = .ok {} t := accepting_run ran error placementOut {}
      exact iff_of_true (returns (.placed {}) (run_bind_of_ok inner) rfl) trivial
    | reserve id boot node bytes cpu accel accelCap =>
      have inner : (sendReserve id boot node bytes cpu accel accelCap).run s = .ok (0, 0) t :=
        accepting_run ran error WorkerSession.pair (0, 0)
      exact iff_of_true (returns (.pair 0 0) (run_bind_of_ok inner) ⟨rfl, rfl⟩) trivial
    | release id boot reservationId =>
      have inner : (sendRelease id boot reservationId).run s = .ok false t := acknowledging_run ran error
      exact iff_of_true (returns (.done false) (run_bind_of_ok inner) rfl) trivial
    | bind id boot node apply =>
      have inner : (sendBind id boot node apply).run s = .ok (0, 0) t :=
        accepting_run ran error WorkerSession.pair (0, 0)
      exact iff_of_true (returns (.pair 0 0) (run_bind_of_ok inner) ⟨rfl, rfl⟩) trivial
    | migrate id boot region target reason =>
      have inner : (sendMigrate id boot region target reason).run s = .ok false t :=
        accepting_run ran error WireReader.flag false
      exact iff_of_true (returns (.done false) (run_bind_of_ok inner) rfl) trivial
    | observe id boot node source stale =>
      have inner : (sendObserve id boot node source stale).run s = .ok false t := acknowledging_run ran error
      exact iff_of_true (returns (.done false) (run_bind_of_ok inner) rfl) trivial

end Calls

section Runs

/-- A session that has just connected, and what its calls of `recv` are going to return. -/
def opened (incoming : List ByteString) : WorkerSession := { connected := true, incoming }

def after (s : WorkerSession) (calls : List Call) : WorkerSession :=
  calls.foldl (fun s c => stateAfter c.send s) s

/-- The replies the calls get, in order. -/
def replies (s : WorkerSession) : List Call → List Frame
  | [] => []
  | c :: calls => (received c s).toList ++ replies (stateAfter c.send s) calls

def IsError (f : Frame) : Prop := f.type = MsgType.error.toU16

instance (f : Frame) : Decidable (IsError f) := inferInstanceAs (Decidable (_ = _))

/-- No error is taken for success, and the flag speaks of the last reply. -/
def Truthful (s : WorkerSession) (calls : List Call) : Prop :=
  ∀ done c, done ++ [c] <+: calls →
    (∀ f, received c (after s done) = some f → IsError f →
      ∃ r t, c.send.run (after s done) = .ok r t ∧ Failed r) ∧
    ((after s (done ++ [c])).lastError = true ↔
      ∃ f, (replies s (done ++ [c])).getLast? = some f ∧ IsError f)

/-- Every error is harmless to the call that gets it, and no other reply follows one. -/
def Benign (s : WorkerSession) (calls : List Call) : Prop :=
  ∀ done c f, done ++ [c] <+: calls → received c (after s done) = some f →
    (IsError f → Harmless f.payload c) ∧ (¬ IsError f → ∀ g ∈ replies s done, ¬ IsError g)

variable {s : WorkerSession} {calls done : List Call} {c : Call}

theorem replies_append (s : WorkerSession) (done calls : List Call) :
    replies s (done ++ calls) = replies s done ++ replies (after s done) calls := by
  induction done generalizing s with
  | nil => rfl
  | cons c done ih => rw [List.cons_append, replies, ih, replies, List.append_assoc]; rfl

theorem replies_concat (s : WorkerSession) (done : List Call) (c : Call) :
    replies s (done ++ [c]) = replies s done ++ (received c (after s done)).toList := by
  rw [replies_append, replies, replies, List.append_nil]

theorem after_concat (s : WorkerSession) (done : List Call) (c : Call) :
    after s (done ++ [c]) = stateAfter c.send (after s done) := by
  rw [after, List.foldl_append]
  rfl

/-- The flag remembers every error there has been. -/
theorem lastError_after (clear : s.lastError = false) (calls : List Call) :
    (after s calls).lastError = true ↔ ∃ g ∈ replies s calls, IsError g := by
  induction calls using List.reverseRecOn with
  | nil => simp [after, replies, clear]
  | append_singleton calls c ih =>
    rw [after_concat, lastError_send, Bool.or_eq_true, ih, replies_concat]
    cases received c (after s calls) with
    | none => simp
    | some f => simp [IsError, or_and_right, exists_or, or_comm]

theorem Benign.mono (benign : Benign s calls) (before : done <+: calls) : Benign s done :=
  fun first c f inside => benign first c f (inside.trans before)

/-- Where no other reply follows an error, the last reply is an error if any is. -/
theorem getLast_of_benign (benign : Benign s calls) :
    (∃ g ∈ replies s calls, IsError g) ↔ ∃ f, (replies s calls).getLast? = some f ∧ IsError f := by
  induction calls using List.reverseRecOn with
  | nil => simp [replies]
  | append_singleton calls c ih =>
    have earlier := ih (benign.mono (List.prefix_append _ _))
    rw [replies_concat]
    cases got : received c (after s calls) with
    | none => simpa using earlier
    | some f =>
      have last : (replies s calls ++ (some f).toList).getLast? = some f := by simp
      simp only [last, Option.some.injEq, exists_eq_left']
      constructor
      · rintro ⟨g, member, error⟩
        by_contra other
        rcases List.mem_append.mp member with before | here
        · exact (benign calls c f List.prefix_rfl got).2 other g before error
        · obtain rfl : g = f := by simpa using here
          exact other error
      · intro error
        exact ⟨f, by simp, error⟩

theorem truthful_iff (clear : s.lastError = false) : Truthful s calls ↔ Benign s calls := by
  constructor
  · intro truthful done c f inside got
    obtain ⟨failed, flag⟩ := truthful done c inside
    refine ⟨fun error => (failed_iff got error).mp (failed f got error), ?_⟩
    intro other g member error
    have noted := (lastError_after clear (done ++ [c])).mpr
      ⟨g, by rw [replies_concat]; exact List.mem_append_left _ member, error⟩
    obtain ⟨h, last, error'⟩ := flag.mp noted
    rw [replies_concat, got] at last
    obtain rfl : f = h := by simpa using last
    exact other error'
  · intro benign done c inside
    refine ⟨fun f got error => (failed_iff got error).mpr ((benign done c f inside got).1 error), ?_⟩
    rw [lastError_after clear, getLast_of_benign (benign.mono inside)]

/-- A session tells rejections from success, call by call, exactly when the errors it gets are
harmless and no other reply follows one. -/
theorem truthful_iff_benign (incoming : List ByteString) (calls : List Call) :
    Truthful (opened incoming) calls ↔ Benign (opened incoming) calls := truthful_iff rfl

/-- The coordinator refuses a ping, and the session returns true. -/
theorem refused_ping_succeeds :
    let s := opened [frameBytes MsgType.error.toU16 []]
    (∃ t, sendPing.run s = .ok true t) ∧ (∃ f, received .ping s = some f ∧ IsError f) ∧
      ¬ Truthful s [.ping] := by
  intro s
  have arrived : s.incoming.flatten = frameBytes MsgType.error.toU16 [] := by simp [s, opened]
  have cut : ∀ c ∈ s.incoming, c ≠ [] := by simpa [s, opened] using frameBytes_ne_nil _ _
  obtain ⟨t, got, -⟩ := exchange_run .ping [] (by decide) (by decide) rfl rfl cut arrived
  have pinged : sendPing.run s = .ok true t := by
    rw [sendPing]
    exact run_bind_of_ok got
  have reply : received .ping s = some { type := MsgType.error.toU16, payload := [] } := by
    change (match (exchange .ping []).run s with | .ok reply _ => reply | .error _ _ => none) = _
    rw [got]
  refine ⟨⟨t, pinged⟩, ⟨_, reply, rfl⟩, ?_⟩
  intro truthful
  obtain ⟨r, u, called, failed⟩ := (truthful [] .ping List.prefix_rfl).1 _ reply rfl
  have done : (Call.send .ping).run s = .ok (.done true) t := run_bind_of_ok pinged
  change (Call.send .ping).run s = _ at called
  rw [done] at called
  cases called
  cases failed

end Runs

end NumaFabric.SessionRejections
