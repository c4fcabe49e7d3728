import NumaFabric.CoreTypes
import NumaFabric.FaultState

/-! The exception classes, one constructor per throw site, with the text each throw
carries. Texts are sent to clients, so they are data of the model. The checked
operations of identifiers and quantities are here because they throw. -/
namespace NumaFabric

inductive ReservationError
  | requiresNode | empty | oversubscription (node : NumaNodeId) | acceleratorCeiling
  | unknown (id : ReservationId) | duplicateRelease (id : ReservationId)
  | staleRelease (id : ReservationId) | underflow (node : NumaNodeId) | slotUnderflow
  | acceleratorUnderflow | restoreInvalid | restoreDuplicate (id : ReservationId)
  deriving DecidableEq, Repr

def ReservationError.what : ReservationError → ByteString
  | requiresNode => ascii "reservation requires a node"
  | empty => ascii "empty reservation (nothing requested)"
  | oversubscription node => ascii "memory capacity oversubscription on node " ++ node.text
  | acceleratorCeiling => ascii "accelerator-local capacity ceiling exceeded"
  | unknown id => ascii "release of unknown reservation " ++ id.text
  | duplicateRelease id => ascii "duplicate release of reservation " ++ id.text
  | staleRelease id => ascii "stale release generation for reservation " ++ id.text
  | underflow node => ascii "accounting underflow on node " ++ node.text
  | slotUnderflow => ascii "slot accounting underflow"
  | acceleratorUnderflow => ascii "accelerator accounting underflow"
  | restoreInvalid => ascii "cannot restore invalid reservation id"
  | restoreDuplicate id => ascii "duplicate reservation id on restore " ++ id.text

inductive WorkerError
  | registerInvalid | alreadyRegistered (id : WorkerId) | restartInvalid
  | restartUnknown (id : WorkerId) | restoreInvalid
  deriving DecidableEq, Repr

def WorkerError.what : WorkerError → ByteString
  | registerInvalid => ascii "register_worker requires a valid worker id"
  | alreadyRegistered id => ascii "worker already registered: " ++ id.text
  | restartInvalid => ascii "restart_worker requires a valid worker id"
  | restartUnknown id => ascii "cannot restart unknown worker " ++ id.text
  | restoreInvalid => ascii "cannot restore invalid worker identity"

inductive InvalidTransitionError
  | underflow | zeroBytes | releaseUnknown (id : MemoryRegionId)
  | releaseStale (id : MemoryRegionId) | doubleRelease (id : MemoryRegionId)
  | releaseNotPermitted (state : LifecycleState) | transitionUnknown (id : MemoryRegionId)
  | notGuarded (source target : LifecycleState) | migrateUnknown (id : MemoryRegionId)
  | migrateReleased (id : MemoryRegionId) | migrateNotPermitted (state : LifecycleState)
  deriving DecidableEq, Repr

def InvalidTransitionError.what : InvalidTransitionError → ByteString
  | underflow => ascii "accounting underflow: release exceeds node allocation"
  | zeroBytes => ascii "cannot allocate zero bytes"
  | releaseUnknown id => ascii "release of unknown memory region " ++ id.text
  | releaseStale id => ascii "stale release generation for region " ++ id.text
  | doubleRelease id => ascii "double release of region " ++ id.text
  | releaseNotPermitted state => ascii "release not permitted from state " ++ state.text
  | transitionUnknown id => ascii "transition of unknown region " ++ id.text
  | notGuarded source target =>
      ascii "transition from " ++ source.text ++ ascii " to " ++ target.text ++
        ascii " is not guarded"
  | migrateUnknown id => ascii "migrate unknown region " ++ id.text
  | migrateReleased id => ascii "cannot migrate a released region " ++ id.text
  | migrateNotPermitted state => ascii "migrate not permitted from " ++ state.text

inductive MigrationError
  | requiresRegion | requiresTarget | unknownAttempt (id : AttemptId)
  | notActive (id : AttemptId) | alreadyCommitted (id : AttemptId)
  | rollbackCommitted (id : AttemptId)
  deriving DecidableEq, Repr

def MigrationError.what : MigrationError → ByteString
  | requiresRegion => ascii "migration requires a memory region"
  | requiresTarget => ascii "migration requires a target node"
  | unknownAttempt id => ascii "unknown migration attempt " ++ id.text
  | notActive id => ascii "migration attempt is not active " ++ id.text
  | alreadyCommitted id => ascii "migration attempt already committed " ++ id.text
  | rollbackCommitted id => ascii "cannot rollback a committed migration " ++ id.text

inductive RuntimeError
  | staleBinding (id : WorkerId) | unknownNode (node : NumaNodeId) | staleMigration
  deriving DecidableEq, Repr

def RuntimeError.what : RuntimeError → ByteString
  | staleBinding id => ascii "stale worker boot for binding " ++ id.text
  | unknownNode node => ascii "cannot bind to unknown node " ++ node.text
  | staleMigration => ascii "stale boot for migration"

inductive ProtocolError
  | payloadTooLarge | malformedMagic | unsupportedVersion | impossibleLength
  | corruptedChecksum | unknownType
  deriving DecidableEq, Repr

def ProtocolError.what : ProtocolError → ByteString
  | payloadTooLarge => ascii "payload too large"
  | malformedMagic => ascii "malformed magic"
  | unsupportedVersion => ascii "unsupported protocol version"
  | impossibleLength => ascii "impossible payload length"
  | corruptedChecksum => ascii "corrupted checksum"
  | unknownType => ascii "unknown message type"

inductive WireError
  | truncatedPayload | truncatedString | truncatedBlob
  deriving DecidableEq, Repr

def WireError.what : WireError → ByteString
  | truncatedPayload => ascii "truncated wire payload"
  | truncatedString => ascii "truncated wire string"
  | truncatedBlob => ascii "truncated wire blob"

/-- The record lists of a persisted state, as its error texts name them. -/
inductive RecordKind
  | worker | reservation | placement | observation
  deriving DecidableEq, Repr

def RecordKind.text : RecordKind → ByteString
  | worker => ascii "worker"
  | reservation => ascii "reservation"
  | placement => ascii "placement"
  | observation => ascii "observation"

inductive PersistenceError
  | truncatedPayload | truncatedString | truncatedBlob | invalidId (kind : RecordKind)
  | malformedProvenance | tooMany (kind : RecordKind) | payloadTooLarge
  | impossibleCount (kind : RecordKind) | trailingGarbage | cannotOpenTemp | writeFailed
  | renameFailed | cannotOpen | containerTruncated | magicMismatch | unsupportedVersion
  | impossibleLength | lengthMismatch | checksumCorruption
  deriving DecidableEq, Repr

def PersistenceError.what : PersistenceError → ByteString
  | truncatedPayload => ascii "truncated payload"
  | truncatedString => ascii "truncated string"
  | truncatedBlob => ascii "truncated byte blob"
  | invalidId kind => ascii "invalid " ++ kind.text ++ ascii " id"
  | malformedProvenance => ascii "malformed provenance enum"
  | tooMany kind => ascii "too many " ++ kind.text ++ ascii "s"
  | payloadTooLarge => ascii "payload too large"
  | impossibleCount kind => ascii "impossible " ++ kind.text ++ ascii " count"
  | trailingGarbage => ascii "trailing garbage after persisted state"
  | cannotOpenTemp => ascii "cannot open temp file for write"
  | writeFailed => ascii "write failed while persisting state"
  | renameFailed => ascii "atomic rename failed"
  | cannotOpen => ascii "cannot open persisted state"
  | containerTruncated => ascii "persisted container truncated"
  | magicMismatch => ascii "persisted magic mismatch"
  | unsupportedVersion => ascii "unsupported persistence version"
  | impossibleLength => ascii "impossible persisted payload length"
  | lengthMismatch => ascii "persisted length mismatch (truncation/trailing garbage)"
  | checksumCorruption => ascii "persisted checksum corruption"

/-- Every exception that can be in flight above the backend boundary; `badAlloc` is followed only in
the worker process, where the work allocates what the command line asks for. -/
inductive Exn
  | invalidId
  | invalidQuantity
  | invalidAffinity
  | reservation (e : ReservationError)
  | worker (e : WorkerError)
  | invalidTransition (e : InvalidTransitionError)
  | migration (e : MigrationError)
  | runtime (e : RuntimeError)
  | protocol (e : ProtocolError)
  | wire (e : WireError)
  | persistence (e : PersistenceError)
  | badAlloc
  deriving DecidableEq, Repr

def Exn.what : Exn → ByteString
  | invalidId => ascii "invalid identifier"
  | invalidQuantity => ascii "invalid physical quantity"
  | invalidAffinity => ascii "invalid or impossible affinity mask"
  | reservation e => e.what
  | worker e => e.what
  | invalidTransition e => e.what
  | migration e => e.what
  | runtime e => e.what
  | protocol e => e.what
  | wire e => e.what
  | persistence e => e.what
  | badAlloc => ascii "bad allocation"

/-- A literal is compared with its character list, so its length is never decoded. -/
theorem ascii_length_le {s : String} {l : List Char} {n : ℕ} (hs : s = String.ofList l)
    (hl : l.length ≤ n) : (ascii s).length ≤ n := by
  rw [hs, ascii, String.toList_ofList, List.length_map]
  exact hl

theorem ascii_append_length_le {s : String} {l : List Char} {b : ByteString} {m n : ℕ}
    (hs : s = String.ofList l) (hb : b.length ≤ m) (hl : l.length + m ≤ n) :
    (ascii s ++ b).length ≤ n := by
  have h := ascii_length_le hs le_rfl
  rw [List.length_append]
  omega

theorem Id.text_length_le {t : Tag} (i : Id t) : i.text.length ≤ 20 := decimal_length_le i.value

theorem LifecycleState.text_length_le (s : LifecycleState) : s.text.length ≤ 17 := by
  cases s <;> exact ascii_length_le rfl (by decide)

theorem RecordKind.text_length_le (k : RecordKind) : k.text.length ≤ 11 := by
  cases k <;> exact ascii_length_le rfl (by decide)

theorem InvalidTransitionError.what_length_le (e : InvalidTransitionError) :
    e.what.length ≤ 128 := by
  cases e with
  | releaseUnknown id | releaseStale id | doubleRelease id | transitionUnknown id
  | migrateUnknown id | migrateReleased id =>
    exact ascii_append_length_le rfl id.text_length_le (by decide)
  | releaseNotPermitted s | migrateNotPermitted s =>
    exact ascii_append_length_le rfl s.text_length_le (by decide)
  | notGuarded a b =>
    have h1 := ascii_append_length_le (s := "transition from ") rfl a.text_length_le le_rfl
    have h2 := ascii_append_length_le (s := " to ") rfl b.text_length_le le_rfl
    have h3 := ascii_length_le (s := " is not guarded") rfl le_rfl
    simp only [what, List.length_append, List.length_cons, List.length_nil] at h1 h2 h3 ⊢
    omega
  | underflow | zeroBytes => exact ascii_length_le rfl (by decide)

theorem PersistenceError.what_length_le (e : PersistenceError) : e.what.length ≤ 128 := by
  cases e with
  | invalidId k =>
    have h := ascii_append_length_le (s := "invalid ") rfl k.text_length_le le_rfl
    have h' := ascii_length_le (s := " id") rfl le_rfl
    simp only [what, List.length_append, List.length_cons, List.length_nil] at h h' ⊢
    omega
  | tooMany k =>
    have h := ascii_append_length_le (s := "too many ") rfl k.text_length_le le_rfl
    have h' := ascii_length_le (s := "s") rfl le_rfl
    simp only [what, List.length_append, List.length_cons, List.length_nil] at h h' ⊢
    omega
  | impossibleCount k =>
    have h := ascii_append_length_le (s := "impossible ") rfl k.text_length_le le_rfl
    have h' := ascii_length_le (s := " count") rfl le_rfl
    simp only [what, List.length_append, List.length_cons, List.length_nil] at h h' ⊢
    omega
  | _ => exact ascii_length_le rfl (by decide)

/-- No exception text comes near the frame payload limit. -/
theorem Exn.what_length_le (e : Exn) : e.what.length ≤ 128 := by
  cases e with
  | invalidId | invalidQuantity | invalidAffinity | badAlloc => exact ascii_length_le rfl (by decide)
  | reservation e =>
    cases e with
    | oversubscription id | unknown id | duplicateRelease id | staleRelease id | underflow id
    | restoreDuplicate id => exact ascii_append_length_le rfl id.text_length_le (by decide)
    | _ => exact ascii_length_le rfl (by decide)
  | worker e =>
    cases e with
    | alreadyRegistered id | restartUnknown id =>
      exact ascii_append_length_le rfl id.text_length_le (by decide)
    | _ => exact ascii_length_le rfl (by decide)
  | invalidTransition e => exact e.what_length_le
  | migration e =>
    cases e with
    | requiresRegion | requiresTarget => exact ascii_length_le rfl (by decide)
    | unknownAttempt id | notActive id | alreadyCommitted id | rollbackCommitted id =>
      exact ascii_append_length_le rfl id.text_length_le (by decide)
  | runtime e =>
    cases e with
    | staleMigration => exact ascii_length_le rfl (by decide)
    | staleBinding id | unknownNode id =>
      exact ascii_append_length_le rfl id.text_length_le (by decide)
  | protocol e => cases e <;> exact ascii_length_le rfl (by decide)
  | wire e => cases e <;> exact ascii_length_le rfl (by decide)
  | persistence e => exact e.what_length_le

/-- `Generation::next`: the only way a generation advances; it refuses to wrap. -/
def Generation.next {t : Tag} (g : Generation t) : Except Exn (Generation t) :=
  if g.value = u64Max then .error .invalidId else .ok ⟨g.value + 1⟩

theorem Generation.next_ok {t : Tag} {g g' : Generation t} (h : g.next = .ok g') :
    g'.value.toNat = g.value.toNat + 1 := by
  unfold next at h
  split_ifs at h with hm
  cases h
  have hlt := g.value.isLt
  have hne : g.value.toNat ≠ 2 ^ 64 - 1 := fun hn => hm (BitVec.toNat_inj.mp hn)
  have h1 : (1 : U64).toNat = 1 := rfl
  rw [BitVec.toNat_add_of_lt (by omega), h1]

theorem Generation.next_error {t : Tag} {g : Generation t} {e : Exn} (h : g.next = .error e) :
    g.value = u64Max := by
  unfold next at h
  split_ifs at h with hm
  exact hm

theorem Generation.ne_max_of_next {t : Tag} {g g' : Generation t} (h : g.next = .ok g') :
    g.value ≠ u64Max := by
  intro hm
  rw [next, if_pos hm] at h
  cases h

theorem value_lt_max {g : U64} (h : g ≠ u64Max) : g.toNat < 2 ^ 64 - 1 := by
  have hlt := g.isLt
  have hne : g.toNat ≠ 2 ^ 64 - 1 := fun hn => h (BitVec.toNat_inj.mp hn)
  omega

theorem u64_succ {v : U64} {n : ℕ} (h : v.toNat ≤ n) (hn : n < 2 ^ 64 - 1) :
    (v + 1).toNat = v.toNat + 1 := by
  have h1 : (1 : U64).toNat = 1 := rfl
  rw [BitVec.toNat_add_of_lt (by omega), h1]

/-- Checked addition of an integral quantity. -/
def Quantity.add {d : Dimension} {w : ℕ} (a b : Quantity d w) : Except Exn (Quantity d w) :=
  if BitVec.allOnes w - b.value < a.value then .error .invalidQuantity
  else .ok ⟨a.value + b.value⟩

/-- A method body: it reads and writes the object and may throw. -/
abbrev Exec (σ α : Type) := FaultState.Fault Exn σ α

end NumaFabric
