import NumaFabric.SessionAgreement

/-! The worker process: it registers, and in each round obtains a placement, reserves what it
was promised, works, and gives it back. The work allocates as many bytes as were reserved, which
can throw; then the process ends without giving them back. -/
namespace NumaFabric.WorkerProgram
open FaultState ByteCodec Coordinator FrameStreamDecoder WorkerSession
open FrameStream (Message)
open SessionAgreement (Request readReply_run push_run)

/-- What the process is started with; the name of its marker file is left out. -/
structure CommandLine where
  id : U32 := 1
  pid : ProcessId
  footprint : U64 := 32 * 1024 * 1024
  iterations : ℤ := 1
  hold : Bool := false
  releaseAtEnd : Bool := true
  deriving DecidableEq, Repr

/-- A worker told to hold stays connected until it is killed. -/
inductive Ending
  | exit (code : ℕ)
  | holding
  deriving DecidableEq, Repr

namespace CommandLine

def workerId (c : CommandLine) : WorkerId := ⟨c.id.setWidth 64⟩

def fields (c : CommandLine) (reg : RegisterInfo) : PlacementFields where
  epoch := reg.epoch
  footprint := c.footprint
  preferred := ⟨0⟩
  required := ⟨0⟩
  hasRequired := false
  requireAccelerator := false
  accelerator := ⟨0⟩
  cpu := 0
  allowFallback := true
  revalidation := false

end CommandLine

section Program
variable (c : CommandLine)

/-- `checksum_work`, whose vector the process may not get. The sum only goes to the marker file. -/
def checksumWork (allocates : Bool) : Exec WorkerSession Unit :=
  if allocates then return () else throw .badAlloc

/-- The body of the loop; `false` is a placement that was not answered. -/
def lap (reg : RegisterInfo) (allocates : Bool) : Exec WorkerSession Bool := do
  let place ← sendPlacement c.workerId reg.boot (c.fields reg)
  if !place.ok then return false
  let rr ← sendReserve c.workerId reg.boot place.node c.footprint 2 0 false
  checksumWork allocates
  if c.releaseAtEnd then
    let _ ← sendRelease c.workerId reg.boot rr.1
  return true

/-- The loop. `work` tells of each round, by how many rounds are left after it, whether its work gets
the memory. -/
def laps (work : ℕ → Bool) (reg : RegisterInfo) : ℕ → Exec WorkerSession Bool
  | 0 => return true
  | left + 1 => do
    if ← lap c reg (work left) then laps work reg left else return false

end Program

/-- What the process does next. `left` is how many more rounds follow the current one. -/
inductive Phase
  | registering
  | discovering (reg : RegisterInfo)
  | placing (reg : RegisterInfo) (left : ℕ)
  | reserving (reg : RegisterInfo) (left : ℕ) (node : U64)
  | working (reg : RegisterInfo) (left : ℕ) (id : U64)
  | releasing (reg : RegisterInfo) (left : ℕ) (id : U64)
  | ended (e : Ending)
  deriving DecidableEq, Repr

namespace Phase
variable (c : CommandLine)

/-- The call that the process makes. -/
def request : Phase → Option Request
  | registering => some (.register c.workerId c.pid)
  | discovering _ => some .discover
  | placing reg _ => some (.placement c.workerId reg.boot (c.fields reg))
  | reserving reg _ node => some (.reserve c.workerId reg.boot node c.footprint 2 0 false)
  | working _ _ _ => none
  | releasing reg _ id => some (.release c.workerId reg.boot id)
  | ended _ => none

def rounds (reg : RegisterInfo) : ℕ → Phase
  | 0 => ended (if c.hold then .holding else .exit 0)
  | left + 1 => placing reg left

def registered (reg : RegisterInfo) : Phase :=
  if reg.boot.isValid then discovering reg else ended (.exit 3)

/-- The rest of a round behind its work. -/
def worked (reg : RegisterInfo) (left : ℕ) (id : U64) : Phase :=
  if c.releaseAtEnd then releasing reg left id else rounds c reg left

/-- What becomes of a process that works; any other goes on as it is. -/
def work (allocates : Bool) : Phase → Phase
  | working reg left id => if allocates then worked c reg left id else ended (.exit 5)
  | p => p

def atWork : Phase → Bool
  | working _ _ _ => true
  | _ => false

theorem atWork_iff {p : Phase} : p.atWork = true ↔ ∃ reg left id, p = working reg left id := by
  cases p <;> simp [atWork]

/-- The work of the round is done, if the process is at it. -/
def settle (outcome : ℕ → Bool) : Phase → Phase
  | working reg left id => work c (outcome left) (working reg left id)
  | p => p

/-- Read a reply; bytes that cannot be read end the process. -/
def reading {α : Type} (r : Reader Exn α) (f : Frame) (next : α → Phase) : Phase :=
  match r.run f.payload with
  | .ok a _ => next a
  | .error _ _ => ended (.exit 5)

/-- What the process makes of the reply, or of a connection that gives none. A refused reservation
has the number zero, and the process works all the same. -/
def receive (reply : Option Frame) : Phase → Phase
  | registering =>
    match reply with
    | none => registered {}
    | some f => reading registerInfo f registered
  | discovering reg =>
    match reply with
    | none => rounds c reg c.iterations.toNat
    | some f => reading discoverInfo f fun _ => rounds c reg c.iterations.toNat
  | placing reg left =>
    match accepted reply with
    | none => ended (.exit 4)
    | some f => reading placementOut f fun out => reserving reg left out.node
  | reserving reg left _ =>
    match accepted reply with
    | none => working reg left 0
    | some f => reading WorkerSession.pair f fun p => working reg left p.1
  | working reg left id => working reg left id
  | releasing reg left _ => rounds c reg left
  | ended e => ended e

end Phase

section Supply

variable {type : MsgType} {body : ByteString} {s : WorkerSession} {ms : List Message}

end Supply

section Resume
variable (c : CommandLine) (work : ℕ → Bool)

/-- The rest of the loop behind the work. -/
def giveBack (reg : RegisterInfo) (left : ℕ) (id : U64) : Exec WorkerSession Bool := do
  if c.releaseAtEnd then
    let _ ← sendRelease c.workerId reg.boot id
  laps c work reg left

variable {c work} {s t : WorkerSession}

end Resume

end NumaFabric.WorkerProgram
