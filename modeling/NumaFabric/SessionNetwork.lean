import NumaFabric.CoordinatorAuthority
import NumaFabric.FramePipe

/-! A coordinator and any number of connections, byte by byte. A thread serves each
connection: it receives into its decoder, handles a complete frame and sends the reply, while
the other threads, the clients and the network move at their own pace. A frame is handled in
one piece. -/
namespace NumaFabric.SessionNetwork
open FaultState FrameStreamDecoder FrameStream Coordinator

variable {β : Type}

/-- One connection. The fields `sent` and `inbox` are what its client has sent in whole and
received so far; `accepted` is whether the coordinator has accepted it. -/
structure Link where
  requests : Pipe := {}
  pending : Option Frame := none
  replies : Pipe := {}
  accepted : Bool := false
  serving : Bool := false
  writable : Bool := false
  sent : List Message := []
  inbox : List Frame := []
  deriving DecidableEq, Repr

/-- The field `history` is not in the source: the events of the coordinator so far. -/
structure Network (β : Type) where
  coordinator : Coordinator β
  links : U64 → Link := fun _ => {}
  raised : Bool := false
  history : List CoordinatorAuthority.Event := []

inductive Event
  | accept (conn : U64)
  | send (conn : U64) (m : Message)
  | sendPart (conn : U64) (m : Message) (k : ℕ)
  | receive (conn : U64) (n : ℕ)
  | serve (conn : U64) (broken : Option ℕ)
  | disconnect (conn : U64)
  | poll (conn : U64) (n : ℕ)
  | advanceEpoch
  deriving DecidableEq, Repr

namespace Network

def put (s : Network β) (conn : U64) (l : Link) : Network β :=
  { s with links := Function.update s.links conn l }

/-- An exception that leaves a thread ends the process. -/
def raise (s : Network β) : Network β := { s with raised := true }

/-- The coordinator goes through an event. -/
def note (b : Backend β) (float : FloatCosts) (s : Network β) (e : CoordinatorAuthority.Event) :
    Network β :=
  { s with
    coordinator := CoordinatorAuthority.step b float s.coordinator e
    history := s.history ++ [e] }

variable (b : Backend β) (float : FloatCosts) (s : Network β) (conn : U64)

/-- Connections are numbered, and no number is used twice. -/
def accept : Network β :=
  if (s.links conn).accepted then s
  else (s.put conn { accepted := true, serving := true, writable := true }).note b float (.opened conn)

/-- `encode_frame` and `send_all`. A payload that is too large is the client's exception. -/
def send (m : Message) : Network β :=
  let l := s.links conn
  if l.writable then
    match encodeFrame m.1.toU16 m.2 with
    | .error _ => s
    | .ok bytes => s.put conn { l with requests := l.requests.write bytes, sent := l.sent ++ [m] }
  else s

/-- A send that fails after some bytes; the connection takes no more of them. -/
def sendPart (m : Message) (k : ℕ) : Network β :=
  let l := s.links conn
  if l.writable then
    match encodeFrame m.1.toU16 m.2 with
    | .error _ => s
    | .ok bytes =>
      s.put conn { l with requests := l.requests.write (bytes.dropLast.take k), writable := false }
  else s

/-- The thread waits in `recv` as long as it has nothing to handle. -/
def receive (n : ℕ) : Network β :=
  let l := s.links conn
  if l.serving && l.pending.isNone then
    match (Pipe.read n).run l.requests with
    | .error _ _ => s.raise
    | .ok next p => s.put conn { l with requests := p, pending := next }
  else s

/-- Handle the frame, send the reply and look for the next frame. `broken` is how many bytes
of the reply go out before the send fails, if it fails; the thread is done then. -/
def serve (broken : Option ℕ) : Network β :=
  let l := s.links conn
  match l.pending with
  | none => s
  | some f =>
    match (handleFrame b float conn f).run s.coordinator with
    | .error _ _ => s.raise
    | .ok out _ =>
      let t := s.note b float (.frame conn f)
      match if out.isEmpty then none else broken with
      | some k =>
        (t.put conn { l with
          pending := none, serving := false
          replies := l.replies.write (out.dropLast.take k) }).note b float (.lost conn)
      | none =>
        match (Pipe.read 0).run l.requests with
        | .error _ _ => t.raise
        | .ok next p =>
          t.put conn { l with pending := next, requests := p, replies := l.replies.write out }

/-- `recv` has returned nothing or an error. -/
def disconnect : Network β :=
  let l := s.links conn
  if l.serving && l.pending.isNone then
    (s.put conn { l with serving := false }).note b float (.lost conn)
  else s

/-- One `recv` and `push` of the client. -/
def poll (n : ℕ) : Network β :=
  let l := s.links conn
  if l.accepted then
    match (Pipe.read n).run l.replies with
    | .error _ _ => s.raise
    | .ok none p => s.put conn { l with replies := p }
    | .ok (some f) p => s.put conn { l with replies := p, inbox := l.inbox ++ [f] }
  else s

def step : Event → Network β
  | .accept conn => s.accept b float conn
  | .send conn m => s.send conn m
  | .sendPart conn m k => s.sendPart conn m k
  | .receive conn n => s.receive conn n
  | .serve conn broken => s.serve b float conn broken
  | .disconnect conn => s.disconnect b float conn
  | .poll conn n => s.poll conn n
  | .advanceEpoch => s.note b float .advanceEpoch

end Network

def run (b : Backend β) (float : FloatCosts) (s : Network β) (events : List Event) : Network β :=
  events.foldl (Network.step b float) s

/-- Nothing of the connection is on its way, and a further `push` finds nothing at its ends. -/
structure Link.Drained (l : Link) : Prop where
  serving : l.serving = true
  writable : l.writable = true
  requests : l.requests.wire = []
  pending : l.pending = none
  replies : l.replies.wire = []
  session : decodeOne l.replies.decoder.buffer = .ok none

end NumaFabric.SessionNetwork
