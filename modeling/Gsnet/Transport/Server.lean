import Gsnet.Go.Bufio
import Gsnet.Gossip.Wire
import Gsnet.Lib.Machine
import Gsnet.Transport

/-!
# The connections of a server

`transport.Server`: connections are accepted and dialed, are registered once they
speak gossip, are written to by any number of calls of `Broadcast` at a time, get
lost, and are closed when the server stops. A call of `Broadcast` takes down the
registered connections under the mutex and then writes to one after the other; the
write to one connection holds that connection's own lock.

`Sound` is what all of this keeps. On the wire of a gossip connection are whole
lines, in the order in which they were written, up to the place where it was lost.
On any other there is its answer and nothing else, because only registered
connections are broadcast to and only gossip is registered.
-/

namespace Gsnet.Transport.Pool

open Go Gossip Lib

/-- What a connection has turned out to be. -/
inductive Role where
  /-- The request is not complete. -/
  | unread
  | gossip
  /-- It was answered, or given up, and its goroutine has returned. -/
  | answered
  deriving DecidableEq

structure Conn where
  role : Role
  /-- `w`, and the sending half of `netConn`. -/
  w : Writer
  /-- Empty for a connection that was accepted. -/
  outboundAddr : GoString
  /-- `netConn` has not been closed at this end. -/
  isOpen : Bool
  /-- The far end has closed or the connection is lost, as the reader sees it. -/
  eof : Bool
  /-- The goroutine that reads has not returned; `wg` counts these. -/
  running : Bool
  /-- Ghost: the envelopes whose line was written, in order. -/
  sent : List Envelope
  /-- Ghost: what `writeAndClose` was called with. -/
  reply : GoString
  deriving DecidableEq

namespace Conn

def accepted : Conn := ⟨.unread, .new .fresh, [], true, false, true, [], []⟩

/-- The first line of an outbound connection. -/
def greeting : GoString := str "GOSSIP\n"

/-- `Dial` once it has connected; the first line is not written through `w`. -/
def dialed (addr : GoString) : Conn :=
  ⟨.gossip, .new (Socket.fresh.write greeting).2, addr, true, false, true, [], []⟩

def close (k : Conn) : Conn :=
  { k with w := { k.w with sock := k.w.sock.close }, isOpen := false }

/-- The goroutine that reads returns. -/
def finish (k : Conn) : Conn := { k.close with running := false }

/-- `Broadcast` writes a line under the connection's lock and closes what it cannot write to. -/
def put (k : Conn) (env : Envelope) (line : GoString) : Conn :=
  let w := k.w.send line
  if w.failed then { k with w := w }.close else { k with w := w, sent := k.sent ++ [env] }

/-- `writeAndClose` by a goroutine that returns after it. -/
def answer (k : Conn) (reply : GoString) : Conn :=
  { k with
    role := .answered
    w := if reply = [] then k.w else k.w.send reply
    reply := reply }.finish

end Conn

/-- A call of `Broadcast`. -/
structure Cast (ι : Type) where
  env : Envelope
  line : GoString
  /-- The connections it has yet to write to. -/
  todo : List ι
  /-- Ghost: the connections that were registered when it began. -/
  snapshot : Finset ι

structure Server (ι κ : Type) where
  /-- Every connection there has been. -/
  conn : ι → Option Conn
  /-- `conns`. -/
  conns : Finset ι
  cast : κ → Option (Cast ι)
  /-- The context is cancelled and the listener closed. -/
  stopped : Bool

inductive Step (ι κ : Type) where
  | accept (c : ι)
  /-- What has arrived is a complete request; `reply` is what it is answered with, if anything. -/
  | request (c : ι) (input reply : GoString)
  /-- `Dial` registers what it has connected; the server may have been stopped in between. -/
  | dial (c : ι) (addr : GoString)
  | broadcast (b : κ) (env : Envelope) (order : List ι)
  | write (b : κ)
  | return (b : κ)
  /-- The connection is lost; it still takes some bytes. -/
  | lose (c : ι) (room : Nat)
  /-- The far end closes. -/
  | leave (c : ι)
  /-- The far end sends another line of gossip. -/
  | speak (c : ι)
  /-- The reader gets an error, or finds the context cancelled before it reads. -/
  | finish (c : ι)
  /-- The listener is closed, and `closeAll`. -/
  | stop
  deriving DecidableEq

namespace Server

variable {ι κ : Type}

/-- After `Start`. -/
def start : Server ι κ := ⟨fun _ => none, ∅, fun _ => none, false⟩

variable [DecidableEq ι]

def setConn (s : Server ι κ) (c : ι) (k : Conn) : Server ι κ :=
  { s with conn := Function.update s.conn c (some k) }

@[simp] theorem conns_setConn (s : Server ι κ) (c : ι) (k : Conn) :
    (s.setConn c k).conns = s.conns := rfl

def track (s : Server ι κ) (c : ι) : Server ι κ := { s with conns := insert c s.conns }

def untrack (s : Server ι κ) (c : ι) : Server ι κ := { s with conns := s.conns.erase c }

def setCast [DecidableEq κ] (s : Server ι κ) (b : κ) (call : Option (Cast ι)) : Server ι κ :=
  { s with cast := Function.update s.cast b call }

def closeAll (s : Server ι κ) : Server ι κ :=
  { s with conn := fun c => (s.conn c).map fun k => if c ∈ s.conns then k.close else k }

/-- `handleInbound`, once there is a whole request. -/
def handle (s : Server ι κ) (c : ι) (k : Conn) (input reply : GoString) : Option (Server ι κ) :=
  match readInbound input with
  | .error .eof => none
  | .ok .gossip => some ((s.setConn c { k with role := .gossip }).track c)
  | _ => some (s.setConn c (k.answer reply))

def act [DecidableEq κ] (s : Server ι κ) : Step ι κ → Option (Server ι κ)
  | .accept c =>
    if s.conn c = none ∧ s.stopped = false then some (s.setConn c .accepted) else none
  | .request c input reply =>
    match s.conn c with
    | some k => if k.role = .unread ∧ k.running then s.handle c k input reply else none
    | none => none
  | .dial c addr =>
    if s.conn c = none ∧ addr ≠ [] then
      some ((s.setConn c (.dialed addr)).track c)
    else none
  | .broadcast b env order =>
    match env.broadcast with
    | some line =>
      if (s.cast b).isNone ∧ order.Nodup ∧ order.toFinset = s.conns then
        some (s.setCast b (some ⟨env, line, order, s.conns⟩))
      else none
    | none => none
  | .write b =>
    match s.cast b with
    | some ⟨env, line, c :: todo, snapshot⟩ =>
      match s.conn c with
      | some k =>
        some ((s.setConn c (k.put env line)).setCast b (some ⟨env, line, todo, snapshot⟩))
      | none => none
    | _ => none
  | .return b =>
    match s.cast b with
    | some ⟨_, _, [], _⟩ => some (s.setCast b none)
    | _ => none
  | .lose c room =>
    match s.conn c with
    | some k =>
      if k.w.sock.room = none then
        some (s.setConn c { k with
          w := { k.w with sock := { k.w.sock with room := some room } }, eof := true })
      else none
    | none => none
  | .leave c =>
    match s.conn c with
    | some k => some (s.setConn c { k with eof := true })
    | none => none
  | .speak c =>
    match s.conn c with
    | some k =>
      if k.role = .gossip ∧ k.running then
        -- the context is looked at before the next line is read
        some (if s.stopped then (s.setConn c k.finish).untrack c else s)
      else none
    | none => none
  | .finish c =>
    match s.conn c with
    | some k =>
      -- the last is a connection that was not registered yet when the others were closed
      if k.running ∧ (k.eof ∨ k.isOpen = false ∨ s.stopped ∧ k.role = .gossip) then
        some ((s.setConn c k.finish).untrack c)
      else none
    | none => none
  | .stop => some { s.closeAll with stopped := true }

end Server

end Gsnet.Transport.Pool
