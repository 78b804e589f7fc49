import Gsnet.Control
import Gsnet.Daemon.Run
import Gsnet.Go.Bufio

/-!
# Sessions on the control socket

`Server.handle` on the one side, `Dial` and `Send` on the other, and between them
`gsnet stop`, `reload`, `retry` and `purge`. The daemon greets, waits for one line
with the cookie and then takes one request after the other; the cookie is in the
PID file, which only the owner can read.

Either side is a function of the bytes that have reached it. A daemon is given all
that a client has sent so far and yields its state and all that it has written; a
client that reads waits for the next line of that.
-/

namespace Gsnet

open Go

/-! ## Where they meet -/

namespace Daemon.Paths

variable (p : Paths) (runDir : GoString)

/-- The runtime files carry the name of the network, if it has one. -/
def runtimeFile (extension : GoString) : GoString :=
  if p.netname = [] then join [runDir, str "gsnet." ++ extension]
  else join [runDir, str "gsnet." ++ p.netname ++ str "." ++ extension]

def pidFile : GoString := p.runtimeFile runDir (str "pid")

def controlSocket : GoString := p.runtimeFile runDir (str "socket")

end Daemon.Paths

namespace Control

open Daemon

/-! ## The server -/

/-- Why a client is turned away. -/
inductive AuthError where
  /-- `control: bad auth line %q`. -/
  | badLine (line : GoString)
  /-- `control: cookie missing '^' prefix`. -/
  | noCaret
  /-- `control: cookie mismatch`. -/
  | mismatch
  deriving DecidableEq

/-- `authenticate`: the line is `0 ^<cookie>`, and whatever else. -/
def authenticate (cookie line : GoString) : Except AuthError Unit :=
  match fields line with
  | f₀ :: f₁ :: _ =>
    if f₀ ≠ str "0" then .error (.badLine line)
    else match f₁ with
      | 0x5E :: given => if given = cookie then .ok () else .error .mismatch
      | _ => .error .noCaret
  | _ => .error (.badLine line)

/-- What a handler does: the state it leaves, what it writes, the text of the error it returns. -/
abbrev Handler (σ : Type) := σ → Message → σ × GoString × Option GoString

structure Server (σ : Type) where
  nodeName : GoString
  cookie : GoString
  pid : Int64
  handler : Option (Handler σ)
  /-- The process is no more: a handler has called `os.Exit`. -/
  gone : σ → Bool
  /-- `Error()` of what `DecodeMessage` returns. -/
  errorText : ProtocolError → GoString

namespace Server

variable {σ : Type} (srv : Server σ)

def greeting : GoString := Greeting.encode ⟨srv.nodeName, 1, 0⟩

/-- `4 0 %d`. -/
def ack : GoString := str "4 0 " ++ formatInt srv.pid ++ [0x0A]

/-- `%d %d %s` with the class of a request. -/
def reply (t : Int64) (text : GoString) : GoString :=
  formatUint classRequest ++ 0x20 :: formatInt t ++ 0x20 :: text ++ [0x0A]

/-- One round of the loop of `handle`. -/
def answer (s : σ) (line : GoString) : σ × GoString :=
  let line := trimSpace line
  if srv.gone s ∨ line = [] then (s, [])
  else match decodeMessage line with
    | .error e => (s, reply (-1) (srv.errorText e))
    | .ok m =>
      if m.messageClass ≠ 18 then (s, reply (-1) (str "bad class"))
      else match srv.handler with
        | none => (s, reply m.type (str "0"))
        | some h =>
          match h s m with
          | (s, out, none) => (s, out)
          | (s, out, some err) => (s, out ++ reply m.type err)

/-- The loop, line by line. -/
def answers (s : σ) (lines : List GoString) : σ × GoString :=
  lines.foldl (fun acc line =>
    let r := srv.answer acc.1 line
    (r.1, acc.2 ++ r.2)) (s, [])

/-- `handle`, once this much has come: the state, and all that is written. -/
def handle (s : σ) (input : GoString) : σ × GoString :=
  match readString input with
  | none => (s, srv.greeting)
  | some (first, rest) =>
    match authenticate srv.cookie (trimSpace first) with
    | .error _ => (s, srv.greeting)
    | .ok () =>
      let r := srv.answers s (linesFrom [] rest)
      (r.1, srv.greeting ++ srv.ack ++ r.2)

end Server

/-! ## The client -/

inductive ClientError where
  /-- The line that is read does not come. -/
  | noLine
  | greeting (e : ProtocolError)
  /-- `control: bad ack %q: %w`. -/
  | badAck (ack : GoString)
  /-- `control: auth rejected: %s`. -/
  | rejected (ack : GoString)
  deriving DecidableEq

/-- All that the far end has written when it has been sent so much. -/
abbrev FarEnd := GoString → GoString

structure Client where
  /-- What it has sent. -/
  sent : GoString
  /-- How much of what came it has read. -/
  read : Nat
  serverName : GoString
  serverPID : Int64
  deriving DecidableEq

/-- `ReadString('\n')`, after the given number of bytes. -/
def readLine (far : FarEnd) (sent : GoString) (read : Nat) : Except ClientError (GoString × Nat) :=
  match readString ((far sent).drop read) with
  | none => .error .noLine
  | some (line, _) => .ok (line, read + line.length)

/-- `%d` of a scan: white space is skipped, then a number is read as far as it goes. -/
def scanNumber (s : GoString) : Option (Int64 × GoString) :=
  let s := trimLeftFrom 0 s
  let sign := s.takeWhile fun c => c = 0x2B || c = 0x2D
  let digits := (s.drop sign.length).takeWhile isDigit
  (parseInt (sign ++ digits)).map fun n => (n, s.drop (sign.length + digits.length))

/-- A blank of the format: white space, unless the input is over. -/
def scanBlank (s : GoString) : Option GoString :=
  if s = [] ∨ spaceLen s ≠ 0 then some s else none

/-- `fmt.Sscanf(s, "%d %d %d", …)`. -/
def scanAck (s : GoString) : Option (Int64 × Int64 × Int64) := do
  let (a, s) ← scanNumber s
  let s ← scanBlank s
  let (b, s) ← scanNumber s
  let s ← scanBlank s
  let (c, _) ← scanNumber s
  return (a, b, c)

/-- `Dial`, once connected. -/
def dial (far : FarEnd) (cookie : GoString) : Except ClientError Client := do
  let (greet, read) ← readLine far [] 0
  let g ← wrap .greeting (parseGreeting (trimSpace greet))
  let sent := str "0 ^" ++ cookie ++ str " 0\n"
  let (ack, read) ← readLine far sent read
  match scanAck (trimSpace ack) with
  | none => .error (.badAck ack)
  | some (_, code, pid) =>
    if code ≠ 0 then .error (.rejected ack) else return ⟨sent, read, g.name, pid⟩

/-- `Send`: the request goes out and one line is read. -/
def Client.send (far : FarEnd) (c : Client) (t : RequestType) (args : List GoString) :
    Except ClientError (GoString × Client) := do
  let sent := c.sent ++ encodeMessage (Int64.ofNat t.code) args
  let (line, read) ← readLine far sent c.read
  return (line, { c with sent := sent, read := read })

/-- The commands of `cmdSimple` that ask the daemon. -/
def simpleRequest (name : GoString) : Option RequestType :=
  if name = str "stop" then some .stop
  else if name = str "reload" then some .reload
  else if name = str "retry" then some .retry
  else if name = str "purge" then some .purge
  else none

inductive CommandError where
  | readFile (e : OsError)
  | pidFile (e : ProtocolError)
  /-- Nobody listens at the socket. -/
  | connect
  | client (e : ClientError)
  /-- `internal: simple cmd %s`. -/
  | unknown (name : GoString)
  deriving DecidableEq

/-- `dialControl`; `sockets` tells who listens where. -/
def dialControl (fs : FileSystem) (p : Paths) (runDir : GoString)
    (sockets : GoString → Option FarEnd) : Except CommandError (FarEnd × Client) := do
  let pidBytes ← wrap .readFile (fs.readFile (p.pidFile runDir))
  let pf ← wrap .pidFile (parsePIDFile pidBytes)
  match sockets (p.controlSocket runDir) with
  | none => .error .connect
  | some far => do
    let c ← wrap .client (dial far pf.cookie)
    return (far, c)

/-- `cmdSimple`, for the commands that ask the daemon: all that it has sent when it succeeds. -/
def cmdSimple (fs : FileSystem) (p : Paths) (runDir name : GoString)
    (sockets : GoString → Option FarEnd) : Except CommandError GoString :=
  match simpleRequest name with
  | none => .error (.unknown name)
  | some t => do
    let (far, c) ← dialControl fs p runDir sockets
    let (_, c) ← wrap .client (c.send far t [])
    return c.sent

/-- `cmdSimple`, for `pid`: what it prints. -/
def cmdPid (fs : FileSystem) (p : Paths) (runDir : GoString) : Except CommandError Int64 := do
  let pidBytes ← wrap .readFile (fs.readFile (p.pidFile runDir))
  let pf ← wrap .pidFile (parsePIDFile pidBytes)
  return pf.pid

/-! ## The daemon's handler -/

/-- `dataplane.TrafficStats`. -/
structure TrafficStats where
  peer : GoString
  rxBytes : UInt64
  txBytes : UInt64
  lastHandshake : Int64
  deriving DecidableEq

/-- `%s %d %d %d`. -/
def trafficItem (st : TrafficStats) : GoString :=
  st.peer ++ 0x20 :: formatUint st.rxBytes.toNat ++ 0x20 :: formatUint st.txBytes.toNat
    ++ 0x20 :: formatInt st.lastHandshake

/-- What a request meets besides the state of the daemon. -/
structure Circumstances where
  clock : Clock
  dump : DumpOrder
  /-- The order of `Reachable`, enough rounds for it, and the order of `Nodes()`, in a purge. -/
  adj : GoString → List GoString
  rounds : Nat
  nodes : List GoString
  /-- What `Stats` returns; empty where there is no `Reporter`, or an error. -/
  stats : List TrafficStats
  loadErrorText : LoadError → GoString

/-- A daemon as the control socket sees it. -/
structure Controlled where
  process : Process
  /-- `os.Exit` was called: no deferred call of `Run` is made. -/
  exited : Bool

/-- The type a number stands for. -/
def RequestType.ofCode (n : Int64) : Option RequestType :=
  [stop, reload, restart, dumpNodes, dumpEdges, dumpSubnets, dumpConnections, dumpGraph, setDebug,
    retry, connect, disconnect, dumpTraffic, pcap, log, purge, dumpInvitations].find?
      fun t => Int64.ofNat t.code = n

variable [Ed25519] [Curve25519] [PKCS8]

/-- `controlHandler`; it never returns an error, and what it announces has a text in any case. -/
def controlRequest (x : Circumstances) : Handler Controlled := fun d m =>
  match RequestType.ofCode m.type with
  | some .stop => ({ d with exited := true }, Server.reply m.type (str "0"), none)
  | some .reload =>
    match load d.process.fs d.process.paths with
    | .error e => (d, Server.reply m.type (x.loadErrorText e), none)
    | .ok _ =>
      let p := (d.process.step .load).step (.announceLocal x.clock)
      ({ d with process := p }, Server.reply m.type (str "0"), none)
  | some .dumpTraffic =>
    (d, x.stats.flatMap (fun st => itemLine .dumpTraffic (trafficItem st) ++ [0x0A])
      ++ (terminator .dumpTraffic ++ [0x0A]), none)
  | some .purge =>
    let g := d.process.plane.g
    let cleared := (purge g x.adj x.rounds d.process.loaded.nodeName x.nodes).getD g
    let plane := { d.process.plane with g := cleared }
    ({ d with process := { d.process with plane := plane } }, Server.reply m.type (str "0"), none)
  | some .dumpNodes => (d, controlHandler x.dump .dumpNodes, none)
  | some .dumpEdges => (d, controlHandler x.dump .dumpEdges, none)
  | some .dumpSubnets => (d, controlHandler x.dump .dumpSubnets, none)
  | _ => (d, Server.reply m.type (str "0"), none)

/-- The server that `Run` starts. -/
def daemonServer (x : Circumstances) (nodeName cookie : GoString) (pid : Int64)
    (errorText : ProtocolError → GoString) : Server Controlled where
  nodeName := nodeName
  cookie := cookie
  pid := pid
  handler := some (controlRequest x)
  gone := Controlled.exited
  errorText := errorText

end Control

end Gsnet
