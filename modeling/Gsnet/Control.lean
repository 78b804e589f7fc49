import Gsnet.Daemon

/-!
# Requests over the control socket

`internal/control`, the dump and purge requests of `controlHandler` and `gsnet dump`. A
request is a line of words with spaces between them, and so are the greeting of the
daemon and its PID file. The answer consists of lines of text. That to a dump has a
line for every item and then one with the class and the type alone, which is how the
client knows that it is over; the connection stays open, so a client that misses that
line waits for it.

Items are written as they are. What a graph holds came by gossip.
-/

namespace Gsnet.Control

open Go Daemon

/-- `ClassRequest`. -/
def classRequest : Nat := 18

inductive RequestType where
  | stop
  | reload
  | restart
  | dumpNodes
  | dumpEdges
  | dumpSubnets
  | dumpConnections
  | dumpGraph
  | setDebug
  | retry
  | connect
  | disconnect
  | dumpTraffic
  | pcap
  | log
  | purge
  | dumpInvitations
  deriving DecidableEq, Repr

/-- The numbers of the types, from one on. -/
def RequestType.code : RequestType → Nat
  | .stop => 1
  | .reload => 2
  | .restart => 3
  | .dumpNodes => 4
  | .dumpEdges => 5
  | .dumpSubnets => 6
  | .dumpConnections => 7
  | .dumpGraph => 8
  | .setDebug => 9
  | .retry => 10
  | .connect => 11
  | .disconnect => 12
  | .dumpTraffic => 13
  | .pcap => 14
  | .log => 15
  | .purge => 16
  | .dumpInvitations => 17

/-- `%d %d`: the line that ends a dump. -/
def terminator (t : RequestType) : GoString :=
  formatUint classRequest ++ 0x20 :: formatUint t.code

/-- `%d %d %s`: the line of an item. -/
def itemLine (t : RequestType) (item : GoString) : GoString := terminator t ++ 0x20 :: item

/-! ## Messages -/

/-- `Message`. Any number is read as a class or a type. -/
structure Message where
  messageClass : Int64
  type : Int64
  args : List GoString
  deriving DecidableEq, Repr

inductive ProtocolError where
  /-- `control: short message %q`. -/
  | shortMessage (line : GoString)
  /-- `control: invalid class %q: %w`. -/
  | invalidClass (field : GoString)
  /-- `control: invalid type %q: %w`. -/
  | invalidType (field : GoString)
  /-- `control: not a greeting %q`. -/
  | notGreeting (line : GoString)
  /-- `control: bad version %q`. -/
  | badVersion (field : GoString)
  /-- One half of the version is no number. -/
  | badNumber (text : GoString)
  /-- `pidfile: expected '<pid> <cookie>', got %q`. -/
  | notPIDFile (s : GoString)
  /-- `pidfile: bad pid: %w`. -/
  | badPID (field : GoString)
  deriving DecidableEq, Repr

/-- `strconv.Atoi`, with the error that the caller makes of it. -/
def atoi (s : GoString) (err : GoString → ProtocolError) : Except ProtocolError Int64 :=
  match parseInt s with
  | some n => .ok n
  | none => .error (err s)

/-- `EncodeMessage`: `%d %d`, then the arguments. -/
def encodeMessage (t : Int64) (args : List GoString) : GoString :=
  formatUint classRequest ++ 0x20 :: formatInt t ++ args.flatMap (0x20 :: ·) ++ [0x0A]

/-- `DecodeMessage`. -/
def decodeMessage (line : GoString) : Except ProtocolError Message :=
  match fields line with
  | f₀ :: f₁ :: args => do
    let messageClass ← atoi f₀ .invalidClass
    let t ← atoi f₁ .invalidType
    return ⟨messageClass, t, args⟩
  | _ => .error (.shortMessage line)

/-- The first line of the daemon on a connection. -/
structure Greeting where
  name : GoString
  major : Int64
  minor : Int64
  deriving DecidableEq, Repr

/-- `ClassGreeting`. -/
def classGreeting : Nat := 0

/-- `%d.%d`. -/
def Greeting.version (g : Greeting) : GoString := formatInt g.major ++ 0x2E :: formatInt g.minor

/-- `%d %s %d.%d`. -/
def Greeting.encode (g : Greeting) : GoString :=
  formatUint classGreeting ++ 0x20 :: g.name ++ 0x20 :: g.version ++ [0x0A]

/-- `ParseGreeting`. -/
def parseGreeting (line : GoString) : Except ProtocolError Greeting :=
  match fields line with
  | [f₀, name, version] =>
    if f₀ ≠ str "0" then .error (.notGreeting line)
    else match cut 0x2E version with
      | (_, none) => .error (.badVersion version)
      | (v₀, some v₁) => do
        let major ← atoi v₀ .badNumber
        let minor ← atoi v₁ .badNumber
        return ⟨name, major, minor⟩
  | _ => .error (.notGreeting line)

/-- What is in the PID file of a daemon. -/
structure PIDFile where
  pid : Int64
  cookie : GoString
  deriving DecidableEq, Repr

/-- `%d %s`. -/
def PIDFile.encode (p : PIDFile) : GoString := formatInt p.pid ++ 0x20 :: p.cookie ++ [0x0A]

/-- `ParsePIDFile`: the first line counts. -/
def parsePIDFile (s : GoString) : Except ProtocolError PIDFile :=
  match fields (cut 0x0A (trimSpace s)).1 with
  | [f₀, cookie] => do
    let pid ← atoi f₀ .badPID
    return ⟨pid, cookie⟩
  | _ => .error (.notPIDFile s)

/-! ## The daemon -/

/-- `AllSubnets`, for an order in which the graph is gone through: the last owner counts. -/
def allSubnets (o : IterOrder) : GoMap GoString GoString :=
  o.nodes.foldl (fun out name => (o.subnets name).foldl (fun out s => out.set s name) out) .empty

/-- `%s %s %d`. -/
def edgeItem (e : Edge) : GoString :=
  e.src ++ 0x20 :: (e.dst ++ 0x20 :: formatInt e.weight)

/-- `%s %s`. -/
def subnetItem (s : GoString × GoString) : GoString := s.1 ++ 0x20 :: s.2

/-- The orders in which `range` happens to visit what is dumped. -/
structure DumpOrder where
  nodes : List GoString
  edges : List Edge
  /-- In `AllSubnets`. -/
  iter : IterOrder
  /-- In what `AllSubnets` returns. -/
  subnets : List (GoString × GoString)

/-- These are orders of this graph. -/
structure DumpOrder.Of (o : DumpOrder) (g : Graph) : Prop where
  nodes : (o.nodes : Multiset GoString) = g.nodeNames
  edges : (o.edges : Multiset Edge) = g.edges
  iter : o.iter.Of g
  subnets : (o.subnets : Multiset (GoString × GoString)) = (allSubnets o.iter).entries

/-- The items the handler writes, in order; it has none for other types. -/
def dumpItems (o : DumpOrder) : RequestType → List GoString
  | .dumpNodes => o.nodes
  | .dumpEdges => o.edges.map edgeItem
  | .dumpSubnets => o.subnets.map subnetItem
  | _ => []

/-- The cases of `controlHandler` for nodes, edges and subnets, and its default. -/
def controlHandler (o : DumpOrder) (t : RequestType) : GoString :=
  match t with
  | .dumpNodes | .dumpEdges | .dumpSubnets =>
    (dumpItems o t).flatMap (fun item => itemLine t item ++ [0x0A]) ++ (terminator t ++ [0x0A])
  | t => itemLine t (str "0") ++ [0x0A]

/--
The loop of a purge, over the nodes in the order in which `Nodes()` happens to list
them. There is no operation that removes a node; what is cleared are the edges of
the nodes that were not reached. `Edges()` is asked for again for each of them.
-/
def clearUnreached (g : Graph) (reach : Finset GoString) (nodes : List GoString) : Graph :=
  nodes.foldl (fun g n =>
    if n ∈ reach then g else g.delEdges (g.edges.filter fun e => e.src = n ∨ e.dst = n)) g

/-- The case of `controlHandler` for a purge; nothing while `Reachable` goes on. -/
def purge (g : Graph) (o : GoString → List GoString) (rounds : Nat) (self : GoString)
    (nodes : List GoString) : Option Graph :=
  (g.reachable o rounds self).map fun reach => clearUnreached g reach nodes

/-! ## The client -/

/-- The kinds that `cmdDump` accepts. -/
def cmdDump (kind : GoString) : Option RequestType :=
  if kind = str "nodes" ∨ kind = str "reachable" then some .dumpNodes
  else if kind = str "edges" then some .dumpEdges
  else if kind = str "subnets" then some .dumpSubnets
  else if kind = str "connections" then some .dumpConnections
  else if kind = str "graph" then some .dumpGraph
  else if kind = str "invitations" then some .dumpInvitations
  else none

/-- How far a client comes with what was written to it. -/
inductive Dumped where
  /-- The lines printed, and what is left for the next request. -/
  | returned (printed : List GoString) (unread : GoString)
  /-- The lines printed before it waits for more. -/
  | waiting (printed : List GoString)
  deriving DecidableEq

/-- A line is printed before the rest. -/
def Dumped.after (line : GoString) : Dumped → Dumped
  | .returned printed unread => .returned (line :: printed) unread
  | .waiting printed => .waiting (line :: printed)

/-- The loop of `runControlDump`; `line` is what `ReadString` has read of the current line. -/
def runControlDump (term line : GoString) : GoString → Dumped
  | [] => .waiting []
  | c :: rest =>
    if c ≠ 0x0A then runControlDump term (line ++ [c]) rest
    else
      let l := trimEOL (line ++ [c])
      if l = term then .returned [] rest else (runControlDump term [] rest).after l

example : runControlDump (str "18 4") [] (str "18 4 a\r\n18 4\n18 5\n")
    = .returned [str "18 4 a"] (str "18 5\n") := by decide +kernel

end Gsnet.Control
