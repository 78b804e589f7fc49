import Gsnet.Go.Netip
import Gsnet.Graph
import Gsnet.Keys
import Gsnet.Gossip.Message

/-!
# The gossip plane

`internal/gossip/plane.go`. Every fact has a stable ID; a receiver keeps the
highest timestamp per ID and lets through only what is strictly newer. Facts a
node originates itself also go into its outbox, which the heartbeat re-sends.

The functions below are the bodies of the Go methods between two uses of the
network: the second component of a result is what is handed to
`transport.Broadcast`. The clock is an argument.
-/

namespace Gsnet.Gossip

open Go

/-- The gossip control plane of one node. -/
structure Plane where
  nodeName : GoString
  g : Graph
  /-- ID to highest timestamp observed. -/
  seen : GoMap GoString Int64
  outbox : GoMap GoString Envelope
  edPriv : Option Ed25519Private
  pubKeyFor : Option (GoString → Option Ed25519Public)
  pubKeys : GoMap GoString Ed25519Public
  endpoints : GoMap GoString GoString
  inners : GoMap GoString Addr
  underlays : GoMap GoString Addr

/-- `NewPlane` over a new graph, then `SetSigner` and `SetVerifier` where they are called. -/
def newPlane (nodeName : GoString) (edPriv : Option Ed25519Private)
    (pubKeyFor : Option (GoString → Option Ed25519Public)) : Plane where
  nodeName := nodeName
  g := Graph.new
  seen := GoMap.empty
  outbox := GoMap.empty
  edPriv := edPriv
  pubKeyFor := pubKeyFor
  pubKeys := GoMap.empty
  endpoints := GoMap.empty
  inners := GoMap.empty
  underlays := GoMap.empty

/-- A bare address or a prefix, of which only the address is kept. -/
def parseHelloAddr (s : GoString) : Option Addr :=
  if s = [] then none
  else match parsePrefix s with
    | some p => some p.addr
    | none => parseAddr s

namespace Plane

/-! ## Accessors -/

/-- `EndpointOf`: the empty string if unknown. -/
def endpointOf (p : Plane) (origin : GoString) : GoString := (p.endpoints.get? origin).getD []

/-- `InnerAddrOf`: `none` is the zero address. -/
def innerAddrOf (p : Plane) (origin : GoString) : Option Addr := p.inners.get? origin

def underlayAddrOf (p : Plane) (origin : GoString) : Option Addr := p.underlays.get? origin

/-! ## Signatures -/

/-- Without a signer the envelope goes out unsigned. -/
def sign [Ed25519] (p : Plane) (env : Envelope) : Envelope :=
  match p.edPriv with
  | none => env
  | some priv => { env with signature := priv.sign env.signingBytes }

/-- The key the installed lookup gives for an origin, the zero key when it gives none. -/
def lookedUp (p : Plane) (origin : GoString) : Ed25519Public :=
  match p.pubKeyFor with
  | none => ⟨[]⟩
  | some f => (f origin).getD ⟨[]⟩

/--
With neither a lookup nor a learned key everything passes. Otherwise the lookup
has precedence, and a learned key stands in only where it finds none.
-/
def verify [Ed25519] (p : Plane) (env : Envelope) : Bool :=
  if p.pubKeyFor.isNone ∧ (p.pubKeys.get? env.origin).isNone then true
  else
    let pub := p.lookedUp env.origin
    -- what a Hello taught is not compared with what the lookup says
    let pub := if pub.raw.length = 0 then (p.pubKeys.get? env.origin).getD pub else pub
    if pub.raw.length = 0 then false else pub.verify env.signingBytes env.signature

/-! ## Applying a fact -/

def rememberPubKey (p : Plane) (name : GoString) (pub : Ed25519Public) : Plane :=
  { p with pubKeys := p.pubKeys.set name pub }

/-- Only the fields a Hello carries are written; the others keep their value. -/
def applyAddNode (p : Plane) (h : Hello) : Plane :=
  let p := { p with g := p.g.addNode h.name }
  let p := match parseEd25519PublicBase64ish h.ed25519Public with
    | some pub => p.rememberPubKey h.name pub
    | none => p
  { p with
    endpoints := if h.endpoint ≠ [] then p.endpoints.set h.name h.endpoint else p.endpoints
    inners := match parseHelloAddr h.innerAddr with
      | some a => p.inners.set h.name a
      | none => p.inners
    underlays := match parseHelloAddr h.underlayAddr with
      | some a => p.underlays.set h.name a
      | none => p.underlays }

def applyDelNode (p : Plane) (h : Hello) : Plane :=
  { p with
    g := p.g.delEdges (p.g.edges.filter (fun e => e.src = h.name ∨ e.dst = h.name))
    endpoints := p.endpoints.delete h.name
    inners := p.inners.delete h.name
    underlays := p.underlays.delete h.name
    pubKeys := p.pubKeys.delete h.name }

/--
The switch of `apply`. `none` is an early return: the payload did not decode (or
a `del_node` names nobody), nothing changes and the listener is not called.
-/
def tryApply (p : Plane) (env : Envelope) : Option Plane :=
  match env.kind with
  | .addNode => (Hello.unmarshal env.payload).map p.applyAddNode
  | .delNode =>
    (Hello.unmarshal env.payload).bind fun h =>
      if h.name = [] then none else some (p.applyDelNode h)
  | .addEdge =>
    (AddEdge.unmarshal env.payload).map fun e =>
      { p with g := p.g.addEdge ⟨e.src, e.dst, e.weight⟩ }
  | .delEdge =>
    (DelEdge.unmarshal env.payload).map fun e => { p with g := p.g.delEdge e.src e.dst }
  | .addSubnet =>
    (AddSubnet.unmarshal env.payload).map fun s =>
      { p with g := p.g.addSubnet s.owner s.subnet }
  | .delSubnet =>
    (DelSubnet.unmarshal env.payload).map fun s =>
      { p with g := p.g.delSubnet s.owner s.subnet }
  | _ => some p

def apply (p : Plane) (env : Envelope) : Plane := (p.tryApply env).getD p

/-! ## Receiving -/

/-- Records `(id, ts)` when `ts` is strictly newer; `none` when the caller lost. -/
def claim (p : Plane) (id : GoString) (ts : Int64) : Option Plane :=
  match p.seen.get? id with
  | some prev => if ts ≤ prev then none else some { p with seen := p.seen.set id ts }
  | none => some { p with seen := p.seen.set id ts }

/-- `Receive`: verify, then claim or drop, then apply and hand on. -/
def receive [Ed25519] (p : Plane) (env : Envelope) :
    Except GoString (Plane × Option Envelope) :=
  if p.verify env = false then
    .error (str "gossip: signature verification failed for " ++ env.kind.text ++ str " from "
      ++ env.origin)
  else match p.claim env.id env.ts with
    | none => .ok (p, none)
    | some p' => .ok (p'.apply env, some env)

/-- The plane after a call of `Receive`, whatever it returned. -/
def afterReceive [Ed25519] (p : Plane) (env : Envelope) : Plane :=
  match p.receive env with
  | .ok r => r.1
  | .error _ => p

/-- A sequence of calls, each finished before the next. -/
def receiveAll [Ed25519] (p : Plane) (envs : List Envelope) : Plane :=
  envs.foldl afterReceive p

/-- Every call of the sequence passes verification. -/
def AllVerify [Ed25519] : Plane → List Envelope → Prop
  | _, [] => True
  | p, env :: envs => p.verify env = true ∧ AllVerify (p.afterReceive env) envs

/-! ## Originating -/

/-- The signed envelope of a new version of a fact. -/
def mint [Ed25519] (p : Plane) (id : GoString) (kind : Kind) (body : GoString) (ts : Int64) :
    Envelope :=
  p.sign ⟨id, p.nodeName, kind, ts, body, []⟩

/-- The update of the outbox and the dedup table, under the lock. -/
def store (p : Plane) (env : Envelope) : Plane :=
  { p with outbox := p.outbox.set env.id env, seen := p.seen.set env.id env.ts }

/-- `originate`: mint, store, apply locally, broadcast. -/
def originate [Ed25519] (p : Plane) (id : GoString) (kind : Kind) (body : GoString) (ts : Int64) :
    Plane × Envelope :=
  let env := p.mint id kind body ts
  -- whatever the table records for the ID is overwritten
  ((p.store env).apply env, env)

def helloID (name : GoString) : GoString := name ++ str "/hello"
def edgeID (name peer : GoString) : GoString := name ++ str "/edge/" ++ peer
def subnetID (name subnet : GoString) : GoString := name ++ str "/subnet/" ++ subnet

def announceHello [Ed25519] (p : Plane) (h : Hello) (ts : Int64) : Plane × Envelope :=
  p.originate (helloID p.nodeName) .addNode h.marshal ts

def announceAddEdge [Ed25519] (p : Plane) (peer : GoString) (weight ts : Int64) :
    Plane × Envelope :=
  p.originate (edgeID p.nodeName peer) .addEdge (AddEdge.marshal ⟨p.nodeName, peer, weight⟩) ts

def announceDelEdge [Ed25519] (p : Plane) (peer : GoString) (ts : Int64) : Plane × Envelope :=
  p.originate (edgeID p.nodeName peer) .delEdge (DelEdge.marshal ⟨p.nodeName, peer⟩) ts

def announceAddSubnet [Ed25519] (p : Plane) (subnet : GoString) (ts : Int64) : Plane × Envelope :=
  p.originate (subnetID p.nodeName subnet) .addSubnet (AddSubnet.marshal ⟨p.nodeName, subnet⟩) ts

def announceDelSubnet [Ed25519] (p : Plane) (subnet : GoString) (ts : Int64) : Plane × Envelope :=
  p.originate (subnetID p.nodeName subnet) .delSubnet (DelSubnet.marshal ⟨p.nodeName, subnet⟩) ts

/-- `ResendOutbox`: what it hands to `Broadcast`, in no particular order. -/
def resendOutbox (p : Plane) : Multiset Envelope := p.outbox.values

end Plane

end Gsnet.Gossip
