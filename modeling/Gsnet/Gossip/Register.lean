import Gsnet.Gossip.Announce

/-!
# Registers of a plane

Everything the program reads back from a plane (whether a node has a subnet, the
edge between two nodes, the endpoint, addresses and key of a node) is a register:
a fact either overwrites it, with a value that depends on the fact alone, or
leaves it as it was. A `Register` carries that law, and what a run of `Receive`
calls does to any of them is said once, below.
-/

namespace Gsnet.Gossip

open Go Lib

/-- A part of a plane that facts overwrite or leave alone. -/
structure Register (V : Type) where
  read : Plane → V
  /-- What a fact writes, if it writes at all. -/
  write : Fact → Option V
  read_enact : ∀ {p : Plane} (f : Fact), p.g.Inv → read (p.enact f) = (write f).getD (read p)
  /-- The protocol's own tables are no part of it. -/
  read_tables : ∀ (p : Plane) (s : GoMap GoString Int64) (o : GoMap GoString Envelope),
    read { p with seen := s, outbox := o } = read p

/-- A function of a register. -/
def Register.map {V W : Type} (r : Register V) (f : V → W) : Register W where
  read p := f (r.read p)
  write fact := (r.write fact).map f
  read_tables p s o := by rw [r.read_tables]
  read_enact := by
    intro p fact h
    rw [r.read_enact fact h]
    cases r.write fact <;> rfl

/-! ## The registers -/

/-- Whether a node owns a subnet. -/
def subnetRegister (x n : GoString) : Register Bool where
  read p := decide (n ∈ p.g.nodeSubnets x)
  write f := match f with
    | .subnet o s b => if o = x ∧ s = n then some b else none
    | _ => none
  read_tables _ _ _ := rfl
  read_enact := by
    intro p f _
    cases f with
    | nothing => rfl
    | node hl => simp [Plane.enact, Plane.applyAddNode_eq, Graph.addNode]
    | drop name => simp [Plane.enact, Plane.applyDelNode]
    | edge a b w => cases w <;> simp [Plane.enact]
    | subnet o s b =>
        by_cases hx : o = x
        · subst hx
          by_cases hn : s = n
          · subst hn
            cases b <;> simp [Plane.enact, Graph.nodeSubnets_addSubnet, Graph.nodeSubnets_delSubnet]
          · have hn' : ¬ n = s := fun h => hn h.symm
            cases b <;>
              simp [Plane.enact, Graph.nodeSubnets_addSubnet, Graph.nodeSubnets_delSubnet, hn, hn']
        · have hx' : ¬ x = o := fun h => hx h.symm
          cases b <;>
            simp [Plane.enact, Graph.nodeSubnets_addSubnet, Graph.nodeSubnets_delSubnet, hx, hx']

/-- The edge stored from one node to another. -/
def edgeRegister (x y : GoString) : Register (Option Edge) where
  read p := p.g.edge? x y
  write f := match f with
    | .edge a b w => if Graph.SameSlot a b x y then some (w.map fun w => ⟨x, y, w⟩) else none
    | .drop name => if x = name ∨ y = name then some none else none
    | _ => none
  read_tables _ _ _ := rfl
  read_enact := by
    intro p f h
    cases f with
    | nothing => rfl
    | node hl =>
        rw [Plane.enact, Plane.applyAddNode_eq]
        exact Graph.edge?_ensureNode h _ _ _
    | drop name =>
        -- the edges deleted are those listed when the message is applied
        show (p.g.delEdges _).edge? x y = _
        rw [Graph.edge?_delIncident h]
        by_cases hxy : x = name ∨ y = name
        · simp only [if_pos hxy, Option.getD_some]
        · simp only [if_neg hxy, Option.getD_none]
    | edge a b w =>
        cases w with
        | none =>
            show (p.g.delEdge a b).edge? x y = _
            rw [Graph.edge?_delEdge]
            by_cases hs : Graph.SameSlot a b x y
            · simp only [if_pos hs, Option.map_none, Option.getD_some]
            · simp only [if_neg hs, Option.getD_none]
        | some w =>
            show (p.g.addEdge ⟨a, b, w⟩).edge? x y = _
            rw [Graph.edge?_addEdge h]
            by_cases hs : Graph.SameSlot a b x y
            · simp only [if_pos hs, Option.map_some, Option.getD_some]
            · simp only [if_neg hs, Option.getD_none]
    | subnet o s b =>
        cases b with
        | true =>
            -- a subnet may bring its owner into being, but no edge
            show (p.g.addSubnet o s).edge? x y = _
            rw [Graph.edge?_addSubnet, Graph.edge?_ensureNode h]
            rfl
        | false => exact Graph.edge?_delSubnet _ _ _ _ _

/-- A field of the node `x` is set by the Hellos of `x` that carry it and cleared by its removal. -/
def helloWrite {V : Type} (carried : Hello → Option V) (x : GoString) : Fact → Option (Option V)
  | .node h => if h.name = x then (carried h).map some else none
  | .drop name => if name = x then some none else none
  | _ => none

theorem helloWrite_eq_none {V : Type} {carried : Hello → Option V} {x : GoString} {f : Fact}
    (hnode : ∀ h, f = .node h → h.name ≠ x) (hdrop : f ≠ .drop x) :
    helloWrite carried x f = none := by
  cases f with
  | node h => exact if_neg (hnode h rfl)
  | drop name => exact if_neg (fun h => hdrop (by rw [h]))
  | nothing => rfl
  | edge a b w => rfl
  | subnet o s b => rfl

/--
What a table of the plane knows of a node, when the table is written by the
Hellos of that node that carry a value and cleared by its removal.
-/
def helloRegister {V : Type} (table : Plane → GoMap GoString V) (carried : Hello → Option V)
    (x : GoString)
    (hnode : ∀ p h, table (p.applyAddNode h) = match carried h with
      | some v => (table p).set h.name v
      | none => table p)
    (hdrop : ∀ p h, table (p.applyDelNode h) = (table p).delete h.name)
    (hgraph : ∀ p g, table { p with g := g } = table p)
    (htables : ∀ p s o, table { p with seen := s, outbox := o } = table p) :
    Register (Option V) where
  read p := (table p).get? x
  write := helloWrite carried x
  read_tables p s o := by rw [htables]
  read_enact := by
    intro p f _
    cases f with
    | nothing => rfl
    | node h =>
        show (table (p.applyAddNode h)).get? x = _
        rw [hnode]
        by_cases hx : h.name = x
        · subst hx
          cases hc : carried h with
          | none => simp [helloWrite, hc]
          | some v => simp [helloWrite, hc]
        · have hx' : ¬ x = h.name := fun e => hx e.symm
          cases carried h with
          | none => simp [helloWrite, hx]
          | some v => simp [helloWrite, hx, GoMap.get?_set_ne _ _ hx']
    | drop name =>
        show (table (p.applyDelNode _)).get? x = _
        rw [hdrop, GoMap.get?_delete]
        by_cases hx : name = x
        · simp [helloWrite, hx]
        · have hx' : ¬ x = name := fun e => hx e.symm
          simp [helloWrite, hx, hx']
    | edge a b w => cases w <;> exact congrArg (fun t => GoMap.get? t x) (hgraph p _)
    | subnet o s b => cases b <;> exact congrArg (fun t => GoMap.get? t x) (hgraph p _)

/-- The endpoint a Hello carries: an empty one is none. -/
def Hello.endpoint? (h : Hello) : Option GoString :=
  if h.endpoint ≠ [] then some h.endpoint else none

def endpointRegister (x : GoString) : Register (Option GoString) :=
  helloRegister Plane.endpoints Hello.endpoint? x
    (fun p h => by
      rw [Plane.applyAddNode_eq]
      by_cases he : h.endpoint = [] <;> simp [Hello.endpoint?, he])
    (fun _ _ => rfl) (fun _ _ => rfl) (fun _ _ _ => rfl)

/-- The endpoint as `EndpointOf` gives it. -/
def endpointOfRegister (x : GoString) : Register GoString :=
  (endpointRegister x).map fun v => v.getD []

def innerRegister (x : GoString) : Register (Option Addr) :=
  helloRegister Plane.inners (fun h => parseHelloAddr h.innerAddr) x
    (fun p h => by
      rw [Plane.applyAddNode_eq]
      cases parseHelloAddr h.innerAddr <;> simp)
    (fun _ _ => rfl) (fun _ _ => rfl) (fun _ _ _ => rfl)

def underlayRegister (x : GoString) : Register (Option Addr) :=
  helloRegister Plane.underlays (fun h => parseHelloAddr h.underlayAddr) x
    (fun p h => by
      rw [Plane.applyAddNode_eq]
      cases parseHelloAddr h.underlayAddr <;> simp)
    (fun _ _ => rfl) (fun _ _ => rfl) (fun _ _ _ => rfl)

def pubKeyRegister (x : GoString) : Register (Option Ed25519Public) :=
  helloRegister Plane.pubKeys (fun h => parseEd25519PublicBase64ish h.ed25519Public) x
    (fun p h => by
      rw [Plane.applyAddNode_eq]
      cases parseEd25519PublicBase64ish h.ed25519Public <;> simp)
    (fun _ _ => rfl) (fun _ _ => rfl) (fun _ _ _ => rfl)

/-! ## What a run does to a register -/

namespace Register

variable {V : Type} (r : Register V)

theorem read_apply {p : Plane} (h : p.g.Inv) (env : Envelope) :
    r.read (p.apply env) = (r.write env.fact).getD (r.read p) := by
  rw [Plane.apply_eq_enact, r.read_enact _ h]

/-- The tables of the protocol, one at a time. -/
theorem read_seen (p : Plane) (s : GoMap GoString Int64) : r.read { p with seen := s } = r.read p :=
  r.read_tables p s p.outbox

/-- **Applying messages in turn leaves what the last one to write it wrote.** -/
theorem read_foldl {p : Plane} (h : p.g.Inv) (envs : List Envelope) :
    r.read (envs.foldl Plane.apply p)
      = (envs.filterMap fun env => r.write env.fact).getLast?.getD (r.read p) :=
  register_foldl (I := fun q : Plane => q.g.Inv) h (fun _ env hq => Plane.inv_apply hq env)
    (fun _ env hq => r.read_apply hq env)

section Receive

variable [Ed25519]

/-- **A run of `Receive` calls leaves what the last accepted message to write it wrote.** -/
theorem read_receiveAll {p : Plane} (h : p.g.Inv) {envs : List Envelope} (hv : p.AllVerify envs) :
    r.read (p.receiveAll envs)
      = ((p.acceptedBy envs).filterMap fun env => r.write env.fact).getLast?.getD (r.read p) := by
  rw [Plane.receiveAll_eq hv, r.read_seen, r.read_foldl h, Plane.acceptedBy_eq hv]

/-- A run in which nothing writes it leaves it as it was. -/
theorem read_receiveAll_untouched {p : Plane} (h : p.g.Inv) {envs : List Envelope}
    (hv : p.AllVerify envs) (hno : ∀ env ∈ envs, r.write env.fact = none) :
    r.read (p.receiveAll envs) = r.read p := by
  rw [r.read_receiveAll h hv, Plane.acceptedBy_eq hv, last_untouched hno]
  rfl

/--
**Written under one ID, a register ends with what the newest message of that ID
wrote**, whatever the order of arrival.
-/
theorem read_receiveAll_newest {p : Plane} (h : p.g.Inv) {envs : List Envelope}
    (hv : p.AllVerify envs) {n : Envelope} {v : V} (hn : Newest Envelope.id Envelope.ts envs n)
    (hnew : Newer p.seen n.id n.ts) (hw : r.write n.fact = some v)
    (honly : ∀ env ∈ envs, r.write env.fact ≠ none → env.id = n.id) :
    r.read (p.receiveAll envs) = v := by
  rw [r.read_receiveAll h hv, Plane.acceptedBy_eq hv, last_newest hn hnew hw honly]
  rfl

end Receive

end Register

/-! ## Planes that check nothing -/

/-- A Hello that carries a key. -/
def Fact.teachesKey : Fact → Bool
  | .node h => (parseEd25519PublicBase64ish h.ed25519Public).isSome
  | _ => false

/-- Without a lookup and without a Hello to learn a key from, every envelope passes. -/
theorem Plane.allVerify_unkeyed [Ed25519] {p : Plane} (h : p.g.Inv) (hf : p.pubKeyFor = none)
    (hk : ∀ x, p.pubKeys.get? x = none) {envs : List Envelope}
    (hno : ∀ env ∈ envs, env.fact.teachesKey = false) : p.AllVerify envs := by
  induction envs generalizing p with
  | nil => trivial
  | cons env envs ih =>
      have hv : p.verify env = true := by simp [Plane.verify, hf, hk]
      have hrest : ∀ e ∈ envs, e.fact.teachesKey = false := fun e he => hno e (by simp [he])
      refine ⟨hv, ?_⟩
      rw [Plane.afterReceive_of_verify hv]
      split
      · refine ih (Plane.inv_apply h env) (by simp [hf]) (fun x => ?_) hrest
        have hp : (pubKeyRegister x).read p = none := hk x
        show (pubKeyRegister x).read (p.apply env) = none
        rw [(pubKeyRegister x).read_apply h env, hp]
        -- only a removal can have written, and it clears
        cases hfact : env.fact with
        | node hl =>
            have hnone : parseEd25519PublicBase64ish hl.ed25519Public = none := by
              have := hno env (by simp)
              rw [hfact] at this
              simpa [Fact.teachesKey] using this
            simp [pubKeyRegister, helloRegister, helloWrite, hnone]
        | drop name => simp only [pubKeyRegister, helloRegister, helloWrite]; split <;> rfl
        | nothing => rfl
        | edge a b w => rfl
        | subnet o n b => rfl
      · exact ih h hf hk hrest

end Gsnet.Gossip
