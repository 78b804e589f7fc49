import Gsnet.Go.Bytes
import Gsnet.Go.Map
import Gsnet.Lib.Search

/-!
# The topology graph

`internal/graph`: the nodes a daemon has heard of, the subnets each owns, and
the edges between them. An edge is stored twice, once under each endpoint, and
every operation that touches it touches both halves.

Iteration order is not part of the model: `edges` and `nodeNames` are multisets.
-/

namespace Gsnet

open Go

/-- One direction of a connection between two nodes. -/
structure Edge where
  /-- `From`. -/
  src : GoString
  /-- `To`. -/
  dst : GoString
  weight : Int64
  deriving DecidableEq, Repr

/-- The other half of an edge. -/
def Edge.rev (e : Edge) : Edge := ⟨e.dst, e.src, e.weight⟩

/-- What the graph keeps for a node. -/
structure NodeData where
  subnets : Finset GoString
  deriving DecidableEq

/-- The in-memory topology state. -/
structure Graph where
  nodes : GoMap GoString NodeData
  /-- `adj[from][to]` is the edge. -/
  adj : GoMap GoString (GoMap GoString Edge)
  deriving DecidableEq

namespace Graph

/-- `graph.New`. -/
def new : Graph := ⟨GoMap.empty, GoMap.empty⟩

/-- A node is created with no subnets and no neighbours. -/
def ensureNode (g : Graph) (name : GoString) : Graph :=
  match g.nodes.get? name with
  | some _ => g
  | none => ⟨g.nodes.set name ⟨∅⟩, g.adj.set name GoMap.empty⟩

def addNode (g : Graph) (name : GoString) : Graph := g.ensureNode name

def hasNode (g : Graph) (name : GoString) : Bool := (g.nodes.get? name).isSome

/-- `Nodes()`. -/
def nodeNames (g : Graph) : Multiset GoString := g.nodes.keys

/-- `g.adj[a][b] = e`, once `ensureNode` has made sure of `g.adj[a]`. -/
def setAdj (g : Graph) (a b : GoString) (e : Edge) : Graph :=
  { g with adj := g.adj.set a (((g.adj.get? a).getD GoMap.empty).set b e) }

def addEdge (g : Graph) (e : Edge) : Graph :=
  let g := (g.ensureNode e.src).ensureNode e.dst
  (g.setAdj e.src e.dst e).setAdj e.dst e.src e.rev

/-- `if m, ok := g.adj[a]; ok { delete(m, b) }`. -/
def delAdj (g : Graph) (a b : GoString) : Graph :=
  match g.adj.get? a with
  | none => g
  | some m => { g with adj := g.adj.set a (m.delete b) }

def delEdge (g : Graph) (a b : GoString) : Graph := (g.delAdj a b).delAdj b a

/-- The stored half-edge from `a` to `b`. -/
def edge? (g : Graph) (a b : GoString) : Option Edge := (g.adj.get? a).bind (·.get? b)

def hasEdge (g : Graph) (a b : GoString) : Bool := (g.edge? a b).isSome

/-- `Edges()`: every stored half. -/
def edges (g : Graph) : Multiset Edge := g.adj.values.bind GoMap.values

/-- What `range g.adj[a]` visits. -/
def neighbours (g : Graph) (a : GoString) : Multiset GoString := (g.adj.get? a).elim 0 GoMap.keys

/--
Orders in which the neighbours of each node happen to be visited. `Reachable` goes
through those of a node at most once, so this is an order for each time it does.
-/
def IsAdjOrder (o : GoString → List GoString) (g : Graph) : Prop :=
  ∀ a ∈ g.nodeNames, (o a : Multiset GoString) = g.neighbours a

instance (o : GoString → List GoString) (g : Graph) : Decidable (IsAdjOrder o g) :=
  inferInstanceAs (Decidable (∀ a ∈ g.nodeNames, _))

/-- `Reachable`; nothing if it has not come to its end after so many rounds of its loop. -/
def reachable (g : Graph) (o : GoString → List GoString) (rounds : Nat) (start : GoString) :
    Option (Finset GoString) :=
  if g.hasNode start = false then some ∅ else Lib.Search.run o rounds (.start start)

def addSubnet (g : Graph) (owner subnet : GoString) : Graph :=
  let g := g.ensureNode owner
  match g.nodes.get? owner with
  | some n => { g with nodes := g.nodes.set owner ⟨insert subnet n.subnets⟩ }
  | none => g

def delSubnet (g : Graph) (owner subnet : GoString) : Graph :=
  match g.nodes.get? owner with
  | some n => { g with nodes := g.nodes.set owner ⟨n.subnets.erase subnet⟩ }
  | none => g

/-- `NodeSubnets(name)`: empty for a node the graph does not have. -/
def nodeSubnets (g : Graph) (name : GoString) : Finset GoString :=
  match g.nodes.get? name with
  | some n => n.subnets
  | none => ∅

/-- `SubnetOwner`, for an order in which the nodes happen to be visited: the first counts. -/
def subnetOwner (g : Graph) (nodes : List GoString) (subnet : GoString) : Option GoString :=
  nodes.find? fun name => subnet ∈ g.nodeSubnets name

/-! ## Deleting many edges -/

theorem adj_delAdj (g : Graph) (a b x : GoString) :
    (g.delAdj a b).adj.get? x
      = if x = a then (g.adj.get? x).map (·.delete b) else g.adj.get? x := by
  unfold delAdj
  by_cases hx : x = a
  · subst hx
    cases h : g.adj.get? x with
    | none => simp [h]
    | some m => simp
  · cases h : g.adj.get? a with
    | none => simp [hx]
    | some m => simp [GoMap.get?_set_ne _ _ hx, hx]

@[simp] theorem nodes_delAdj (g : Graph) (a b : GoString) : (g.delAdj a b).nodes = g.nodes := by
  unfold delAdj; split <;> rfl

theorem delAdj_comm (g : Graph) (a b c d : GoString) :
    (g.delAdj a b).delAdj c d = (g.delAdj c d).delAdj a b := by
  have hn : ((g.delAdj a b).delAdj c d).nodes = ((g.delAdj c d).delAdj a b).nodes := by simp
  have ha : ((g.delAdj a b).delAdj c d).adj = ((g.delAdj c d).delAdj a b).adj := by
    refine GoMap.ext_get? (fun x => ?_)
    simp only [adj_delAdj]
    by_cases h1 : x = a
    · by_cases h2 : x = c
      · cases g.adj.get? x with
        | none => simp
        | some m => simp only [if_pos h1, if_pos h2, Option.map_some, GoMap.delete_comm m b d]
      · simp only [if_pos h1, if_neg h2]
    · simp [h1]
  generalize (g.delAdj a b).delAdj c d = u at hn ha ⊢
  generalize (g.delAdj c d).delAdj a b = v at hn ha ⊢
  cases u; cases v
  simp_all

/-- The order in which edges are deleted does not matter. -/
instance : RightCommutative (fun (g : Graph) (e : Edge) => g.delEdge e.src e.dst) where
  right_comm := by
    intro g e f
    simp only [delEdge]
    rw [delAdj_comm (g.delAdj e.src e.dst) e.dst e.src f.src f.dst,
      delAdj_comm ((g.delAdj e.src e.dst).delAdj f.src f.dst) e.dst e.src f.dst f.src,
      delAdj_comm g e.src e.dst f.src f.dst,
      delAdj_comm (g.delAdj f.src f.dst) e.src e.dst f.dst f.src]

/-- `DelEdge` on every edge of a collection, in whatever order they come. -/
def delEdges (g : Graph) (es : Multiset Edge) : Graph :=
  es.foldl (fun g e => g.delEdge e.src e.dst) g

/-! ## Subnets -/

@[simp] theorem nodeSubnets_new (name : GoString) : new.nodeSubnets name = ∅ := by
  simp [nodeSubnets, new]

@[simp] theorem nodeSubnets_ensureNode (g : Graph) (name x : GoString) :
    (g.ensureNode name).nodeSubnets x = g.nodeSubnets x := by
  unfold ensureNode
  split
  · rfl
  · rename_i h
    unfold nodeSubnets
    rw [GoMap.get?_set]
    by_cases hx : x = name
    · subst hx; simp [h]
    · simp [hx]

@[simp] theorem nodeSubnets_setAdj (g : Graph) (a b x : GoString) (e : Edge) :
    (g.setAdj a b e).nodeSubnets x = g.nodeSubnets x := rfl

@[simp] theorem nodeSubnets_addEdge (g : Graph) (e : Edge) (x : GoString) :
    (g.addEdge e).nodeSubnets x = g.nodeSubnets x := by
  simp [addEdge]

@[simp] theorem nodes_delEdge (g : Graph) (a b : GoString) : (g.delEdge a b).nodes = g.nodes := by
  simp [delEdge]

@[simp] theorem nodeSubnets_delEdge (g : Graph) (a b x : GoString) :
    (g.delEdge a b).nodeSubnets x = g.nodeSubnets x := by
  simp [nodeSubnets]

theorem ensureNode_nodes_self (g : Graph) (name : GoString) :
    (g.ensureNode name).nodes.get? name = some ⟨g.nodeSubnets name⟩ := by
  unfold ensureNode nodeSubnets
  split
  · rename_i n h; simp [h]
  · rename_i h; simp

/-- **What `AddSubnet` does to the subnets of a node.** -/
theorem nodeSubnets_addSubnet (g : Graph) (owner subnet x : GoString) :
    (g.addSubnet owner subnet).nodeSubnets x
      = if x = owner then insert subnet (g.nodeSubnets x) else g.nodeSubnets x := by
  unfold addSubnet
  simp only [ensureNode_nodes_self]
  by_cases hx : x = owner
  · subst hx; simp [nodeSubnets]
  · have := nodeSubnets_ensureNode g owner x
    unfold nodeSubnets at this ⊢
    simp only [GoMap.get?_set_ne _ _ hx, if_neg hx]
    exact this

/-- **What `DelSubnet` does to the subnets of a node.** -/
theorem nodeSubnets_delSubnet (g : Graph) (owner subnet x : GoString) :
    (g.delSubnet owner subnet).nodeSubnets x
      = if x = owner then (g.nodeSubnets x).erase subnet else g.nodeSubnets x := by
  unfold delSubnet
  cases h : g.nodes.get? owner with
  | none =>
      by_cases hx : x = owner
      · subst hx; simp [nodeSubnets, h]
      · simp [hx]
  | some n =>
      by_cases hx : x = owner
      · subst hx; simp [nodeSubnets, h]
      · simp [nodeSubnets, GoMap.get?_set_ne _ _ hx, hx]

end Graph

end Gsnet
