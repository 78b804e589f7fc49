import Gsnet.Control
import Gsnet.GraphProof

/-!
# What can be reached in the graph

`Reachable` is a breadth-first search over the adjacency map. Both halves of an edge
are in the map whenever one is, and both its ends are nodes, so the search cannot
leave the nodes and sees exactly what a path of edges leads to, from whichever end.

A purge clears the edges of the nodes that were not reached. An edge of a node that
was reached leads to another, so no path from the local node is cut, and what is
left are the edges between nodes that were reached.
-/

namespace Gsnet

open Go Lib

/-! ## Graphs that are built -/

/-- The operations of a graph. -/
inductive GraphOp where
  | addNode (name : GoString)
  | addEdge (e : Edge)
  | delEdge (a b : GoString)
  | addSubnet (owner subnet : GoString)
  | delSubnet (owner subnet : GoString)
  deriving DecidableEq

namespace Graph

def apply (g : Graph) : GraphOp → Graph
  | .addNode name => g.addNode name
  | .addEdge e => g.addEdge e
  | .delEdge a b => g.delEdge a b
  | .addSubnet owner subnet => g.addSubnet owner subnet
  | .delSubnet owner subnet => g.delSubnet owner subnet

/-- What a sequence of operations makes of the empty graph. -/
def build (ops : List GraphOp) : Graph := ops.foldl apply new

theorem inv_apply {g : Graph} (h : Inv g) (op : GraphOp) : Inv (g.apply op) := by
  cases op with
  | addNode name => exact inv_ensureNode h name
  | addEdge e => exact inv_addEdge h e
  | delEdge a b => exact inv_delEdge h a b
  | addSubnet owner subnet => exact inv_addSubnet h owner subnet
  | delSubnet owner subnet => exact inv_delSubnet h owner subnet

theorem inv_build (ops : List GraphOp) : Inv (build ops) := by
  unfold build
  induction ops using List.reverseRecOn with
  | nil => exact inv_new
  | append_singleton ops op ih =>
      rw [List.foldl_append, List.foldl_cons, List.foldl_nil]
      exact inv_apply ih op

/-! ## Paths -/

/-- A path of edges that are there. -/
def Path (g : Graph) : GoString → GoString → Prop :=
  Relation.ReflTransGen fun a b => g.hasEdge a b = true

theorem hasEdge_iff {g : Graph} {a b : GoString} :
    g.hasEdge a b = true ↔ ∃ e, g.edge? a b = some e := Option.isSome_iff_exists

theorem hasEdge_symm {g : Graph} (h : Inv g) {a b : GoString} (hab : g.hasEdge a b = true) :
    g.hasEdge b a = true := by
  obtain ⟨e, he⟩ := hasEdge_iff.mp hab
  exact hasEdge_iff.mpr ⟨_, h.sym a b e he⟩

/-- Paths lead both ways. -/
theorem Path.symm {g : Graph} (h : Inv g) {a b : GoString} (hab : g.Path a b) : g.Path b a := by
  induction hab with
  | refl => exact .refl
  | tail _ hstep ih => exact .head (hasEdge_symm h hstep) ih

/-- Edges are between nodes. -/
theorem hasNode_of_hasEdge {g : Graph} (h : Inv g) {a b : GoString} (hab : g.hasEdge a b = true) :
    g.hasNode a = true := by
  by_contra hno
  have hnone : g.nodes.get? a = none := by simpa [hasNode] using hno
  obtain ⟨e, he⟩ := hasEdge_iff.mp hab
  rw [edge?_of_not_node h hnone] at he
  cases he

theorem Path.hasNode {g : Graph} (h : Inv g) {a b : GoString} (hab : g.Path a b)
    (ha : g.hasNode a = true) : g.hasNode b = true := by
  cases hab with
  | refl => exact ha
  | tail _ hstep => exact hasNode_of_hasEdge h (hasEdge_symm h hstep)

theorem mem_neighbours {g : Graph} {a b : GoString} :
    b ∈ g.neighbours a ↔ g.hasEdge a b = true := by
  unfold neighbours hasEdge edge?
  cases g.adj.get? a with
  | none => simp
  | some m =>
      rw [Option.elim_some, GoMap.mem_keys, Option.bind_some, Option.isSome_iff_ne_none]

/-! ## What the maps hold -/

/-- The maps of a graph stand for undirected edges between nodes. -/
structure Represents (g : Graph) : Prop where
  /-- `nodes` and `adj` have the same keys. -/
  keys : ∀ a, (g.nodes.get? a).isSome ↔ (g.adj.get? a).isSome
  /-- A stored edge is one from here to there. -/
  ends : ∀ a b row e, g.adj.get? a = some row → row.get? b = some e →
    e.src = a ∧ e.dst = b ∧ g.hasNode a = true ∧ g.hasNode b = true
  /-- It is stored the other way round as well. -/
  mirror : ∀ a b row e, g.adj.get? a = some row → row.get? b = some e →
    ∃ row' e', g.adj.get? b = some row' ∧ row'.get? a = some e' ∧ e'.weight = e.weight
  /-- `Edges()` has every edge that is there once in this direction. -/
  once : ∀ a b, g.edges.countP (fun e => e.src = a ∧ e.dst = b)
    = if g.hasEdge a b = true then 1 else 0
  symm : ∀ a b, g.hasEdge a b = g.hasEdge b a

theorem edge?_eq_some {g : Graph} {a b : GoString} {e : Edge} :
    g.edge? a b = some e ↔ ∃ row, g.adj.get? a = some row ∧ row.get? b = some e :=
  Option.bind_eq_some_iff

theorem countP_edges {g : Graph} (h : Inv g) (a b : GoString) :
    g.edges.countP (fun e => e.src = a ∧ e.dst = b) = if g.hasEdge a b = true then 1 else 0 := by
  split
  · rename_i hab
    obtain ⟨e, he⟩ := hasEdge_iff.mp hab
    -- the slot says which edge it is
    have honly : ∀ f ∈ g.edges, (f.src = a ∧ f.dst = b) = (e = f) := by
      intro f hf
      refine propext ⟨?_, ?_⟩
      · rintro ⟨rfl, rfl⟩
        exact Option.some.inj (he.symm.trans ((mem_edges_iff h).mp hf))
      · rintro rfl
        exact h.ends a b e he
    rw [Multiset.countP_congr rfl honly]
    exact Multiset.count_eq_one_of_mem (nodup_edges h) (mem_edges.mpr ⟨a, b, he⟩)
  · rename_i hab
    refine Multiset.countP_eq_zero.mpr ?_
    rintro f hf ⟨rfl, rfl⟩
    exact hab (hasEdge_iff.mpr ⟨f, (mem_edges_iff h).mp hf⟩)

/-- **Whatever is done to a graph**, its maps stand for undirected edges between nodes. -/
theorem represents_build (ops : List GraphOp) : Represents (build ops) where
  keys := (inv_build ops).keys
  ends := by
    intro a b row e hrow he
    have hslot := edge?_eq_some.mpr ⟨row, hrow, he⟩
    have hab := hasEdge_iff.mpr ⟨e, hslot⟩
    obtain ⟨hsrc, hdst⟩ := (inv_build ops).ends a b e hslot
    exact ⟨hsrc, hdst, hasNode_of_hasEdge (inv_build ops) hab,
      hasNode_of_hasEdge (inv_build ops) (hasEdge_symm (inv_build ops) hab)⟩
  mirror := by
    intro a b row e hrow he
    have hmirror := (inv_build ops).sym a b e (edge?_eq_some.mpr ⟨row, hrow, he⟩)
    obtain ⟨row', hrow', he'⟩ := edge?_eq_some.mp hmirror
    exact ⟨row', _, hrow', he', rfl⟩
  once := countP_edges (inv_build ops)
  symm := by
    intro a b
    exact Bool.eq_iff_iff.mpr ⟨hasEdge_symm (inv_build ops), hasEdge_symm (inv_build ops)⟩

/-! ## Reachable -/

section Reachable

variable {g : Graph} {o : GoString → List GoString} {start : GoString}

theorem mem_order (ho : IsAdjOrder o g) {a b : GoString} (ha : g.hasNode a = true) :
    b ∈ o a ↔ g.hasEdge a b = true := by
  rw [← mem_neighbours, ← ho a (mem_nodeNames.mpr ha), Multiset.mem_coe]

/-- From a node, the search goes along the edges. -/
theorem path_iff_order (h : Inv g) (ho : IsAdjOrder o g) (hstart : g.hasNode start = true)
    {v : GoString} :
    Relation.ReflTransGen (fun x y => y ∈ o x) start v ↔ g.Path start v := by
  constructor
  · intro hpath
    induction hpath with
    | refl => exact .refl
    | tail _ hstep ih => exact ih.tail ((mem_order ho (ih.hasNode h hstart)).mp hstep)
  · intro hpath
    induction hpath with
    | refl => exact .refl
    | tail hsome hstep ih =>
        have hnode : g.hasNode _ = true := Path.hasNode h hsome hstart
        exact ih.tail ((mem_order ho hnode).mpr hstep)

/-- What `Reachable` returns is what a path leads to. -/
theorem mem_reachable (h : Inv g) (ho : IsAdjOrder o g) {rounds : Nat} {reach : Finset GoString}
    (hreach : g.reachable o rounds start = some reach) (v : GoString) :
    v ∈ reach ↔ g.hasNode start = true ∧ g.Path start v := by
  unfold reachable at hreach
  cases hstart : g.hasNode start with
  | false =>
      rw [if_pos hstart] at hreach
      cases hreach
      simp
  | true =>
      rw [if_neg (by simp [hstart])] at hreach
      rw [Search.inv_start.mem_run hreach, path_iff_order h ho hstart]
      simp

/-- And it comes to its end. -/
theorem exists_reachable (h : Inv g) (ho : IsAdjOrder o g) {rounds : Nat}
    (hrounds : Multiset.card g.nodeNames ≤ rounds) (start : GoString) :
    ∃ reach, g.reachable o rounds start = some reach := by
  unfold reachable
  cases hstart : g.hasNode start with
  | false => exact ⟨∅, rfl⟩
  | true =>
      have hmem : ∀ {a}, a ∈ g.nodeNames.toFinset ↔ g.hasNode a = true := by
        intro a
        rw [Multiset.mem_toFinset]
        exact mem_nodeNames
      have hclosed : ∀ v ∈ g.nodeNames.toFinset, ∀ w ∈ o v, w ∈ g.nodeNames.toFinset := by
        intro v hv w hw
        have hedge := (mem_order ho (hmem.mp hv)).mp hw
        exact hmem.mpr (hasNode_of_hasEdge h (hasEdge_symm h hedge))
      have hcard := (Multiset.toFinset_card_le g.nodeNames).trans hrounds
      obtain ⟨reach, hrun, -⟩ := Search.run_start hclosed (hmem.mpr hstart) hcard
      exact ⟨reach, hrun⟩

end Reachable

/--
**`Reachable` is graph reachability**, in every graph that was built, from every name
and for every order of iteration: it comes to its end after as many rounds as there
are nodes, or before, and returns the nodes a path leads to from there, or none if
there is no such node. So of two nodes each reaches the other or neither does.
-/
theorem reachable_exact (ops : List GraphOp) :
    (∀ (o : GoString → List GoString) (start : GoString), IsAdjOrder o (build ops) →
        ∃ reach, (∀ rounds, Multiset.card (build ops).nodeNames ≤ rounds →
            (build ops).reachable o rounds start = some reach)
          ∧ ∀ v, v ∈ reach ↔ (build ops).hasNode start = true ∧ (build ops).Path start v)
      ∧ ∀ (o o' : GoString → List GoString) (rounds rounds' : Nat) (a b : GoString)
          (reach reach' : Finset GoString), IsAdjOrder o (build ops) → IsAdjOrder o' (build ops) →
        (build ops).hasNode a = true → (build ops).hasNode b = true →
        (build ops).reachable o rounds a = some reach →
        (build ops).reachable o' rounds' b = some reach' → (b ∈ reach ↔ a ∈ reach') := by
  have h := inv_build ops
  constructor
  · intro o start ho
    obtain ⟨reach, hreach⟩ := exists_reachable h ho (Nat.le_refl _) start
    refine ⟨reach, fun rounds hrounds => ?_, mem_reachable h ho hreach⟩
    obtain ⟨reach', hreach'⟩ := exists_reachable h ho hrounds start
    have heq : reach' = reach := by
      ext v
      rw [mem_reachable h ho hreach', mem_reachable h ho hreach]
    rw [hreach', heq]
  · intro o o' rounds rounds' a b reach reach' ho ho' ha hb hreach hreach'
    rw [mem_reachable h ho hreach, mem_reachable h ho' hreach']
    constructor
    · rintro ⟨-, hpath⟩
      exact ⟨hb, hpath.symm h⟩
    · rintro ⟨-, hpath⟩
      exact ⟨ha, hpath.symm h⟩

section Sample

/-- Three nodes in a row and one apart. -/
def rowOps : List GraphOp :=
  [.addEdge ⟨str "a", str "b", 10⟩, .addEdge ⟨str "b", str "c", 20⟩, .addNode (str "d")]

def rowOrder (n : GoString) : List GoString :=
  if n = str "a" then [str "b"]
  else if n = str "b" then [str "c", str "a"]
  else if n = str "c" then [str "b"]
  else []

theorem isAdjOrder_row : IsAdjOrder rowOrder (build rowOps) := by
  decide +kernel

/-- Both ends of the row reach each other, and neither reaches the fourth. -/
theorem reachable_row :
    (∃ reach, (build rowOps).reachable rowOrder 4 (str "a") = some reach
        ∧ ∀ v, v ∈ reach ↔ (build rowOps).hasNode (str "a") = true
          ∧ (build rowOps).Path (str "a") v)
      ∧ ∀ reach reach', (build rowOps).reachable rowOrder 4 (str "a") = some reach →
        (build rowOps).reachable rowOrder 4 (str "d") = some reach' →
        (str "d" ∈ reach ↔ str "a" ∈ reach') := by
  obtain ⟨hexact, hsymm⟩ := reachable_exact rowOps
  obtain ⟨reach, hreach, hmem⟩ := hexact rowOrder (str "a") isAdjOrder_row
  refine ⟨⟨reach, hreach 4 (by decide +kernel), hmem⟩, fun reach reach' => ?_⟩
  exact hsymm _ _ 4 4 _ _ reach reach' isAdjOrder_row isAdjOrder_row (by decide +kernel)
    (by decide +kernel)

example : (build rowOps).reachable rowOrder 4 (str "a") = some {str "a", str "b", str "c"} := by
  decide +kernel

end Sample

/-! ## Purge -/

open Control

section Purge

variable {g : Graph} {nodes : List GoString}

/-- **What one node after the other clears.** -/
theorem clearUnreached_spec (h : Inv g) (reach : Finset GoString) (nodes : List GoString) :
    Inv (clearUnreached g reach nodes) ∧ (clearUnreached g reach nodes).nodes = g.nodes
      ∧ ∀ x y, (clearUnreached g reach nodes).edge? x y
        = if ∃ n ∈ nodes, n ∉ reach ∧ (x = n ∨ y = n) then none else g.edge? x y := by
  induction nodes generalizing g with
  | nil => exact ⟨h, rfl, by simp [clearUnreached]⟩
  | cons n nodes ih =>
      unfold clearUnreached
      rw [List.foldl_cons]
      by_cases hn : n ∈ reach
      · rw [if_pos hn]
        obtain ⟨hinv, hnodes, hedge⟩ := ih h
        refine ⟨hinv, hnodes, fun x y => (hedge x y).trans ?_⟩
        simp [hn]
      · rw [if_neg hn]
        obtain ⟨hinv, hnodes, hedge⟩ :=
          ih (inv_delEdges h (g.edges.filter fun e => e.src = n ∨ e.dst = n))
        refine ⟨hinv, hnodes.trans (nodes_delEdges _ _), fun x y => (hedge x y).trans ?_⟩
        rw [edge?_delIncident h]
        by_cases hxy : x = n ∨ y = n
        · have hsome : ∃ m ∈ n :: nodes, m ∉ reach ∧ (x = m ∨ y = m) :=
            ⟨n, List.mem_cons_self, hn, hxy⟩
          rw [if_pos hxy, if_pos hsome, ite_self]
        · simp [hxy]

/-- For the nodes of the graph and what was reached, it leaves the edges between those. -/
theorem edge?_clearUnreached (h : Inv g) (reach : Finset GoString)
    (hnodes : (nodes : Multiset GoString) = g.nodeNames) (x y : GoString) :
    (clearUnreached g reach nodes).edge? x y
      = if x ∈ reach ∧ y ∈ reach then g.edge? x y else none := by
  obtain ⟨-, -, hedge⟩ := clearUnreached_spec h reach nodes
  have hmem : ∀ {n}, n ∈ nodes ↔ g.hasNode n = true := by
    intro n
    rw [← Multiset.mem_coe, hnodes]
    exact mem_nodeNames
  rw [hedge]
  cases hxy : g.edge? x y with
  | none => simp
  | some e =>
      have hboth : g.hasNode x = true ∧ g.hasNode y = true := by
        have hstep := hasEdge_iff.mpr ⟨e, hxy⟩
        exact ⟨hasNode_of_hasEdge h hstep, hasNode_of_hasEdge h (hasEdge_symm h hstep)⟩
      by_cases hin : x ∈ reach ∧ y ∈ reach
      · rw [if_pos hin, if_neg]
        rintro ⟨n, -, hn, rfl | rfl⟩
        · exact hn hin.1
        · exact hn hin.2
      · rw [if_neg hin, if_pos]
        by_cases hx : x ∈ reach
        · exact ⟨y, hmem.mpr hboth.2, fun hy => hin ⟨hx, hy⟩, .inr rfl⟩
        · exact ⟨x, hmem.mpr hboth.1, hx, .inl rfl⟩

end Purge

/--
**A purge removes the edges that cannot be reached, all of them and nothing else**, in
every graph that was built and has the local node, for every order of iteration. What
can be reached stays, and so do nodes and subnets.
-/
theorem purge_exact (ops : List GraphOp) (self : GoString) (o : GoString → List GoString)
    (rounds : Nat) (nodes : List GoString) (hself : (build ops).hasNode self = true)
    (ho : IsAdjOrder o (build ops)) (hrounds : Multiset.card (build ops).nodeNames ≤ rounds)
    (hnodes : (nodes : Multiset GoString) = (build ops).nodeNames) :
    ∃ reach g', (build ops).reachable o rounds self = some reach
      ∧ purge (build ops) o rounds self nodes = some g'
      ∧ g'.edges = (build ops).edges.filter (fun e => e.src ∈ reach ∧ e.dst ∈ reach)
      ∧ (∀ o', IsAdjOrder o' g' → g'.reachable o' rounds self = some reach)
      ∧ g'.nodes = (build ops).nodes := by
  have h := inv_build ops
  generalize build ops = g at *
  obtain ⟨reach, hreach⟩ := exists_reachable h ho hrounds self
  obtain ⟨hinv, hsame, -⟩ := clearUnreached_spec h reach nodes
  have hedge := edge?_clearUnreached h reach hnodes
  have hmem := mem_reachable h ho hreach
  have hnode : (clearUnreached g reach nodes).hasNode self = true := by
    unfold hasNode
    rw [hsame]
    exact hself
  refine ⟨reach, clearUnreached g reach nodes, hreach, by rw [purge, hreach]; rfl, ?_,
    fun o' ho' => ?_, hsame⟩
  · refine (Multiset.Nodup.ext (nodup_edges hinv) ((nodup_edges h).filter _)).mpr fun e => ?_
    rw [Multiset.mem_filter, mem_edges_iff hinv, mem_edges_iff h, hedge]
    by_cases hin : e.src ∈ reach ∧ e.dst ∈ reach
    · simp [hin]
    · simp [hin]
  · have hrounds' : Multiset.card (clearUnreached g reach nodes).nodeNames ≤ rounds := by
      unfold nodeNames
      rw [hsame]
      exact hrounds
    obtain ⟨reach', hreach'⟩ := exists_reachable hinv ho' hrounds' self
    have heq : reach' = reach := by
      ext v
      rw [mem_reachable hinv ho' hreach', hmem]
      refine and_congr (iff_of_true hnode hself) ⟨fun hpath => ?_, fun hpath => ?_⟩
      · -- an edge that is left was there before
        induction hpath with
        | refl => exact .refl
        | tail _ hstep ih =>
            obtain ⟨e, he⟩ := hasEdge_iff.mp hstep
            rw [hedge] at he
            split at he
            · exact ih.tail (hasEdge_iff.mpr ⟨e, he⟩)
            · cases he
      · -- and a path from the local node runs over nodes that were reached
        induction hpath with
        | refl => exact .refl
        | @tail a b hsome hstep ih =>
            have ha : a ∈ reach := (hmem a).mpr ⟨hself, hsome⟩
            have hb : b ∈ reach := (hmem b).mpr ⟨hself, hsome.tail hstep⟩
            obtain ⟨e, he⟩ := hasEdge_iff.mp hstep
            refine ih.tail (hasEdge_iff.mpr ⟨e, ?_⟩)
            rw [hedge, if_pos ⟨ha, hb⟩, he]
    rw [hreach', heq]

section Sample

/-- The row, and two nodes that only know each other. -/
def apartOps : List GraphOp := rowOps ++ [.addEdge ⟨str "d", str "e", 30⟩]

def apartOrder (n : GoString) : List GoString :=
  if n = str "d" then [str "e"] else if n = str "e" then [str "d"] else rowOrder n

theorem purge_apart : ∃ reach g', (build apartOps).reachable apartOrder 5 (str "a") = some reach
    ∧ purge (build apartOps) apartOrder 5 (str "a") [str "e", str "b", str "a", str "d", str "c"]
      = some g'
    ∧ g'.edges = (build apartOps).edges.filter (fun e => e.src ∈ reach ∧ e.dst ∈ reach) := by
  obtain ⟨reach, g', hreach, hpurge, hedges, -⟩ := purge_exact apartOps (str "a") apartOrder 5
    [str "e", str "b", str "a", str "d", str "c"] (by decide +kernel) (by decide +kernel)
    (by decide +kernel) (by decide +kernel)
  exact ⟨reach, g', hreach, hpurge, hedges⟩

example : (purge (build apartOps) apartOrder 5 (str "a")
      [str "e", str "b", str "a", str "d", str "c"]).map
        (fun g => (g.hasEdge (str "d") (str "e"), g.hasEdge (str "c") (str "b")))
    = some (false, true) := by
  decide +kernel

end Sample

end Graph

end Gsnet
