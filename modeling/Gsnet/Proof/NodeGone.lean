import Gsnet.Control
import Gsnet.Proof.PeerKeys

/-!
# What is left of a node after `del_node`

A `del_node` clears the edges of the node and what its Hello taught: the endpoint,
the two addresses and the key. The node itself stays in the graph, and with it the
subnets it has announced: the graph has no operation that removes a node, and none
is asked for the subnets. `buildState` goes through the nodes of the graph, so a
node with a host file stays a peer, in router mode with the prefixes it had.

What a `del_node` does clear stays cleared until the node is added again, and no
other node loses more than its edge to this one.
-/

namespace Gsnet.Gossip

open Go Daemon Dataplane

/-- The fact brings the node back: in a Hello, at an end of an edge, or as the owner of a subnet. -/
def Fact.ReAdds (x : GoString) : Fact → Prop
  | .node h => h.name = x
  | .edge a b (some _) => a = x ∨ b = x
  | .subnet o _ true => o = x
  | _ => False

namespace Plane

/-- The planes the program can come to from this one while no envelope re-adds the node. -/
inductive Since (x : GoString) (p : Plane) : Plane → Prop
  | here : Since x p p
  | setSigner {q : Plane} (priv : Ed25519Private) :
      Since x p q → Since x p { q with edPriv := some priv }
  | setVerifier {q : Plane} (f : GoString → Option Ed25519Public) :
      Since x p q → Since x p { q with pubKeyFor := some f }
  | claim {q q' : Plane} (id : GoString) (ts : Int64) :
      Since x p q → q.claim id ts = some q' → Since x p q'
  | store {q : Plane} (env : Envelope) : Since x p q → Since x p (q.store env)
  | apply {q : Plane} (env : Envelope) :
      Since x p q → ¬ env.fact.ReAdds x → Since x p (q.apply env)

section

variable (fs : FileSystem) (paths : Paths) (l : Loaded) (x : GoString)

/-- Nothing the program can be asked about the node has an answer. -/
structure Gone (p : Plane) : Prop where
  /-- `NodeSubnets`. -/
  subnets : p.g.nodeSubnets x = ∅
  allSubnets : ∀ o : IterOrder, o.Of p.g → ∀ s, (Control.allSubnets o).get? s ≠ some x
  subnetOwner : ∀ nodes : List GoString, (nodes : Multiset GoString) = p.g.nodeNames →
    ∀ s, p.g.subnetOwner nodes s ≠ some x
  edges : ∀ e ∈ p.g.edges, e.src ≠ x ∧ e.dst ≠ x
  endpoint : p.endpointOf x = []
  inner : p.innerAddrOf x = none
  underlay : p.underlayAddrOf x = none
  /-- The key learned from a Hello. -/
  key : p.pubKeys.get? x = none
  peer : ∀ o : IterOrder, o.Of p.g → ∀ q ∈ (buildState fs paths l p o).peers, q.name ≠ x

/-- Every other node is as it was, up to its edge to this one. -/
structure OthersKept (p p' : Plane) : Prop where
  node : ∀ y, y ≠ x → p'.g.nodes.get? y = p.g.nodes.get? y
  edge : ∀ y z, y ≠ x → z ≠ x → p'.g.edge? y z = p.g.edge? y z
  endpoint : ∀ y, y ≠ x → p'.endpointOf y = p.endpointOf y
  inner : ∀ y, y ≠ x → p'.innerAddrOf y = p.innerAddrOf y
  underlay : ∀ y, y ≠ x → p'.underlayAddrOf y = p.underlayAddrOf y
  key : ∀ y, y ≠ x → p'.pubKeys.get? y = p.pubKeys.get? y

/--
What the tables must be for the node to be gone, and stay gone. A plane can be asked
about the node in many ways, but it is only in these that it can hold something.
-/
structure Cleared (p : Plane) : Prop where
  inv : p.g.Inv
  subnets : p.g.nodeSubnets x = ∅
  edges : ∀ y, p.g.edge? x y = none
  endpoint : p.endpoints.get? x = none
  inner : p.inners.get? x = none
  underlay : p.underlays.get? x = none
  key : p.pubKeys.get? x = none
  /-- The node would not become a peer, because it is not in the graph or otherwise. -/
  peer : p.g.hasNode x = false ∨ x = l.nodeName ∨ hostKey fs paths x = none

end

variable {fs : FileSystem} {paths : Paths} {l : Loaded} {x : GoString}

/-! ## From the tables to the answers -/

/-- Whoever `AllSubnets` names owns the subnet. -/
theorem mem_of_allSubnets {o : IterOrder} {s y : GoString}
    (h : (Control.allSubnets o).get? s = some y) : y ∈ o.nodes ∧ s ∈ o.subnets y := by
  have inner : ∀ (name : GoString) (subs : List GoString) (out : GoMap GoString GoString),
      (subs.foldl (fun out s => out.set s name) out).get? s = some y →
      (y = name ∧ s ∈ subs) ∨ out.get? s = some y := by
    intro name subs
    induction subs with
    | nil => exact fun out hget => .inr hget
    | cons t subs ih =>
        intro out hget
        rcases ih _ hget with ⟨hy, hs⟩ | hget
        · exact .inl ⟨hy, List.mem_cons_of_mem t hs⟩
        · rw [GoMap.get?_set] at hget
          split at hget
          · rename_i heq
            exact .inl ⟨(Option.some.inj hget).symm, heq ▸ List.mem_cons_self⟩
          · exact .inr hget
  have outer : ∀ (nodes : List GoString) (out : GoMap GoString GoString),
      (nodes.foldl (fun out name => (o.subnets name).foldl (fun out s => out.set s name) out)
        out).get? s = some y →
      (y ∈ nodes ∧ s ∈ o.subnets y) ∨ out.get? s = some y := by
    intro nodes
    induction nodes with
    | nil => exact fun out hget => .inr hget
    | cons name nodes ih =>
        intro out hget
        rcases ih _ hget with ⟨hy, hs⟩ | hget
        · exact .inl ⟨List.mem_cons_of_mem name hy, hs⟩
        · rcases inner name _ _ hget with ⟨rfl, hs⟩ | hget
          · exact .inl ⟨List.mem_cons_self, hs⟩
          · exact .inr hget
  rcases outer o.nodes .empty h with hmem | hempty
  · exact hmem
  · rw [GoMap.get?_empty] at hempty
    cases hempty

theorem Cleared.gone {p : Plane} (h : Cleared fs paths l x p) : Gone fs paths l x p where
  subnets := h.subnets
  allSubnets := by
    intro o ho s hs
    obtain ⟨hx, hmem⟩ := mem_of_allSubnets hs
    rw [mem_subnets ho hx, h.subnets] at hmem
    exact absurd hmem (Finset.notMem_empty s)
  subnetOwner := by
    intro nodes _ s hs
    unfold Graph.subnetOwner at hs
    have hmem : s ∈ p.g.nodeSubnets x := by simpa using List.find?_some hs
    rw [h.subnets] at hmem
    exact absurd hmem (Finset.notMem_empty s)
  edges := by
    intro e he
    have hedge := (Graph.mem_edges_iff h.inv).mp he
    constructor
    · rintro rfl
      rw [h.edges] at hedge
      cases hedge
    · rintro rfl
      have hrev := h.inv.sym _ _ _ hedge
      rw [h.edges] at hrev
      cases hrev
  endpoint := by
    unfold endpointOf
    rw [h.endpoint]
    rfl
  inner := h.inner
  underlay := h.underlay
  key := h.key
  peer := by
    intro o ho q hq hname
    obtain ⟨hnode, hl, hgives⟩ := (peer_iff ho).mp ⟨q, hq, hname, rfl⟩
    obtain ⟨es, hkey⟩ := hostKey_iff.mpr hgives
    rcases h.peer with hno | hself | hfile
    · rw [Graph.mem_nodeNames] at hnode
      exact absurd hnode (by rw [show (p.g.nodes.get? x).isSome = false from hno]; simp)
    · exact hl hself
    · rw [hfile] at hkey
      cases hkey

/-! ## Cleared tables stay cleared -/

/-- Whether the node is in the graph is not for other facts to say. -/
theorem hasNode_enact {p : Plane} {f : Fact} (hf : ¬ f.ReAdds x) :
    (p.enact f).g.hasNode x = p.g.hasNode x := by
  cases f with
  | nothing => rfl
  | node h =>
      rw [Plane.enact, applyAddNode_eq]
      exact congrArg Option.isSome (Graph.nodes_ensureNode_ne _ hf)
  | drop name => exact congrArg (fun m => (m.get? x).isSome) (Graph.nodes_delEdges _ _)
  | edge a b w =>
      cases w with
      | none => exact congrArg (fun m => (m.get? x).isSome) (Graph.nodes_delEdge _ _ _)
      | some w =>
          obtain ⟨ha, hb⟩ := not_or.mp hf
          exact congrArg Option.isSome (Graph.nodes_addEdge_ne _ _ ha hb)
  | subnet o s present =>
      cases present with
      | true => exact congrArg Option.isSome (Graph.nodes_addSubnet_ne _ s hf)
      | false => exact Graph.hasNode_delSubnet _ _ _ _

theorem nodeSubnets_enact {p : Plane} {f : Fact} (hf : ¬ f.ReAdds x) :
    (p.enact f).g.nodeSubnets x ⊆ p.g.nodeSubnets x := by
  cases f with
  | nothing => exact subset_rfl
  | node h =>
      rw [Plane.enact, applyAddNode_eq]
      exact (Graph.nodeSubnets_ensureNode _ _ _).subset
  | drop name => exact (Graph.nodeSubnets_delEdges _ _ _).subset
  | edge a b w =>
      cases w with
      | none => exact (Graph.nodeSubnets_delEdge _ _ _ _).subset
      | some w => exact (Graph.nodeSubnets_addEdge _ _ _).subset
  | subnet o s present =>
      cases present with
      | true =>
          refine ((Graph.nodeSubnets_addSubnet _ _ _ _).trans ?_).subset
          exact if_neg (Ne.symm hf)
      | false =>
          refine (Graph.nodeSubnets_delSubnet _ _ _ _).subset.trans ?_
          split
          · exact Finset.erase_subset _ _
          · exact subset_rfl

theorem edge?_enact {p : Plane} (h : p.g.Inv) {f : Fact} (hf : ¬ f.ReAdds x) {y : GoString}
    (hy : p.g.edge? x y = none) : (p.enact f).g.edge? x y = none := by
  cases f with
  | nothing => exact hy
  | node hl =>
      rw [Plane.enact, applyAddNode_eq]
      exact (Graph.edge?_ensureNode h _ _ _).trans hy
  | drop name =>
      refine (Graph.edge?_delIncident h name x y).trans ?_
      rw [hy, ite_self]
  | edge a b w =>
      cases w with
      | none =>
          refine (Graph.edge?_delEdge p.g a b x y).trans ?_
          rw [hy, ite_self]
      | some w =>
          obtain ⟨ha, hb⟩ := not_or.mp hf
          refine (Graph.edge?_addEdge h _ x y).trans ?_
          rw [if_neg, hy]
          rintro (⟨rfl, -⟩ | ⟨rfl, -⟩)
          · exact ha rfl
          · exact hb rfl
  | subnet o s present =>
      cases present with
      | true =>
          refine (Graph.edge?_addSubnet _ _ _ _ _).trans ?_
          rw [Graph.edge?_ensureNode h, hy]
      | false => exact (Graph.edge?_delSubnet _ _ _ _ _).trans hy

/-- What the Hello of the node has taught does not come back either. -/
theorem tables_enact {p : Plane} {f : Fact} (hf : ¬ f.ReAdds x) :
    (p.endpoints.get? x = none → (p.enact f).endpoints.get? x = none)
      ∧ (p.inners.get? x = none → (p.enact f).inners.get? x = none)
      ∧ (p.underlays.get? x = none → (p.enact f).underlays.get? x = none)
      ∧ (p.pubKeys.get? x = none → (p.enact f).pubKeys.get? x = none) := by
  cases f with
  | nothing => exact ⟨id, id, id, id⟩
  | node h =>
      have hset : ∀ {V : Type} (m : GoMap GoString V) (v : V), m.get? x = none →
          (m.set h.name v).get? x = none := by
        intro V m v hm
        rw [GoMap.get?_set_ne _ _ (Ne.symm hf), hm]
      rw [Plane.enact, applyAddNode_eq]
      -- a table is written under the name of the Hello, or not at all
      refine ⟨?_, ?_, ?_, ?_⟩ <;> dsimp only <;> split
      all_goals first | exact hset _ _ | exact id
  | drop name =>
      have hdel : ∀ {V : Type} (m : GoMap GoString V), m.get? x = none →
          (m.delete name).get? x = none := by
        intro V m hm
        rw [GoMap.get?_delete, hm, ite_self]
      exact ⟨hdel _, hdel _, hdel _, hdel _⟩
  | edge a b w => cases w <;> exact ⟨id, id, id, id⟩
  | subnet o s present => cases present <;> exact ⟨id, id, id, id⟩

theorem Cleared.enact {p : Plane} (h : Cleared fs paths l x p) {f : Fact} (hf : ¬ f.ReAdds x) :
    Cleared fs paths l x (p.enact f) where
  inv := inv_enact h.inv f
  subnets := Finset.subset_empty.mp (h.subnets ▸ nodeSubnets_enact hf)
  edges := fun y => edge?_enact h.inv hf (h.edges y)
  endpoint := (tables_enact hf).1 h.endpoint
  inner := (tables_enact hf).2.1 h.inner
  underlay := (tables_enact hf).2.2.1 h.underlay
  key := (tables_enact hf).2.2.2 h.key
  peer := h.peer.imp_left (hasNode_enact hf).trans

/-- **What is cleared stays cleared until the node is added again.** -/
theorem Cleared.since {p q : Plane} (h : Cleared fs paths l x p) (hq : Since x p q) :
    Cleared fs paths l x q := by
  induction hq with
  | here => exact h
  | setSigner priv _ ih => exact { ih with }
  | setVerifier f _ ih => exact { ih with }
  | claim id ts _ hc ih =>
      rw [claim_eq] at hc
      split at hc
      · cases hc
        exact { ih with }
      · cases hc
  | store env _ ih => exact { ih with }
  | apply env _ hf ih =>
      rw [apply_eq_enact]
      exact ih.enact hf

/-! ## The step of a `del_node` -/

/-- What an accepted `del_node` does. -/
theorem receive_drop [Ed25519] {p p' : Plane} {env : Envelope}
    (hrecv : p.receive env = .ok (p', some env)) (hfact : env.fact = .drop x) :
    p' = { p.applyDelNode { name := x } with seen := p.seen.set env.id env.ts } := by
  rw [receive_eq] at hrecv
  split at hrecv
  · rename_i hv
    obtain ⟨hp, hnews⟩ := Prod.mk.inj (Except.ok.inj hrecv)
    split at hnews
    · rename_i hn
      rw [← hp, afterReceive_of_verify hv, if_pos hn, apply_eq_enact, hfact]
      rfl
    · cases hnews
  · cases hrecv

/-- Everything but the node and its subnets is cleared. -/
theorem cleared_applyDelNode {p : Plane} (h : p.g.Inv) (hsubnets : p.g.nodeSubnets x = ∅)
    (hpeer : p.g.hasNode x = false ∨ x = l.nodeName ∨ hostKey fs paths x = none) :
    Cleared fs paths l x (p.applyDelNode { name := x }) := by
  have hdel : ∀ {V : Type} (m : GoMap GoString V), (m.delete x).get? x = none := by
    intro V m
    rw [GoMap.get?_delete, if_pos rfl]
  have hnodes : (p.applyDelNode { name := x }).g.nodes = p.g.nodes := Graph.nodes_delEdges _ _
  refine ⟨Graph.inv_delEdges h _, ?_, ?_, hdel _, hdel _, hdel _, hdel _, ?_⟩
  · exact (Graph.nodeSubnets_delEdges _ _ _).trans hsubnets
  · intro y
    exact (Graph.edge?_delIncident h x x y).trans (if_pos (.inl rfl))
  · unfold Graph.hasNode at hpeer ⊢
    rw [hnodes]
    exact hpeer

/-- The other nodes keep what they have. -/
theorem othersKept_applyDelNode {p : Plane} (h : p.g.Inv) :
    OthersKept x p (p.applyDelNode { name := x }) := by
  have hdel : ∀ {V : Type} (m : GoMap GoString V) (y : GoString), y ≠ x →
      (m.delete x).get? y = m.get? y := by
    intro V m y hy
    rw [GoMap.get?_delete, if_neg hy]
  refine ⟨?_, ?_, ?_, fun y => hdel _ y, fun y => hdel _ y, fun y => hdel _ y⟩
  · intro y _
    exact congrArg (·.get? y) (Graph.nodes_delEdges _ _)
  · intro y z hy hz
    exact (Graph.edge?_delIncident h x y z).trans (if_neg (not_or.mpr ⟨hy, hz⟩))
  · intro y hy
    unfold endpointOf
    exact congrArg (Option.getD · []) (hdel p.endpoints y hy)

/-- There is an order to go through a graph in. -/
theorem exists_order (g : Graph) : ∃ o : IterOrder, o.Of g :=
  ⟨⟨g.nodeNames.toList, fun y => (g.nodeSubnets y).toList⟩, Multiset.coe_toList _,
    fun _ _ => Finset.coe_toList _⟩

/-- A node that is gone owned nothing and was no peer. -/
theorem Gone.of_applyDelNode {p : Plane} (h : Gone fs paths l x (p.applyDelNode { name := x })) :
    p.g.nodeSubnets x = ∅
      ∧ (p.g.hasNode x = false ∨ x = l.nodeName ∨ hostKey fs paths x = none) := by
  have hnodes : (p.applyDelNode { name := x }).g.nodes = p.g.nodes := Graph.nodes_delEdges _ _
  refine ⟨(Graph.nodeSubnets_delEdges _ _ _).symm.trans h.subnets, ?_⟩
  by_contra hcon
  obtain ⟨hnode, hself, hfile⟩ := by simpa only [not_or] using hcon
  obtain ⟨o, ho⟩ := exists_order (p.applyDelNode { name := x }).g
  obtain ⟨⟨es, k⟩, hk⟩ := Option.ne_none_iff_exists'.mp hfile
  have hmem : x ∈ (p.applyDelNode { name := x }).g.nodeNames := by
    rw [Graph.mem_nodeNames, hnodes]
    exact Bool.not_eq_false _ ▸ hnode
  obtain ⟨q, hq, hname, -⟩ := (peer_iff ho).mpr ⟨hmem, hself, hostKey_iff.mp ⟨es, hk⟩⟩
  exact h.peer o ho q hq hname

/--
**A `del_node` leaves nothing of the node behind, until it is added again, exactly
when the node owned no subnet and would not have been a peer.**
-/
theorem del_node_purges_iff [Ed25519] (fs : FileSystem) (paths : Paths) (l : Loaded)
    {p p' : Plane} {env : Envelope} {x : GoString} (hp : Reachable p)
    (hrecv : p.receive env = .ok (p', some env)) (hfact : env.fact = .drop x) :
    ((∀ q, Since x p' q → Gone fs paths l x q) ∧ OthersKept x p p')
      ↔ p.g.nodeSubnets x = ∅
        ∧ (p.g.hasNode x = false ∨ x = l.nodeName ∨ hostKey fs paths x = none) := by
  obtain rfl := receive_drop hrecv hfact
  constructor
  · rintro ⟨hgone, -⟩
    have h := hgone _ .here
    exact Gone.of_applyDelNode { h with }
  · rintro ⟨hsubnets, hpeer⟩
    have hcleared := cleared_applyDelNode hp.inv hsubnets hpeer
    have hstart : Cleared fs paths l x
        { p.applyDelNode { name := x } with seen := p.seen.set env.id env.ts } :=
      { hcleared with }
    have hkept := othersKept_applyDelNode (x := x) hp.inv
    exact ⟨fun q hq => (hstart.since hq).gone, { hkept with }⟩

section Sample

attribute [local instance] clearEd25519

/-- A `del_node` in which node `b` names itself. -/
def farewell : Envelope :=
  (samplePlane "b" 2).mint (helloID (str "b")) .delNode (Hello.marshal { name := str "b" }) 2

theorem farewell_fact : farewell.fact = .drop (str "b") := by
  have hvalid : toValidUTF8 (str "b") = str "b" := by decide
  show readFact .delNode (Hello.marshal { name := str "b" }) = _
  unfold readFact
  simp only [Hello.unmarshal_marshal, hvalid]
  rfl

/-- A plane that knows the key of `b` takes it, unless it has seen something newer. -/
theorem receive_farewell {p : Plane} (hv : p.verify farewell = true)
    (hn : Lib.Newer p.seen farewell.id farewell.ts) :
    ∃ p', p.receive farewell = .ok (p', some farewell)
      ∧ p'.g = (p.applyDelNode { name := str "b" }).g := by
  have hrecv : p.receive farewell = .ok (p.afterReceive farewell, some farewell) := by
    rw [receive_eq, if_pos hv, if_pos hn]
  exact ⟨_, hrecv, by rw [receive_drop hrecv farewell_fact]⟩

/-- Node `a` has the Hello of `b`. -/
def greeted : Plane := (samplePlane "a" 1).apply (helloOf "b" 2)

theorem reachable_greeted : greeted.Reachable := .apply _ (.new _ _ _)

/-- A node that has said nothing but its name is gone where it has no host file. -/
theorem del_node_purges_stranger :
    ∃ p', greeted.Reachable ∧ greeted.g.hasNode (str "b") = true
      ∧ greeted.receive farewell = .ok (p', some farewell) ∧ farewell.fact = .drop (str "b")
      ∧ (∀ q, Since (str "b") p' q →
          Gone (.ofFiles []) samplePaths (sampleLoaded .router) (str "b") q)
      ∧ OthersKept (str "b") greeted p' := by
  have hv : greeted.verify farewell = true := by decide +kernel
  have hn : Lib.Newer greeted.seen farewell.id farewell.ts := by decide +kernel
  have hnode : greeted.g.hasNode (str "b") = true := by decide +kernel
  have hsubnets : greeted.g.nodeSubnets (str "b") = ∅ := by decide +kernel
  have hfile : hostKey (.ofFiles []) samplePaths (str "b") = none := by decide +kernel
  obtain ⟨p', hrecv, -⟩ := receive_farewell hv hn
  exact ⟨p', reachable_greeted, hnode, hrecv, farewell_fact,
    (del_node_purges_iff (.ofFiles []) samplePaths (sampleLoaded .router) reachable_greeted hrecv
      farewell_fact).mpr ⟨hsubnets, .inr (.inr hfile)⟩⟩

/-- A node that has announced a subnet keeps it, and stays a peer that is sent its traffic. -/
theorem dropped_node_stays :
    ∃ p', rivals.Reachable ∧ rivals.receive farewell = .ok (p', some farewell)
      ∧ farewell.fact = .drop (str "b")
      ∧ p'.g.nodeSubnets (str "b") = {str "10.0.0.0/24"}
      ∧ p'.g.subnetOwner [str "b", str "c"] (str "10.0.0.0/24") = some (str "b")
      ∧ (rivalOrder ["b", "c"]).Of p'.g
      ∧ (∃ q ∈ (buildState rivalFiles samplePaths (sampleLoaded .router) p'
          (rivalOrder ["b", "c"])).peers, q.name = str "b")
      ∧ ¬ Gone rivalFiles samplePaths (sampleLoaded .router) (str "b") p' := by
  have hreach : rivals.Reachable := .afterReceive (.afterReceive (.new _ _ _) _) _
  have hv : rivals.verify farewell = true := by decide +kernel
  have hn : Lib.Newer rivals.seen farewell.id farewell.ts := by decide +kernel
  obtain ⟨p', hrecv, hg⟩ := receive_farewell hv hn
  have hsubnets : p'.g.nodeSubnets (str "b") = {str "10.0.0.0/24"} := by
    rw [hg]
    decide +kernel
  have howner : p'.g.subnetOwner [str "b", str "c"] (str "10.0.0.0/24") = some (str "b") := by
    rw [hg]
    decide +kernel
  have horder : (rivalOrder ["b", "c"]).Of p'.g := by
    rw [hg]
    decide +kernel
  have hkey : (hostKey rivalFiles samplePaths (str "b")).map Prod.snd = some (sampleWG 2) := by
    decide +kernel
  obtain ⟨⟨es, k⟩, hes, rfl⟩ := Option.map_eq_some_iff.mp hkey
  have hmem : str "b" ∈ p'.g.nodeNames := (mem_nodes horder).mp List.mem_cons_self
  have hother : str "b" ≠ (sampleLoaded .router).nodeName := by decide
  refine ⟨p', hreach, hrecv, farewell_fact, hsubnets, howner, horder, ?_, ?_⟩
  · obtain ⟨q, hq, hname, -⟩ := (peer_iff horder).mpr ⟨hmem, hother, hostKey_iff.mp ⟨es, hes⟩⟩
    exact ⟨q, hq, hname⟩
  · intro hgone
    exact Finset.singleton_ne_empty _ (hsubnets.symm.trans hgone.subnets)

end Sample

end Plane

end Gsnet.Gossip
