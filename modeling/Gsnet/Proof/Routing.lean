import Gsnet.Daemon
import Gsnet.Gossip.Announce
import Gsnet.Proof.WireGuard

/-!
# The routing table and the order of iteration

`buildState` lists the peers in the order in which Go happens to visit a map, and
WireGuard gives a prefix to the last peer that lists it. The order is invisible
exactly when it never decides: when no two peers with different keys list the
same prefix. Nothing in the program makes that so. Every node may announce every
subnet, and an underlay address is whatever a Hello says.
-/

namespace Gsnet.Daemon

open Go Config Gossip Dataplane

variable (fs : FileSystem) (paths : Paths) (l : Loaded) (p : Plane)

/-! ## What a node lists, whatever the order -/

/-- The node becomes a peer with that key, and lists the prefix. -/
def Lists (x : GoString) (k : WGKey) (n : Prefix) : Prop :=
  x ≠ l.nodeName ∧ ∃ es, hostKey fs paths x = some (es, k)
    ∧ if l.mode = .router then ∃ s ∈ p.g.nodeSubnets x, announcedPrefix s = some n
      else ∃ a, underlayFor p es x = some a ∧ n = prefixFrom a a.bitLen

variable {fs paths l p}

theorem mem_nodes {o : IterOrder} (ho : o.Of p.g) {x : GoString} :
    x ∈ o.nodes ↔ x ∈ p.g.nodeNames := by
  rw [← ho.1, Multiset.mem_coe]

theorem mem_subnets {o : IterOrder} (ho : o.Of p.g) {x s : GoString} (hx : x ∈ o.nodes) :
    s ∈ o.subnets x ↔ s ∈ p.g.nodeSubnets x := by
  rw [← Finset.mem_val, ← ho.2 x hx, Multiset.mem_coe]

theorem mem_allowedIPsFor {o : IterOrder} (ho : o.Of p.g) {x : GoString} (hx : x ∈ o.nodes)
    (underlay : Option Addr) (n : Prefix) :
    n ∈ allowedIPsFor o l.mode x underlay
      ↔ if l.mode = .router then ∃ s ∈ p.g.nodeSubnets x, announcedPrefix s = some n
        else ∃ a, underlay = some a ∧ n = prefixFrom a a.bitLen := by
  unfold allowedIPsFor
  by_cases hm : l.mode = .router
  · rw [if_neg (by simp [hm]), if_pos hm, List.mem_filterMap]
    simp only [mem_subnets ho hx]
  · rw [if_pos hm, if_neg hm, Option.mem_toList, Option.map_eq_some_iff]
    constructor
    · rintro ⟨a, ha, rfl⟩
      exact ⟨a, ha, rfl⟩
    · rintro ⟨a, ha, rfl⟩
      exact ⟨a, ha, rfl⟩

/-- **The peer a round of the loop builds.** -/
theorem buildPeer_eq_some {o : IterOrder} {x : GoString} {q : Peer} :
    buildPeer fs paths l p o x = some q
      ↔ x ≠ l.nodeName ∧ ∃ es k, hostKey fs paths x = some (es, k)
        ∧ q = { name := x
                wgPublic := k
                endpoint := endpointFor l p es x
                innerAddr := innerFor p es x
                underlayAddr := underlayFor p es x
                allowedIPs := allowedIPsFor o l.mode x (underlayFor p es x) } := by
  unfold buildPeer
  by_cases hl : x = l.nodeName
  · simp [hl]
  · rw [if_neg hl, and_iff_right hl, Option.map_eq_some_iff, Prod.exists]
    simp only [eq_comm]

/-- **What a round of the loop contributes to the routing table.** -/
theorem buildPeer_lists {o : IterOrder} (ho : o.Of p.g) {x : GoString} (hx : x ∈ o.nodes)
    (k : WGKey) (n : Prefix) :
    (∃ q, buildPeer fs paths l p o x = some q ∧ q.wgPublic = k ∧ n ∈ q.allowedIPs)
      ↔ Lists fs paths l p x k n := by
  constructor
  · rintro ⟨q, hq, rfl, hn⟩
    obtain ⟨hl, es, k, hk, rfl⟩ := buildPeer_eq_some.mp hq
    exact ⟨hl, es, hk, (mem_allowedIPsFor ho hx _ n).mp hn⟩
  · rintro ⟨hl, es, hk, hn⟩
    exact ⟨_, buildPeer_eq_some.mpr ⟨hl, es, k, hk, rfl⟩, rfl,
      (mem_allowedIPsFor ho hx _ n).mpr hn⟩

theorem mem_peers {o : IterOrder} {q : Peer} :
    q ∈ (buildState fs paths l p o).peers ↔ ∃ x ∈ o.nodes, buildPeer fs paths l p o x = some q :=
  List.mem_filterMap

/-- A prefix goes to a node that lists it. -/
theorem lists_of_cryptokeyRoute {o : IterOrder} (ho : o.Of p.g) {m : IPNet} {k : WGKey}
    (hk : cryptokeyRoute (buildState fs paths l p o).peers m = some k) :
    ∃ n, m = prefixToIPNet n ∧ ∃ x ∈ p.g.nodeNames, Lists fs paths l p x k n := by
  obtain ⟨q, hq, hqk, hm⟩ := cryptokeyRoute_mem hk
  obtain ⟨x, hx, hb⟩ := mem_peers.mp hq
  obtain ⟨n, hn, rfl⟩ := List.mem_map.mp hm
  exact ⟨n, rfl, x, (mem_nodes ho).mp hx, (buildPeer_lists ho hx k n).mp ⟨q, hb, hqk, hn⟩⟩

/-- What some node lists goes to some node. -/
theorem cryptokeyRoute_of_lists {o : IterOrder} (ho : o.Of p.g) {x : GoString}
    (hx : x ∈ p.g.nodeNames) {k : WGKey} {n : Prefix} (hk : Lists fs paths l p x k n) :
    ∃ k', cryptokeyRoute (buildState fs paths l p o).peers (prefixToIPNet n) = some k' := by
  have hx' := (mem_nodes ho).mpr hx
  obtain ⟨q, hb, -, hn⟩ := (buildPeer_lists ho hx' k n).mpr hk
  cases hr : cryptokeyRoute (buildState fs paths l p o).peers (prefixToIPNet n) with
  | some k' => exact ⟨k', rfl⟩
  | none =>
      exact absurd (List.mem_map_of_mem hn) (cryptokeyRoute_none hr q (mem_peers.mpr ⟨x, hx', hb⟩))

/-! ## Orders -/

/-- There is an order in which a given node comes last. -/
theorem exists_order_last (g : Graph) {x : GoString} (hx : x ∈ g.nodeNames) :
    ∃ (o : IterOrder) (rest : List GoString), o.Of g ∧ o.nodes = rest ++ [x] := by
  obtain ⟨rest, hrest⟩ := Multiset.exists_cons_of_mem hx
  refine ⟨⟨rest.toList ++ [x], fun y => (g.nodeSubnets y).toList⟩, rest.toList, ⟨?_, ?_⟩, rfl⟩
  · show ((rest.toList ++ [x] : List GoString) : Multiset GoString) = _
    rw [hrest, ← Multiset.coe_add, Multiset.coe_toList, Multiset.coe_singleton, add_comm,
      Multiset.singleton_add]
  · intro y _
    exact Finset.coe_toList _

/-- Whoever comes last has what it lists. -/
theorem cryptokeyRoute_last {o : IterOrder} (ho : o.Of p.g) {rest : List GoString} {x : GoString}
    (hlast : o.nodes = rest ++ [x]) {k : WGKey} {n : Prefix} (h : Lists fs paths l p x k n) :
    cryptokeyRoute (buildState fs paths l p o).peers (prefixToIPNet n) = some k := by
  obtain ⟨q, hb, hk, hn⟩ := (buildPeer_lists ho (by simp [hlast]) k n).mpr h
  have hpeers : (buildState fs paths l p o).peers
      = rest.filterMap (buildPeer fs paths l p o) ++ [q] := by
    show o.nodes.filterMap _ = _
    rw [hlast, List.filterMap_append, List.filterMap_cons, hb, List.filterMap_nil]
  rw [hpeers, cryptokeyRoute_concat, if_pos (List.mem_map_of_mem hn), hk]

variable (fs paths l p)

/--
**Routing does not depend on the order of iteration exactly when no prefix is
listed under two keys.**
-/
theorem routing_order_independent_iff :
    (∀ o₁ o₂ : IterOrder, o₁.Of p.g → o₂.Of p.g →
        cryptokeyRoute (buildState fs paths l p o₁).peers
          = cryptokeyRoute (buildState fs paths l p o₂).peers)
      ↔ ∀ x ∈ p.g.nodeNames, ∀ y ∈ p.g.nodeNames, ∀ k k' n,
          Lists fs paths l p x k n → Lists fs paths l p y k' n → k = k' := by
  constructor
  · intro h x hx y hy k k' n hxn hyn
    -- let either of the two come last
    obtain ⟨o₁, rest₁, ho₁, hlast₁⟩ := exists_order_last p.g hx
    obtain ⟨o₂, rest₂, ho₂, hlast₂⟩ := exists_order_last p.g hy
    have heq := congrFun (h o₁ o₂ ho₁ ho₂) (prefixToIPNet n)
    rw [cryptokeyRoute_last ho₁ hlast₁ hxn, cryptokeyRoute_last ho₂ hlast₂ hyn] at heq
    exact Option.some.inj heq
  · intro h o₁ o₂ ho₁ ho₂
    -- under one order and the other a prefix goes to whoever lists it
    have hle : ∀ o o' : IterOrder, o.Of p.g → o'.Of p.g → ∀ m k,
        cryptokeyRoute (buildState fs paths l p o).peers m = some k →
        cryptokeyRoute (buildState fs paths l p o').peers m = some k := by
      intro o o' ho ho' m k hk
      obtain ⟨n, rfl, x, hx, hxk⟩ := lists_of_cryptokeyRoute ho hk
      obtain ⟨k', hk'⟩ := cryptokeyRoute_of_lists ho' hx hxk
      obtain ⟨n', hnn', y, hy, hyk⟩ := lists_of_cryptokeyRoute ho' hk'
      rw [← prefixToIPNet_injective hnn'] at hyk
      rw [hk', h y hy x hx k' k n hyk hxk]
    funext m
    exact Option.ext fun k => ⟨hle o₁ o₂ ho₁ ho₂ m k, hle o₂ o₁ ho₂ ho₁ m k⟩

section Sample

attribute [local instance] clearEd25519

/-- Nodes `b` and `c` both announce the same prefix, one of them with a weight. -/
def rivals : Plane :=
  ((samplePlane "a" 1).afterReceive
      ((samplePlane "b" 2).announceAddSubnet (str "10.0.0.0/24") 1).2).afterReceive
    ((samplePlane "c" 3).announceAddSubnet (str "10.0.0.0/24#5") 1).2

def rivalFiles : FileSystem := .ofFiles [sampleHostFile "b" 2, sampleHostFile "c" 3]

/-- The two nodes in this order. -/
def rivalOrder (nodes : List String) : IterOrder :=
  ⟨nodes.map str, fun x =>
    if x = str "b" then [str "10.0.0.0/24"] else if x = str "c" then [str "10.0.0.0/24#5"] else []⟩

theorem routing_depends_on_order :
    rivals.Reachable
      ∧ (hostKey rivalFiles samplePaths (str "b")).map Prod.snd = some (sampleWG 2)
      ∧ (hostKey rivalFiles samplePaths (str "c")).map Prod.snd = some (sampleWG 3)
      ∧ (rivalOrder ["b", "c"]).Of rivals.g ∧ (rivalOrder ["c", "b"]).Of rivals.g
      ∧ cryptokeyRoute (buildState rivalFiles samplePaths (sampleLoaded .router) rivals
            (rivalOrder ["b", "c"])).peers (prefixToIPNet ⟨.v4 0x0A000000, 24, rfl⟩)
          = some (sampleWG 3)
      ∧ cryptokeyRoute (buildState rivalFiles samplePaths (sampleLoaded .router) rivals
            (rivalOrder ["c", "b"])).peers (prefixToIPNet ⟨.v4 0x0A000000, 24, rfl⟩)
          = some (sampleWG 2) := by
  refine ⟨?_, by decide +kernel, by decide +kernel, by decide +kernel, by decide +kernel,
    by decide +kernel, by decide +kernel⟩
  exact .afterReceive (.afterReceive (.new _ _ _) _) _

end Sample

end Gsnet.Daemon
