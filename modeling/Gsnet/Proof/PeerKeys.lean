import Gsnet.Lib.Machine
import Gsnet.Proof.Routing

/-!
# Which WireGuard keys become peers

A Hello carries the sender's WireGuard key, and a node that accepts it remembers
the endpoint, the addresses and the signing key of the sender, but not that key:
`buildState` takes it from the host file. So an accepted Hello puts its sender
among the nodes the loop visits, and what the loop makes of it is up to the host
file alone.
-/

namespace Gsnet.Daemon

open Go Config Gossip Dataplane Lib

/-! ## Runs -/

/-- A plane with the `Receive` calls under way, and the envelopes it has accepted. -/
structure Running where
  plane : Plane
  /-- Verified and not yet claimed. -/
  verified : List Envelope
  /-- Claimed and not yet applied. -/
  claimed : List Envelope
  /-- Applied, oldest first. -/
  accepted : List Envelope

inductive RunStep where
  | verify (env : Envelope)
  | claim (env : Envelope)
  | apply (env : Envelope)
  | announce (a : Announcement) (ts : Int64)

namespace Running

def start (p : Plane) : Running := ⟨p, [], [], []⟩

/-- One step of one of the calls. Anything may arrive at any time. -/
def act [Ed25519] (st : Running) : RunStep → Option Running
  | .verify env =>
    if st.plane.verify env = true then some { st with verified := env :: st.verified } else none
  | .claim env =>
    if env ∈ st.verified then
      match st.plane.claim env.id env.ts with
      | some p => some ⟨p, st.verified.erase env, env :: st.claimed, st.accepted⟩
      | none => some { st with verified := st.verified.erase env }
    else none
  | .apply env =>
    if env ∈ st.claimed then
      some ⟨st.plane.apply env, st.verified, st.claimed.erase env, st.accepted ++ [env]⟩
    else none
  | .announce a ts => some { st with plane := (st.plane.announce a ts).1 }

/-- The senders of the accepted Hellos are nodes of the graph. -/
def HellosKnown (st : Running) : Prop :=
  ∀ env ∈ st.accepted, ∀ h, env.fact = .node h → (st.plane.g.nodes.get? h.name).isSome

theorem hellosKnown_step [Ed25519] {st st' : Running} {a : RunStep} (h : st.HellosKnown)
    (hact : st.act a = some st') : st'.HellosKnown := by
  cases a with
  | verify env =>
      simp only [act] at hact
      split at hact
      · cases hact; exact h
      · cases hact
  | claim env =>
      simp only [act] at hact
      split at hact
      · rw [Plane.claim_eq] at hact
        split at hact
        · rename_i hc
          split at hc
          · cases hc; cases hact; exact h
          · cases hc
        · cases hact; exact h
      · cases hact
  | apply env =>
      simp only [act] at hact
      split at hact
      · cases hact
        intro e he hl hf
        rcases List.mem_append.mp he with he | he
        · exact Plane.nodes_apply_mono (h e he hl hf) env
        · -- the Hello just applied
          rw [List.mem_singleton.mp he] at hf
          rw [Plane.apply_eq_enact, hf, Plane.enact, Plane.applyAddNode_eq]
          exact Graph.ensureNode_isSome _ _
      · cases hact
  | announce a ts =>
      simp only [act, Option.some.injEq] at hact
      subst hact
      intro e he hl hf
      have hstore : ((st.plane.store (st.plane.announce a ts).2).g.nodes.get? hl.name).isSome :=
        h e he hl hf
      show ((st.plane.announce a ts).1.g.nodes.get? hl.name).isSome
      rw [Plane.announce_plane]
      exact Plane.nodes_apply_mono hstore _

/--
The newest accepted Hello a node sent about itself carries that key, and the node
has not been deleted since.
-/
def GossipedKey (st : Running) (x : GoString) (k : WGKey) : Prop :=
  ∃ before env after h, st.accepted = before ++ env :: after
    ∧ env.origin = x ∧ env.fact = .node h ∧ h.name = x ∧ parseKey h.wgPublic = some k
    ∧ (∀ e ∈ st.accepted, ∀ h', e.origin = x → e.fact = .node h' → h'.name = x → e.ts ≤ env.ts)
    ∧ ∀ e ∈ after, e.fact ≠ .drop x

end Running

/-! ## The peers of the desired state -/

variable (fs : FileSystem) (paths : Paths) (l : Loaded)

/-- The host file of a node can be read, and the first key it gives is that one. -/
def HostFileGives (x : GoString) (k : WGKey) : Prop :=
  ∃ es v, parseFile fs (paths.hostFile x) = .ok es ∧ es.getFirst (str "WGPublicKey") = some v
    ∧ parseKey v = some k

variable {fs paths l}

theorem hostKey_iff {x : GoString} {k : WGKey} :
    (∃ es, hostKey fs paths x = some (es, k)) ↔ HostFileGives fs paths x k := by
  unfold hostKey HostFileGives
  cases parseFile fs (paths.hostFile x) with
  | error e => simp
  | ok es =>
      simp only [Option.bind_eq_some_iff, Option.map_eq_some_iff, Prod.mk.injEq, Except.ok.injEq]
      constructor
      · rintro ⟨es', v, hv, k', hk, rfl, rfl⟩
        exact ⟨es, v, rfl, hv, hk⟩
      · rintro ⟨es', v, rfl, hv, hk⟩
        exact ⟨es, v, hv, k, hk, rfl, rfl⟩

/-- **Which peers the desired state has.** -/
theorem peer_iff {p : Plane} {o : IterOrder} (ho : o.Of p.g) {x : GoString} {k : WGKey} :
    (∃ q ∈ (buildState fs paths l p o).peers, q.name = x ∧ q.wgPublic = k)
      ↔ x ∈ p.g.nodeNames ∧ x ≠ l.nodeName ∧ HostFileGives fs paths x k := by
  rw [← hostKey_iff]
  constructor
  · rintro ⟨q, hq, rfl, rfl⟩
    obtain ⟨y, hy, hb⟩ := mem_peers.mp hq
    obtain ⟨hl, es, k, hk, rfl⟩ := buildPeer_eq_some.mp hb
    exact ⟨(mem_nodes ho).mp hy, hl, es, hk⟩
  · rintro ⟨hx, hl, es, hk⟩
    have hb := (@buildPeer_eq_some fs paths l p o x _).mpr ⟨hl, es, k, hk, rfl⟩
    exact ⟨_, mem_peers.mpr ⟨x, (mem_nodes ho).mpr hx, hb⟩, rfl, rfl⟩

/--
**A gossiped key becomes a peer exactly when the host file gives the same key.**
-/
theorem gossiped_key_becomes_peer_iff [Ed25519] {name : GoString} {priv : Option Ed25519Private}
    {lookup : Option (GoString → Option Ed25519Public)} {st : Running}
    (hrun : Reached Running.act (fun _ _ => True) (.start (newPlane name priv lookup)) st)
    {x : GoString} {k : WGKey} (hx : x ≠ l.nodeName) (hk : st.GossipedKey x k)
    {o : IterOrder} (ho : o.Of st.plane.g) :
    (∃ q ∈ (buildState fs paths l st.plane o).peers, q.name = x ∧ q.wgPublic = k)
      ↔ HostFileGives fs paths x k := by
  have hknown : st.HellosKnown :=
    hrun.invariant (fun _ he => absurd he List.not_mem_nil)
      (fun _ _ _ h _ hact => Running.hellosKnown_step h hact)
  obtain ⟨before, env, after, h, hlog, -, hfact, hname, -⟩ := hk
  have hnode : x ∈ st.plane.g.nodeNames := by
    rw [Graph.mem_nodeNames, ← hname]
    exact hknown env (by simp [hlog]) h hfact
  rw [peer_iff ho]
  exact ⟨fun h => h.2.2, fun h => ⟨hnode, hx, h⟩⟩

section Sample

attribute [local instance] clearEd25519

/-- The Hello of a node, with its WireGuard key. -/
def helloOf (name : String) (b : UInt8) : Envelope :=
  ((samplePlane name b).announceHello { name := str name, wgPublic := (sampleWG b).string } 1).2

def orderOfB : IterOrder := ⟨[str "b"], fun _ => []⟩

/-- Node `a` receives it and nothing else. -/
theorem exists_helloReceived :
    ∃ st, Reached Running.act (fun _ _ => True) (.start (samplePlane "a" 1)) st
      ∧ st.accepted = [helloOf "b" 2] ∧ orderOfB.Of st.plane.g :=
  exists_reached_of_runActs
    [.verify (helloOf "b" 2), .claim (helloOf "b" 2), .apply (helloOf "b" 2)]
    (by decide +kernel)

theorem gossipedKey_helloOf {st : Running} (h : st.accepted = [helloOf "b" 2]) :
    st.GossipedKey (str "b") (sampleWG 2) := by
  refine ⟨[], helloOf "b" 2, [], { name := str "b", wgPublic := (sampleWG 2).string }, h,
    by decide +kernel, by decide +kernel, rfl, by decide +kernel, ?_, by simp⟩
  intro e he _ _ _ _
  rw [h, List.mem_singleton] at he
  rw [he]

theorem gossiped_key_becomes_peer_known :
    ∃ st, Reached Running.act (fun _ _ => True) (.start (samplePlane "a" 1)) st
      ∧ st.GossipedKey (str "b") (sampleWG 2)
      ∧ ∃ q ∈ (buildState (.ofFiles [sampleHostFile "b" 2]) samplePaths (sampleLoaded .switch)
          st.plane orderOfB).peers, q.name = str "b" ∧ q.wgPublic = sampleWG 2 := by
  obtain ⟨st, hrun, haccepted, ho⟩ := exists_helloReceived
  have hk := gossipedKey_helloOf haccepted
  exact ⟨st, hrun, hk, (gossiped_key_becomes_peer_iff hrun (by decide) hk ho).mpr
    ⟨[⟨str "WGPublicKey", (sampleWG 2).string⟩], (sampleWG 2).string, by decide +kernel,
      by decide +kernel, by decide +kernel⟩⟩

/-- Without a host file the key is known to the network and used by nobody. -/
theorem gossiped_key_ignored :
    ∃ st, Reached Running.act (fun _ _ => True) (.start (samplePlane "a" 1)) st
      ∧ st.GossipedKey (str "b") (sampleWG 2) ∧ orderOfB.Of st.plane.g
      ∧ (buildState (.ofFiles []) samplePaths (sampleLoaded .switch) st.plane orderOfB).peers
          = [] := by
  obtain ⟨st, hrun, haccepted, ho⟩ := exists_helloReceived
  have hnone : hostKey (.ofFiles []) samplePaths (str "b") = none := by decide +kernel
  refine ⟨st, hrun, gossipedKey_helloOf haccepted, ho, ?_⟩
  rw [List.eq_nil_iff_forall_not_mem]
  intro q hq
  obtain ⟨x, hx, hb⟩ := mem_peers.mp hq
  rw [List.mem_singleton.mp hx] at hb
  simp [buildPeer, hnone] at hb

end Sample

end Gsnet.Daemon
