import Gsnet.Go.NetipProof
import Gsnet.Dataplane.Linux

/-!
# The WireGuard device after a reconciliation

`configureWGPeers` folds additions, replacements and removals into one ordered
request. Each entry for a desired peer first gives up the prefixes the peer had
and then takes the ones it is to have, from whoever holds them; so what a later
entry leaves to an earlier one is exactly what it does not list itself, and the
removals at the end can only take from peers that are not desired. The routing
table that results is the one in which the last peer to list a prefix has it.
-/

namespace Gsnet.Dataplane

open Go

/-! ## One entry -/

namespace Device

/-- Prefixes given to a peer one after the other. -/
theorem addAllowedIPs_eq {d : Device} {k : WGKey} (h : d.hasPeer k = true) (ns : List IPNet) :
    (ns.foldl (·.addAllowedIP k) d).peers = d.peers
      ∧ ∀ n, (ns.foldl (·.addAllowedIP k) d).owner n = if n ∈ ns then some k else d.owner n := by
  induction ns generalizing d with
  | nil => exact ⟨rfl, fun n => by simp⟩
  | cons m ns ih =>
      have hadd : (d.addAllowedIP k m).peers = d.peers
          ∧ (d.addAllowedIP k m).owner = Function.update d.owner m (some k) := by
        unfold addAllowedIP
        rw [dif_pos h]
        exact ⟨rfl, rfl⟩
      have hk : (d.addAllowedIP k m).hasPeer k = true := by
        unfold hasPeer
        rw [hadd.1]
        exact h
      obtain ⟨hp, ho⟩ := ih hk
      refine ⟨by rw [List.foldl_cons, hp, hadd.1], fun n => ?_⟩
      rw [List.foldl_cons, ho n, hadd.2]
      by_cases hn : n ∈ ns
      · simp [hn]
      · by_cases hm : n = m
        · simp [hm]
        · simp [hn, hm]

variable (d : Device)

/-- The peer is there before its prefixes are given to it. -/
theorem configurePeer_eq (p : Peer) :
    (d.configurePeer (peerConfig p)).peers = (d.setPeer (peerConfig p)).peers
      ∧ ∀ n, (d.configurePeer (peerConfig p)).owner n
          = if n ∈ p.allowedIPs.map prefixToIPNet then some p.wgPublic
            else if d.owner n = some p.wgPublic then none else d.owner n := by
  have hset :
      ((d.setPeer (peerConfig p)).clearAllowedIPs p.wgPublic).hasPeer p.wgPublic = true := by
    simp [hasPeer, clearAllowedIPs, setPeer, peerConfig]
  exact addAllowedIPs_eq hset (p.allowedIPs.map prefixToIPNet)

/-- **What the entry for a desired peer does.** -/
theorem configurePeer_peerConfig (p : Peer) :
    (∀ k, (d.configurePeer (peerConfig p)).hasPeer k = (decide (k = p.wgPublic) || d.hasPeer k))
      ∧ ∀ n, (d.configurePeer (peerConfig p)).owner n
          = if n ∈ p.allowedIPs.map prefixToIPNet then some p.wgPublic
            else if d.owner n = some p.wgPublic then none else d.owner n := by
  obtain ⟨hpeers, howner⟩ := d.configurePeer_eq p
  refine ⟨fun k => ?_, howner⟩
  unfold hasPeer
  rw [hpeers]
  by_cases hk : k = p.wgPublic
  · simp [hk, setPeer, peerConfig]
  · simp [hk, setPeer, peerConfig, GoMap.get?_set_ne]

/-- **What a removal does.** -/
theorem configurePeer_remove (k : WGKey) :
    (∀ j, (d.configurePeer { publicKey := k, remove := true }).hasPeer j
        = (!decide (j = k) && d.hasPeer j))
      ∧ ∀ n, (d.configurePeer { publicKey := k, remove := true }).owner n
          = if d.owner n = some k then none else d.owner n := by
  refine ⟨fun j => ?_, fun n => rfl⟩
  show ((d.peers.delete k).get? j).isSome = _
  rw [GoMap.get?_delete]
  by_cases hj : j = k
  · simp [hj]
  · simp [hj, hasPeer]

/-- An entry that does not remove a peer leaves its session standing. -/
theorem lastHandshake_configurePeer {pc : PeerConfig} {k : WGKey} {v : Session}
    (hkeep : pc.remove = true → pc.publicKey ≠ k) (hv : d.peers.get? k = some v) :
    ∃ w, (d.configurePeer pc).peers.get? k = some w ∧ w.lastHandshake = v.lastHandshake := by
  unfold configurePeer
  split
  · rename_i hrem
    refine ⟨v, ?_, rfl⟩
    show (d.peers.delete pc.publicKey).get? k = some v
    rw [GoMap.get?_delete, if_neg (hkeep hrem).symm, hv]
  · have hpeers : ∀ (ns : List IPNet) (e : Device),
        (ns.foldl (·.addAllowedIP pc.publicKey) e).peers = e.peers := by
      intro ns
      induction ns with
      | nil => intro e; rfl
      | cons n ns ih =>
          intro e
          rw [List.foldl_cons, ih]
          unfold addAllowedIP
          split <;> rfl
    have hset : ∃ w, (d.setPeer pc).peers.get? k = some w ∧ w.lastHandshake = v.lastHandshake := by
      by_cases hk : k = pc.publicKey
      · subst hk
        exact ⟨_, GoMap.get?_set_self _ _ _, by simp [hv]⟩
      · refine ⟨v, ?_, rfl⟩
        show (GoMap.set _ pc.publicKey _).get? k = some v
        rw [GoMap.get?_set_ne _ _ hk, hv]
    simp only [hpeers]
    split
    · exact hset
    · exact hset

end Device

/-! ## The whole request -/

/-- The peer packets for a prefix go to: the last one of the list that lists it. -/
def cryptokeyRoute (peers : List Peer) (n : IPNet) : Option WGKey :=
  (peers.reverse.find? fun p => decide (n ∈ p.allowedIPs.map prefixToIPNet)).map Peer.wgPublic

theorem cryptokeyRoute_concat (peers : List Peer) (p : Peer) (n : IPNet) :
    cryptokeyRoute (peers ++ [p]) n
      = if n ∈ p.allowedIPs.map prefixToIPNet then some p.wgPublic else cryptokeyRoute peers n := by
  unfold cryptokeyRoute
  rw [List.reverse_append, List.reverse_singleton, List.singleton_append, List.find?_cons]
  by_cases h : n ∈ p.allowedIPs.map prefixToIPNet
  · simp only [h, decide_true, if_true, Option.map_some]
  · simp only [h, decide_false, if_false]

/-- A prefix goes to a peer that lists it. -/
theorem cryptokeyRoute_mem {peers : List Peer} {n : IPNet} {k : WGKey}
    (h : cryptokeyRoute peers n = some k) :
    ∃ p ∈ peers, p.wgPublic = k ∧ n ∈ p.allowedIPs.map prefixToIPNet := by
  unfold cryptokeyRoute at h
  obtain ⟨p, hp, rfl⟩ := Option.map_eq_some_iff.mp h
  refine ⟨p, List.mem_reverse.mp (List.mem_of_find?_eq_some hp), rfl, ?_⟩
  simpa using List.find?_some hp

theorem cryptokeyRoute_none {peers : List Peer} {n : IPNet} (h : cryptokeyRoute peers n = none) :
    ∀ p ∈ peers, n ∉ p.allowedIPs.map prefixToIPNet := by
  unfold cryptokeyRoute at h
  intro p hp
  have := List.find?_eq_none.mp (Option.map_eq_none_iff.mp h) p (List.mem_reverse.mpr hp)
  simpa using this

/-- The entries for the desired peers, in order. -/
theorem foldl_peerConfig (d : Device) {peers : List Peer}
    (hkeys : (peers.map Peer.wgPublic).Nodup) :
    (∀ k, ((peers.map peerConfig).foldl Device.configurePeer d).hasPeer k
        = (decide (k ∈ peers.map Peer.wgPublic) || d.hasPeer k))
      ∧ ∀ n, ((peers.map peerConfig).foldl Device.configurePeer d).owner n
          = (cryptokeyRoute peers n).or
            (if ∃ p ∈ peers, d.owner n = some p.wgPublic then none else d.owner n) := by
  induction peers using List.reverseRecOn with
  | nil => exact ⟨fun k => by simp, fun n => by simp [cryptokeyRoute]⟩
  | append_singleton peers p ih =>
      rw [List.map_append, List.nodup_append] at hkeys
      obtain ⟨hnodup, -, hfresh⟩ := hkeys
      have hp : p.wgPublic ∉ peers.map Peer.wgPublic := fun h =>
        hfresh _ h p.wgPublic (by simp) rfl
      obtain ⟨ihp, iho⟩ := ih hnodup
      generalize hd : (peers.map peerConfig).foldl Device.configurePeer d = d1 at ihp iho
      obtain ⟨hpeer, howner⟩ := d1.configurePeer_peerConfig p
      have hstep : ((peers ++ [p]).map peerConfig).foldl Device.configurePeer d
          = d1.configurePeer (peerConfig p) := by
        rw [List.map_append, List.foldl_append, hd]
        rfl
      rw [hstep]
      refine ⟨fun k => ?_, fun n => ?_⟩
      · rw [hpeer, ihp]
        by_cases hk : k = p.wgPublic
        · simp [hk]
        · simp [hk]
      · rw [howner, iho, cryptokeyRoute_concat]
        split
        · rfl
        · -- the peer can hold the prefix only from before, since no earlier entry is its own
          cases hr : cryptokeyRoute peers n with
          | some k =>
              obtain ⟨q, hq, hqk, -⟩ := cryptokeyRoute_mem hr
              have hne : k ≠ p.wgPublic := fun h => hp (h ▸ hqk ▸ List.mem_map_of_mem hq)
              simp [hne]
          | none =>
              by_cases hold : ∃ q ∈ peers, d.owner n = some q.wgPublic
              · simp [hold]
              · by_cases hown : d.owner n = some p.wgPublic
                · simp [hown]
                · simp [hold, hown]

/-- The removals. -/
theorem foldl_remove (d : Device) (ks : List WGKey) :
    (∀ k, ((ks.map fun k => ({ publicKey := k, remove := true } : PeerConfig)).foldl
        Device.configurePeer d).hasPeer k = (!decide (k ∈ ks) && d.hasPeer k))
      ∧ ∀ n, ((ks.map fun k => ({ publicKey := k, remove := true } : PeerConfig)).foldl
        Device.configurePeer d).owner n
          = if ∃ k ∈ ks, d.owner n = some k then none else d.owner n := by
  induction ks generalizing d with
  | nil => exact ⟨fun k => by simp, fun n => by simp⟩
  | cons j ks ih =>
      obtain ⟨hp, ho⟩ := d.configurePeer_remove j
      obtain ⟨ihp, iho⟩ := ih (d.configurePeer { publicKey := j, remove := true })
      refine ⟨fun k => ?_, fun n => ?_⟩
      · rw [List.map_cons, List.foldl_cons, ihp, hp]
        by_cases hk : k = j
        · simp [hk]
        · simp [hk]
      · rw [List.map_cons, List.foldl_cons, iho, ho]
        by_cases hj : d.owner n = some j
        · simp [hj]
        · simp [hj]

/-- The keys of the desired peers. -/
theorem desiredPeers_isNone (s : State) (k : WGKey) :
    ((desiredPeers s).get? k).isNone = !decide (k ∈ s.peers.map Peer.wgPublic) := by
  unfold desiredPeers
  suffices hfold : ∀ (ps : List Peer) (m : GoMap WGKey Peer),
      ((ps.foldl (fun m p => m.set p.wgPublic p) m).get? k).isNone
        = (!decide (k ∈ ps.map Peer.wgPublic) && (m.get? k).isNone) by
    simpa using hfold s.peers GoMap.empty
  intro ps
  induction ps with
  | nil => intro m; simp
  | cons p ps ih =>
      intro m
      rw [List.foldl_cons, ih, GoMap.get?_set]
      by_cases hk : k = p.wgPublic
      · simp [hk]
      · simp [hk]

section Configure

variable {s : State} {d : Device} {existing : List WGKey}
  (hkeys : (s.peers.map Peer.wgPublic).Nodup) (hlist : (existing : Multiset WGKey) = d.peers.keys)
include hkeys hlist

/--
**The device after `configureWGPeers`** has the desired peers and routes every
prefix to the last of them that lists it, whatever it held before.
-/
theorem configure_configureWGPeers :
    (∀ k, (d.configure (configureWGPeers s (some existing))).hasPeer k
        = decide (k ∈ s.peers.map Peer.wgPublic))
      ∧ ∀ n, (d.configure (configureWGPeers s (some existing))).owner n
          = cryptokeyRoute s.peers n := by
  obtain ⟨hp, ho⟩ := foldl_peerConfig d hkeys
  generalize hd : (s.peers.map peerConfig).foldl Device.configurePeer d = d1 at hp ho
  obtain ⟨hrp, hro⟩ := foldl_remove d1
    (existing.filter fun k => ((desiredPeers s).get? k).isNone)
  have hdev : d.configure (configureWGPeers s (some existing))
      = ((existing.filter fun k => ((desiredPeers s).get? k).isNone).map
          fun k => ({ publicKey := k, remove := true } : PeerConfig)).foldl
            Device.configurePeer d1 := by
    rw [← hd, ← List.foldl_append]
    rfl
  -- a peer of the device that is not desired is listed, and so it is removed
  have hgone : ∀ k, d.hasPeer k = true → k ∉ s.peers.map Peer.wgPublic →
      k ∈ existing.filter fun k => ((desiredPeers s).get? k).isNone := by
    intro k hk hnot
    have hmem : k ∈ (existing : Multiset WGKey) := by
      rw [hlist]
      obtain ⟨v, hv⟩ := Option.isSome_iff_exists.mp hk
      exact Multiset.mem_map.mpr ⟨(k, v), GoMap.mem_entries.mpr hv, rfl⟩
    rw [List.mem_filter, desiredPeers_isNone]
    exact ⟨hmem, by simpa using hnot⟩
  have hstays : ∀ k, k ∈ s.peers.map Peer.wgPublic →
      k ∉ existing.filter fun k => ((desiredPeers s).get? k).isNone := by
    intro k hk hmem
    rw [List.mem_filter, desiredPeers_isNone] at hmem
    simp [hk] at hmem
  rw [hdev]
  refine ⟨fun k => ?_, fun n => ?_⟩
  · rw [hrp, hp]
    by_cases hk : k ∈ s.peers.map Peer.wgPublic
    · simp only [hk, hstays k hk, decide_true, decide_false, Bool.not_false, Bool.true_or,
        Bool.and_self]
    · cases hdk : d.hasPeer k with
      | false => simp [hk]
      | true => simp [hk, hgone k hdk hk]
  · rw [hro, ho]
    cases hr : cryptokeyRoute s.peers n with
    | some k =>
        obtain ⟨p, hps, hpk, -⟩ := cryptokeyRoute_mem hr
        have hk : k ∈ s.peers.map Peer.wgPublic := hpk ▸ List.mem_map_of_mem hps
        rw [Option.some_or, if_neg]
        rintro ⟨j, hj, he⟩
        exact hstays k hk (Option.some.inj he ▸ hj)
    | none =>
        rw [Option.none_or]
        cases hown : d.owner n with
        | none => simp
        | some k =>
            by_cases hk : k ∈ s.peers.map Peer.wgPublic
            · obtain ⟨p, hps, hpk⟩ := List.mem_map.mp hk
              have hheld : ∃ p ∈ s.peers, (some k : Option WGKey) = some p.wgPublic :=
                ⟨p, hps, by rw [hpk]⟩
              rw [if_pos hheld]
              simp
            · have hheld : ¬ ∃ p ∈ s.peers, (some k : Option WGKey) = some p.wgPublic := by
                rintro ⟨p, hps, he⟩
                exact hk (Option.some.inj he ▸ List.mem_map_of_mem hps)
              rw [if_neg hheld, if_pos ⟨k, hgone k (d.owner_mem hown) hk, rfl⟩]

end Configure

/-! ## The peers' prefixes -/

theorem asSlice_inj {a b : Addr} (ha : a.zone = []) (hb : b.zone = []) (h : a.asSlice = b.asSlice) :
    a = b := by
  have hu : ∀ c : Addr, c.zone = [] → addrFromSlice c.asSlice = some c := by
    intro c hc
    rw [addrFromSlice_asSlice]
    cases c with
    | v4 ip => rfl
    | v6 ip zone => rw [show zone = [] from hc]; rfl
  exact Option.some.inj (by rw [← hu a ha, h, hu b hb])

theorem prefixToIPNet_injective : Function.Injective prefixToIPNet := by
  intro p q h
  have haddr := asSlice_inj p.unzoned q.unzoned (congrArg IPNet.ip h)
  have hbits : p.bits = q.bits := congrArg IPNet.ones h
  cases p; cases q
  simp_all

/-- No desired peer is ever sent a removal. -/
theorem configureWGPeers_remove {s : State} {existing : Option (List WGKey)} {pc : PeerConfig}
    (hpc : pc ∈ (configureWGPeers s existing).peers) (hrem : pc.remove = true) :
    pc.publicKey ∉ s.peers.map Peer.wgPublic := by
  intro hdes
  rcases List.mem_append.mp hpc with hpc | hpc
  · obtain ⟨p, -, rfl⟩ := List.mem_map.mp hpc
    cases hrem
  · obtain ⟨k, hk, rfl⟩ := List.mem_map.mp hpc
    rw [List.mem_filter, desiredPeers_isNone] at hk
    simp [hdes] at hk

/-- **A peer that is kept keeps its session**, whether or not the device could be read. -/
theorem lastHandshake_configureWGPeers (d : Device) {s : State} (existing : Option (List WGKey))
    {k : WGKey} {v : Session} (hk : k ∈ s.peers.map Peer.wgPublic) (hv : d.peers.get? k = some v) :
    ∃ w, (d.configure (configureWGPeers s existing)).peers.get? k = some w
      ∧ w.lastHandshake = v.lastHandshake := by
  have hkeep : ∀ pc ∈ (configureWGPeers s existing).peers, pc.remove = true → pc.publicKey ≠ k :=
    fun pc hpc hrem h => configureWGPeers_remove hpc hrem (h ▸ hk)
  have hfold : ∀ (pcs : List PeerConfig) (e : Device) (u : Session), e.peers.get? k = some u →
      (∀ pc ∈ pcs, pc.remove = true → pc.publicKey ≠ k) →
      ∃ w, (pcs.foldl Device.configurePeer e).peers.get? k = some w
        ∧ w.lastHandshake = u.lastHandshake := by
    intro pcs
    induction pcs with
    | nil => intro e u hu _; exact ⟨u, hu, rfl⟩
    | cons pc pcs ih =>
        intro e u hu hall
        obtain ⟨w, hw, hwu⟩ := e.lastHandshake_configurePeer (hall pc (by simp)) hu
        obtain ⟨x, hx, hxw⟩ := ih _ w hw (fun q hq => hall q (by simp [hq]))
        exact ⟨x, hx, hxw.trans hwu⟩
  exact hfold _ d v hv hkeep

/--
**The peer diff is exact and keeps sessions.** Whatever the device held, and in
whatever order its peers and the desired ones come: afterwards its peers are the
desired ones, each with exactly its prefixes, and no desired peer was removed on
the way.
-/
theorem configureWGPeers_exact {s : State} {d : Device} {existing : List WGKey}
    (hkeys : (s.peers.map Peer.wgPublic).Nodup)
    (hdisjoint : s.peers.Pairwise fun p q => ∀ n ∈ p.allowedIPs, n ∉ q.allowedIPs)
    (hlist : (existing : Multiset WGKey) = d.peers.keys) :
    (∀ k, (d.configure (configureWGPeers s (some existing))).hasPeer k = true
        ↔ k ∈ s.peers.map Peer.wgPublic)
      ∧ (∀ p ∈ s.peers, (d.configure (configureWGPeers s (some existing))).allowedIPs p.wgPublic
          = {n | n ∈ p.allowedIPs.map prefixToIPNet})
      ∧ ∀ pc ∈ (configureWGPeers s (some existing)).peers, pc.remove = true →
          pc.publicKey ∉ s.peers.map Peer.wgPublic := by
  obtain ⟨hpeer, howner⟩ := configure_configureWGPeers hkeys hlist
  refine ⟨fun k => by rw [hpeer k, decide_eq_true_iff], ?_, ?_⟩
  · intro p hp
    ext n
    show _ = some p.wgPublic ↔ n ∈ p.allowedIPs.map prefixToIPNet
    rw [howner n]
    -- peers of one key are one peer, and so are peers of one prefix
    have hsame : ∀ q ∈ s.peers, q.wgPublic = p.wgPublic → q = p := fun q hq hqp =>
      List.inj_on_of_nodup_map hkeys hq hp hqp
    have hshare : ∀ q ∈ s.peers, n ∈ q.allowedIPs.map prefixToIPNet →
        n ∈ p.allowedIPs.map prefixToIPNet → q = p := by
      intro q hq hnq hnp
      by_contra hne
      obtain ⟨u, hu, rfl⟩ := List.mem_map.mp hnp
      obtain ⟨v, hv, hvu⟩ := List.mem_map.mp hnq
      have hsymm : Std.Symm fun p q : Peer => ∀ n ∈ p.allowedIPs, n ∉ q.allowedIPs :=
        ⟨fun p q h n hq hp => h n hp hq⟩
      exact hdisjoint.forall hp hq (fun h => hne h.symm) u hu (prefixToIPNet_injective hvu ▸ hv)
    constructor
    · intro h
      obtain ⟨q, hq, hqk, hn⟩ := cryptokeyRoute_mem h
      rw [← hsame q hq hqk]
      exact hn
    · intro hn
      cases hr : cryptokeyRoute s.peers n with
      | none => exact absurd hn (cryptokeyRoute_none hr p hp)
      | some k =>
          obtain ⟨q, hq, hqk, hnq⟩ := cryptokeyRoute_mem hr
          rw [← hqk, hshare q hq hnq hn]
  · intro pc hpc hrem
    exact configureWGPeers_remove hpc hrem

/-! ### A prefix that changes hands -/

/-- The key of thirty-two equal bytes. -/
def sampleKey (b : UInt8) : WGKey := ⟨List.replicate 32 b, List.length_replicate⟩

/-- `10.0.b.0/24`. -/
def sampleNet (b : BitVec 32) : Prefix := ⟨.v4 (0x0A000000 + b * 256), 24, rfl⟩

def samplePeer (name : String) (key : UInt8) (nets : List Prefix) : Peer :=
  ⟨str name, sampleKey key, none, none, none, nets⟩

/-- A router with the given peers. -/
def sampleState (peers : List Peer) : State :=
  ⟨.router, sampleKey 0, str "wg0", 51820, str "vx0", 42, 4789, none, none, 1420, peers⟩

/-- Bob holds `10.0.0.0/24` and Carol `10.0.2.0/24`. -/
def sampleDevice : Device where
  peers := (GoMap.empty.set (sampleKey 2) {}).set (sampleKey 3) {}
  owner n :=
    if n = prefixToIPNet (sampleNet 0) then some (sampleKey 2)
    else if n = prefixToIPNet (sampleNet 2) then some (sampleKey 3)
    else none
  owner_mem := by
    intro n k h
    split at h
    · rw [← Option.some.inj h]; decide
    · split at h
      · rw [← Option.some.inj h]; decide
      · cases h

/-- Alice comes, takes Bob's prefix and Carol's, and Carol goes. -/
def movedState : State :=
  sampleState [samplePeer "alice" 1 [sampleNet 0, sampleNet 2], samplePeer "bob" 2 [sampleNet 1]]

theorem configureWGPeers_exact_moved :
    (sampleDevice.configure
        (configureWGPeers movedState (some [sampleKey 3, sampleKey 2]))).allowedIPs (sampleKey 1)
        = {n | n ∈ [prefixToIPNet (sampleNet 0), prefixToIPNet (sampleNet 2)]}
      ∧ ¬ (sampleDevice.configure
        (configureWGPeers movedState (some [sampleKey 3, sampleKey 2]))).hasPeer (sampleKey 3)
          = true := by
  obtain ⟨hpeers, hips, -⟩ := configureWGPeers_exact (s := movedState) (d := sampleDevice)
    (by decide) (by decide)
    (show ((([sampleKey 3, sampleKey 2] : List WGKey)) : Multiset WGKey) = _ by decide)
  refine ⟨hips (samplePeer "alice" 1 [sampleNet 0, sampleNet 2]) (by decide), ?_⟩
  rw [hpeers (sampleKey 3)]
  decide

end Gsnet.Dataplane
