import Gsnet.Proof.WireGuard

/-!
# When a WireGuard device is left alone

`configureWGPeers` always makes its request; whether the request changes anything
depends on what the device has. It changes nothing exactly when the device is
`Settled`: its peers are those of the state, each with the endpoint and the interval
it would be given, and every prefix is with the peer that would have it in the end.
The state may name a key more than once, and a prefix too; the last entry decides,
and an entry takes from its own key whatever it does not list.
-/

namespace Gsnet.Dataplane

open Go

/-! ## What the entries of a state amount to -/

/-- Who has the prefix after the entry for a peer. -/
def takes (n : IPNet) (owner : Option WGKey) (p : Peer) : Option WGKey :=
  if n ∈ p.allowedIPs.map prefixToIPNet then some p.wgPublic
  else if owner = some p.wgPublic then none else owner

/-- Who has the prefix after the entries for these peers, if nobody had it. -/
def wantOwner (peers : List Peer) (n : IPNet) : Option WGKey := peers.foldl (takes n) none

/-- The endpoint under a key after the entry for a peer. -/
def learns (k : WGKey) (ep : Option UDPAddr) (p : Peer) : Option UDPAddr :=
  if p.wgPublic = k then (peerConfig p).endpoint.or ep else ep

/-- The endpoint that the entries for these peers give under a key. -/
def wantEndpoint (peers : List Peer) (k : WGKey) : Option UDPAddr := peers.foldl (learns k) none

/-- The device has what the state asks for. -/
structure Settled (s : State) (d : Device) : Prop where
  peers : ∀ k, d.hasPeer k = true ↔ k ∈ s.peers.map Peer.wgPublic
  interval : ∀ k v, d.peers.get? k = some v → v.persistentKeepaliveInterval = 25
  endpoint : ∀ k v, d.peers.get? k = some v →
    ∀ ep, wantEndpoint s.peers k = some ep → v.endpoint = some ep
  owner : ∀ n, d.owner n = wantOwner s.peers n

theorem foldl_learns (k : WGKey) (peers : List Peer) (ep : Option UDPAddr) :
    peers.foldl (learns k) ep = (wantEndpoint peers k).or ep := by
  unfold wantEndpoint
  induction peers using List.reverseRecOn with
  | nil => rfl
  | append_singleton peers p ih =>
      rw [List.foldl_append, List.foldl_append, ih]
      simp only [List.foldl_cons, List.foldl_nil, learns]
      split
      · rw [Option.or_assoc]
      · rfl

/-- Who had a prefix of a peer of the state does not matter. -/
theorem foldl_takes_mem {n : IPNet} {peers : List Peer} {owner : Option WGKey}
    (h : ∀ k, owner = some k → k ∈ peers.map Peer.wgPublic) :
    peers.foldl (takes n) owner = wantOwner peers n := by
  unfold wantOwner
  induction peers generalizing owner with
  | nil =>
      cases owner with
      | none => rfl
      | some k => exact absurd (h k rfl) List.not_mem_nil
  | cons p peers ih =>
      rw [List.foldl_cons, List.foldl_cons]
      by_cases hn : n ∈ p.allowedIPs.map prefixToIPNet
      · have heq : takes n owner p = takes n none p := by
          unfold takes
          rw [if_pos hn, if_pos hn]
        rw [heq]
      · by_cases hown : owner = some p.wgPublic
        · have heq : takes n owner p = takes n none p := by
            unfold takes
            rw [if_neg hn, if_pos hown, if_neg hn, if_neg (by simp)]
          rw [heq]
        · -- the entry leaves the prefix to whoever has it, who comes later
          have hkeep : takes n owner p = owner := by
            unfold takes
            rw [if_neg hn, if_neg hown]
          have hnone : takes n none p = none := by
            unfold takes
            rw [if_neg hn, if_neg (by simp)]
          rw [hkeep, hnone]
          refine ih fun k hk => ?_
          rcases List.mem_cons.mp (h k hk) with rfl | hmem
          · exact absurd hk hown
          · exact hmem

/-- Somebody else keeps a prefix only as long as no entry lists it. -/
theorem foldl_takes_other {n : IPNet} {peers : List Peer} {k : WGKey}
    (h : k ∉ peers.map Peer.wgPublic) :
    peers.foldl (takes n) (some k) = wantOwner peers n
      ∨ peers.foldl (takes n) (some k) = some k ∧ wantOwner peers n = none := by
  unfold wantOwner
  induction peers with
  | nil => exact .inr ⟨rfl, rfl⟩
  | cons p peers ih =>
      obtain ⟨hp, hrest⟩ := not_or.mp (mt List.mem_cons.mpr h)
      rw [List.foldl_cons, List.foldl_cons]
      by_cases hn : n ∈ p.allowedIPs.map prefixToIPNet
      · left
        have heq : takes n (some k) p = takes n none p := by
          unfold takes
          rw [if_pos hn, if_pos hn]
        rw [heq]
      · have hkeep : takes n (some k) p = some k := by
          unfold takes
          rw [if_neg hn, if_neg (by simpa using hp)]
        have hnone : takes n none p = none := by
          unfold takes
          rw [if_neg hn, if_neg (by simp)]
        rw [hkeep, hnone]
        exact ih hrest

/-- A prefix ends with one of the peers. -/
theorem wantOwner_mem {n : IPNet} {peers : List Peer} {k : WGKey}
    (h : wantOwner peers n = some k) : k ∈ peers.map Peer.wgPublic := by
  induction peers using List.reverseRecOn with
  | nil => cases h
  | append_singleton peers p ih =>
      rw [List.map_append, List.mem_append]
      unfold wantOwner at h ih
      rw [List.foldl_append, List.foldl_cons, List.foldl_nil, takes] at h
      split at h
      · exact .inr (by rw [← Option.some.inj h]; exact List.mem_cons_self)
      · split at h
        · cases h
        · exact .inl (ih h)

/-! ## The device after the request -/

/-- A session after entries that give this endpoint. -/
def Session.given (v : Session) (ep : Option UDPAddr) : Session :=
  ⟨ep.or v.endpoint, 25, v.lastHandshake⟩

theorem Session.given_given (v : Session) (ep ep' : Option UDPAddr) :
    (v.given ep).given ep' = v.given (ep'.or ep) := by
  unfold given
  rw [Option.or_assoc]

theorem wantEndpoint_cons (p : Peer) (peers : List Peer) (k : WGKey) :
    wantEndpoint (p :: peers) k = (wantEndpoint peers k).or (learns k none p) := by
  rw [← foldl_learns]
  rfl

theorem wantEndpoint_of_notMem {peers : List Peer} {k : WGKey}
    (h : k ∉ peers.map Peer.wgPublic) : wantEndpoint peers k = none := by
  induction peers with
  | nil => rfl
  | cons p peers ih =>
      obtain ⟨hp, hrest⟩ := not_or.mp (mt List.mem_cons.mpr h)
      rw [wantEndpoint_cons, ih hrest, learns, if_neg (Ne.symm hp)]
      rfl

/-- The entry for one peer. -/
theorem session_configurePeer (d : Device) (p : Peer) (k : WGKey) :
    (d.configurePeer (peerConfig p)).peers.get? k
      = if k = p.wgPublic then some (((d.peers.get? k).getD {}).given (peerConfig p).endpoint)
        else d.peers.get? k := by
  rw [(d.configurePeer_eq p).1]
  show (d.peers.set p.wgPublic _).get? k = _
  rw [GoMap.get?_set]
  split
  · rename_i hk
    rw [hk]
    rfl
  · rfl

/-- **The entries for the peers of a state**, whether or not their keys are distinct. -/
theorem foldl_entries (d : Device) (peers : List Peer) :
    (∀ k, ((peers.map peerConfig).foldl Device.configurePeer d).peers.get? k
        = if k ∈ peers.map Peer.wgPublic then
            some (((d.peers.get? k).getD {}).given (wantEndpoint peers k))
          else d.peers.get? k)
      ∧ ∀ n, ((peers.map peerConfig).foldl Device.configurePeer d).owner n
          = peers.foldl (takes n) (d.owner n) := by
  induction peers generalizing d with
  | nil => exact ⟨fun k => by simp, fun n => rfl⟩
  | cons p peers ih =>
      obtain ⟨ihp, iho⟩ := ih (d.configurePeer (peerConfig p))
      refine ⟨fun k => ?_, fun n => ?_⟩
      · rw [List.map_cons, List.foldl_cons, ihp, session_configurePeer, wantEndpoint_cons, learns]
        by_cases hk : k = p.wgPublic
        · have hmem : k ∈ (p :: peers).map Peer.wgPublic := List.mem_cons.mpr (.inl hk)
          rw [if_pos hk, if_pos hk.symm, Option.or_none, Option.getD_some, Session.given_given,
            if_pos hmem]
          split
          · rfl
          · rename_i hlater
            rw [wantEndpoint_of_notMem hlater, Option.none_or]
        · rw [if_neg hk, if_neg (Ne.symm hk), Option.or_none]
          simp only [List.mem_cons, List.map_cons, hk, false_or]
      · rw [List.map_cons, List.foldl_cons, iho, (d.configurePeer_eq p).2]
        rfl

theorem session_foldl_remove (d : Device) (ks : List WGKey) (k : WGKey) :
    ((ks.map fun k => ({ publicKey := k, remove := true } : PeerConfig)).foldl
        Device.configurePeer d).peers.get? k
      = if k ∈ ks then none else d.peers.get? k := by
  induction ks generalizing d with
  | nil => rfl
  | cons j ks ih =>
      rw [List.map_cons, List.foldl_cons, ih]
      show (if k ∈ ks then none else (d.peers.delete j).get? k) = _
      rw [GoMap.get?_delete]
      by_cases hmem : k ∈ ks
      · simp [hmem]
      · by_cases hk : k = j
        · simp [hk]
        · simp [hmem, hk]

/-- The keys that a request removes. -/
def removed (s : State) (existing : Option (List WGKey)) : List WGKey :=
  (existing.getD []).filter fun k => ((desiredPeers s).get? k).isNone

theorem mem_removed {s : State} {existing : Option (List WGKey)} {k : WGKey} :
    k ∈ removed s existing ↔ k ∈ existing.getD [] ∧ k ∉ s.peers.map Peer.wgPublic := by
  rw [removed, List.mem_filter, desiredPeers_isNone]
  simp

/-- **The device after the request.** -/
theorem configure_eq (d : Device) (s : State) (existing : Option (List WGKey)) :
    (∀ k, (d.configure (configureWGPeers s existing)).peers.get? k
        = if k ∈ removed s existing then none
          else if k ∈ s.peers.map Peer.wgPublic then
            some (((d.peers.get? k).getD {}).given (wantEndpoint s.peers k))
          else d.peers.get? k)
      ∧ ∀ n, (d.configure (configureWGPeers s existing)).owner n
          = if ∃ k ∈ removed s existing, s.peers.foldl (takes n) (d.owner n) = some k then none
            else s.peers.foldl (takes n) (d.owner n) := by
  obtain ⟨hpeers, howner⟩ := foldl_entries d s.peers
  have hdev : d.configure (configureWGPeers s existing)
      = ((removed s existing).map fun k => ({ publicKey := k, remove := true } : PeerConfig)).foldl
          Device.configurePeer ((s.peers.map peerConfig).foldl Device.configurePeer d) := by
    rw [← List.foldl_append]
    rfl
  rw [hdev]
  refine ⟨fun k => ?_, fun n => ?_⟩
  · rw [session_foldl_remove, hpeers]
  · rw [(foldl_remove _ _).2, howner]

theorem Device.ext {d d' : Device} (hpeers : d.peers = d'.peers) (howner : d.owner = d'.owner) :
    d = d' := by
  cases d
  cases d'
  simp_all

/-! ## Nothing to do -/

/-- A settled device is left as it is, also if its peers cannot be listed. -/
theorem Settled.configure {s : State} {d : Device} (h : Settled s d)
    {existing : Option (List WGKey)}
    (hlist : ∀ k ∈ existing.getD [], d.hasPeer k = true) :
    d.configure (configureWGPeers s existing) = d := by
  obtain ⟨hpeers, howner⟩ := configure_eq d s existing
  have hnone : ∀ k, k ∉ removed s existing := by
    intro k hk
    obtain ⟨hmem, hnot⟩ := mem_removed.mp hk
    exact hnot ((h.peers k).mp (hlist k hmem))
  refine Device.ext (GoMap.ext_get? fun k => ?_) (funext fun n => ?_)
  · rw [hpeers, if_neg (hnone k)]
    split
    · rename_i hk
      obtain ⟨v, hv⟩ := Option.isSome_iff_exists.mp ((h.peers k).mpr hk)
      have hinterval := h.interval k v hv
      have hendpoint : (wantEndpoint s.peers k).or v.endpoint = v.endpoint := by
        cases hep : wantEndpoint s.peers k with
        | none => rfl
        | some ep => exact (h.endpoint k v hv ep hep).symm
      rw [hv, Option.getD_some, Session.given, hendpoint, ← hinterval]
    · rfl
  · have hheld : ∀ k, d.owner n = some k → k ∈ s.peers.map Peer.wgPublic :=
      fun k hk => (h.peers k).mp (d.owner_mem hk)
    have hnot : ¬ ∃ k ∈ removed s existing, s.peers.foldl (takes n) (d.owner n) = some k :=
      fun ⟨k, hk, _⟩ => hnone k hk
    rw [howner, if_neg hnot, foldl_takes_mem hheld, h.owner]

/-- Who has a prefix after the request does not depend on who had it. -/
theorem owner_configure {s : State} {d : Device} {existing : List WGKey}
    (hlist : (existing : Multiset WGKey) = d.peers.keys) (n : IPNet) :
    (d.configure (configureWGPeers s (some existing))).owner n = wantOwner s.peers n := by
  rw [(configure_eq d s _).2]
  have hstays : ∀ k ∈ removed s (some existing), wantOwner s.peers n ≠ some k :=
    fun k hk heq => (mem_removed.mp hk).2 (wantOwner_mem heq)
  by_cases hheld : ∀ k, d.owner n = some k → k ∈ s.peers.map Peer.wgPublic
  · rw [foldl_takes_mem hheld, if_neg]
    rintro ⟨k, hk, heq⟩
    exact hstays k hk heq
  · -- a peer that is not desired loses it at the latest when it is removed
    push Not at hheld
    obtain ⟨k, hk, hnot⟩ := hheld
    have hmem : k ∈ removed s (some existing) := by
      refine mem_removed.mpr ⟨?_, hnot⟩
      show k ∈ (existing : Multiset WGKey)
      rw [hlist, GoMap.mem_keys]
      exact Option.isSome_iff_ne_none.mp (d.owner_mem hk)
    rw [hk]
    rcases foldl_takes_other (n := n) hnot with heq | ⟨heq, hnone⟩
    · rw [heq, if_neg]
      rintro ⟨j, hj, hjeq⟩
      exact hstays j hj hjeq
    · rw [heq, if_pos ⟨k, hmem, rfl⟩, hnone]

/-- **A request that changes nothing finds a settled device.** -/
theorem settled_of_configure {s : State} {d : Device} {existing : List WGKey}
    (hlist : (existing : Multiset WGKey) = d.peers.keys)
    (h : d.configure (configureWGPeers s (some existing)) = d) : Settled s d := by
  obtain ⟨hpeers, -⟩ := configure_eq d s (some existing)
  have howner : ∀ n, _ = wantOwner s.peers n := owner_configure hlist
  rw [h] at hpeers howner
  have hstays : ∀ k ∈ s.peers.map Peer.wgPublic, k ∉ removed s (some existing) :=
    fun k hk hmem => (mem_removed.mp hmem).2 hk
  have hdesired : ∀ k v, d.peers.get? k = some v → k ∈ s.peers.map Peer.wgPublic := by
    intro k v hv
    by_contra hnot
    have hmem : k ∈ removed s (some existing) := by
      refine mem_removed.mpr ⟨?_, hnot⟩
      show k ∈ (existing : Multiset WGKey)
      rw [hlist, GoMap.mem_keys, hv]
      exact Option.some_ne_none v
    have hgone := hpeers k
    rw [if_pos hmem, hv] at hgone
    cases hgone
  have hgiven : ∀ k v, d.peers.get? k = some v → v = v.given (wantEndpoint s.peers k) := by
    intro k v hv
    have hk := hdesired k v hv
    have hget := hpeers k
    rw [if_neg (hstays k hk), if_pos hk, hv, Option.getD_some] at hget
    exact Option.some.inj hget
  refine ⟨fun k => ⟨fun hk => ?_, fun hk => ?_⟩, fun k v hv => ?_, fun k v hv ep hep => ?_, howner⟩
  · obtain ⟨v, hv⟩ := Option.isSome_iff_exists.mp hk
    exact hdesired k v hv
  · unfold Device.hasPeer
    rw [hpeers, if_neg (hstays k hk), if_pos hk]
    rfl
  · rw [hgiven k v hv]
    rfl
  · rw [hgiven k v hv, hep]
    rfl

end Gsnet.Dataplane
