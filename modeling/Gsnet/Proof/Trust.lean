import Gsnet.Gossip.Register

/-!
# What a signature vouches for

`Receive` checks that an envelope was signed by its origin and stops there. The
names inside the payload are not compared with the origin, and the dedup table
is indexed by an ID the sender chose. So what a signed envelope can touch is
bounded by its payload, and what it can suppress by its ID, but neither by who
sent it; the samples show a member using both.
-/

namespace Gsnet.Proof

open Gsnet Go Gossip Lib

/-- The installed lookup has a key for every origin. -/
def KnowsEveryKey (p : Plane) : Prop :=
  ∃ f, p.pubKeyFor = some f ∧ ∀ o, ∃ k, f o = some k ∧ k.raw ≠ []

section Trust

variable [Ed25519]

/-- With such a lookup the learned keys play no part. -/
theorem verify_of_knows {p : Plane} (hk : KnowsEveryKey p) (env : Envelope) :
    p.verify env = (p.lookedUp env.origin).verify env.signingBytes env.signature := by
  obtain ⟨f, hf, hkeys⟩ := hk
  obtain ⟨k, hfk, hne⟩ := hkeys env.origin
  have hl : p.lookedUp env.origin = k := by simp [Plane.lookedUp, hf, hfk]
  have hlen : k.raw.length ≠ 0 := fun h => hne (List.eq_nil_of_length_eq_zero h)
  unfold Plane.verify
  simp [hf, hl, hlen]

theorem verify_congr {p q : Plane} (hk : KnowsEveryKey p) (h : q.pubKeyFor = p.pubKeyFor)
    (env : Envelope) : q.verify env = p.verify env := by
  have hkq : KnowsEveryKey q := by
    obtain ⟨f, hf, hkeys⟩ := hk
    exact ⟨f, h.trans hf, hkeys⟩
  rw [verify_of_knows hkq, verify_of_knows hk]
  simp [Plane.lookedUp, h]

theorem afterReceive_pubKeyFor (p : Plane) (env : Envelope) :
    (p.afterReceive env).pubKeyFor = p.pubKeyFor := by
  cases hv : p.verify env with
  | false => rw [Plane.afterReceive_of_not_verify hv]
  | true =>
      rw [Plane.afterReceive_of_verify hv]
      split
      · exact Plane.apply_pubKeyFor p env
      · rfl

/-! ## What an envelope can change -/

/-- What an accepted envelope was checked against, and what it left behind. -/
theorem receive_accepted {p p' : Plane} {env : Envelope}
    (h : p.receive env = .ok (p', some env)) :
    p.verify env = true ∧ Newer p.seen env.id env.ts
      ∧ p' = { p.apply env with seen := p.seen.set env.id env.ts } := by
  rw [Plane.receive_eq] at h
  split at h
  · rename_i hv
    rw [Plane.afterReceive_of_verify hv] at h
    by_cases hn : Newer p.seen env.id env.ts
    · simp only [if_pos hn, Except.ok.injEq, Prod.mk.injEq] at h
      exact ⟨hv, hn, h.1.symm⟩
    · simp [hn] at h
  · cases h

/-- A register the fact does not write is as it was. -/
theorem register_unchanged {p p' : Plane} (hp : p.Reachable) {env : Envelope}
    (h : p.receive env = .ok (p', some env)) {V : Type} (r : Register V)
    (hw : r.write env.fact = none) : r.read p' = r.read p := by
  obtain ⟨_, _, rfl⟩ := receive_accepted h
  rw [r.read_seen, r.read_apply hp.inv, hw]
  rfl

/--
**What an accepted envelope can change.** It was signed by its origin; and it
leaves the subnets of every node but the owner in its payload, what is known of
every node but the one its payload names, and every edge its payload does not
name or, for a removal, that does not end at the node named.
-/
theorem accepted_changes_only_named {p p' : Plane} {env : Envelope} (hp : p.Reachable)
    (hk : KnowsEveryKey p) (h : p.receive env = .ok (p', some env)) :
    (p.lookedUp env.origin).verify env.signingBytes env.signature = true
      ∧ (∀ x, (∀ s b, env.fact ≠ .subnet x s b) → p'.g.nodeSubnets x = p.g.nodeSubnets x)
      ∧ (∀ x, (∀ hl, env.fact = .node hl → hl.name ≠ x) → env.fact ≠ .drop x →
          p'.endpointOf x = p.endpointOf x ∧ p'.innerAddrOf x = p.innerAddrOf x
            ∧ p'.underlayAddrOf x = p.underlayAddrOf x ∧ p'.pubKeys.get? x = p.pubKeys.get? x)
      ∧ ∀ e : Edge, (∀ a b w, env.fact = .edge a b w → ¬ Graph.SameSlot a b e.src e.dst) →
          (∀ n, env.fact = .drop n → e.src ≠ n ∧ e.dst ≠ n) → (e ∈ p'.g.edges ↔ e ∈ p.g.edges) := by
  refine ⟨?_, fun x hx => ?_, fun x hnode hdrop => ?_, fun e hedge hdrop => ?_⟩
  · rw [← verify_of_knows hk]; exact (receive_accepted h).1
  · ext s
    have hw : (subnetRegister x s).write env.fact = none := by
      cases hf : env.fact with
      | subnet o n b =>
          have hne : ¬ (o = x ∧ n = s) := by
            rintro ⟨rfl, rfl⟩; exact hx n b hf
          simp [subnetRegister, hne]
      | _ => rfl
    simpa [subnetRegister] using register_unchanged hp h (subnetRegister x s) hw
  · have hw : ∀ {V : Type} (c : Hello → Option V), helloWrite c x env.fact = none :=
      fun c => helloWrite_eq_none hnode hdrop
    exact ⟨register_unchanged hp h (endpointOfRegister x) (congrArg (Option.map _) (hw _)),
      register_unchanged hp h (innerRegister x) (hw _),
      register_unchanged hp h (underlayRegister x) (hw _),
      register_unchanged hp h (pubKeyRegister x) (hw _)⟩
  · have hinv : p'.g.Inv := by
      rw [(receive_accepted h).2.2]; exact Plane.inv_apply hp.inv env
    have hw : (edgeRegister e.src e.dst).write env.fact = none := by
      cases hf : env.fact with
      | edge a b w => simp [edgeRegister, hedge a b w hf]
      | drop n => simp [edgeRegister, hdrop n hf]
      | _ => rfl
    have hr : p'.g.edge? e.src e.dst = p.g.edge? e.src e.dst :=
      register_unchanged hp h (edgeRegister e.src e.dst) hw
    rw [Graph.mem_edges_iff hinv, Graph.mem_edges_iff hp.inv, hr]

/-! ## What an envelope can suppress -/

/-- An envelope that fails verification might as well not have been sent. -/
theorem receiveAll_filter {p : Plane} (hk : KnowsEveryKey p) (envs : List Envelope) :
    p.receiveAll envs = p.receiveAll (envs.filter p.verify)
      ∧ p.AllVerify (envs.filter p.verify) := by
  induction envs generalizing p with
  | nil => exact ⟨rfl, trivial⟩
  | cons env envs ih =>
      have hcons : p.receiveAll (env :: envs) = (p.afterReceive env).receiveAll envs := rfl
      cases hv : p.verify env with
      | false =>
          rw [hcons, Plane.afterReceive_of_not_verify hv, List.filter_cons_of_neg (by simp [hv])]
          exact ih hk
      | true =>
          -- keys that Hellos teach do not matter where the lookup has one
          have hsame : (p.afterReceive env).verify = p.verify :=
            funext (verify_congr hk (afterReceive_pubKeyFor p env))
          have hk' : KnowsEveryKey (p.afterReceive env) := by
            obtain ⟨f, hf, hkeys⟩ := hk
            exact ⟨f, (afterReceive_pubKeyFor p env).trans hf, hkeys⟩
          have ih := ih hk'
          rw [hsame] at ih
          rw [hcons, List.filter_cons_of_pos hv]
          exact ⟨ih.1, hv, ih.2⟩

theorem receiveAll_pubKeyFor (p : Plane) (envs : List Envelope) :
    (p.receiveAll envs).pubKeyFor = p.pubKeyFor := by
  induction envs generalizing p with
  | nil => rfl
  | cons env envs ih =>
      exact (ih (p.afterReceive env)).trans (afterReceive_pubKeyFor p env)

/-- The last of a run of `Receive` calls is accepted and applied. -/
def Accepts (p : Plane) (before : List Envelope) (e : Envelope) : Prop :=
  ∃ q, (p.receiveAll before).receive e = .ok (q, some e)

/-- It is when it verifies and nothing verified before it under its ID was as new. -/
theorem accepts_iff {p : Plane} (hk : KnowsEveryKey p) (before : List Envelope) (e : Envelope) :
    Accepts p before e ↔ p.verify e = true ∧ Newer p.seen e.id e.ts
      ∧ ∀ m ∈ before, p.verify m = true → m.id = e.id → m.ts < e.ts := by
  have hnewer : Newer (p.receiveAll before).seen e.id e.ts ↔ Newer p.seen e.id e.ts
      ∧ ∀ m ∈ before, p.verify m = true → m.id = e.id → m.ts < e.ts := by
    obtain ⟨heq, hall⟩ := receiveAll_filter hk before
    rw [heq, Plane.receiveAll_eq hall, newer_tableAfter]
    simp [List.mem_filter]
  unfold Accepts
  rw [Plane.receive_eq, verify_congr hk (receiveAll_pubKeyFor p before), ← hnewer]
  by_cases hv : p.verify e = true
  · by_cases hn : Newer (p.receiveAll before).seen e.id e.ts
    · simp [hv, hn]
    · simp [hv, hn]
  · simp [hv]

/--
**What other members can suppress.** An envelope of `x` is accepted in a run
exactly when it is accepted in the run without the envelopes of others and no
verified envelope of another origin came before it, under its ID and as new.
-/
theorem accepted_among_others {p : Plane} (hk : KnowsEveryKey p) (x : GoString)
    (before : List Envelope) (e : Envelope) :
    Accepts p before e ↔ Accepts p (before.filter fun m => m.origin = x) e
      ∧ ∀ m ∈ before, m.origin ≠ x → p.verify m = true → m.id = e.id → m.ts < e.ts := by
  rw [accepts_iff hk, accepts_iff hk]
  refine ⟨fun ⟨hv, hn, h⟩ => ⟨⟨hv, hn, fun m hm => h m (List.mem_of_mem_filter hm)⟩,
    fun m hm _ => h m hm⟩, fun ⟨⟨hv, hn, hown⟩, hothers⟩ => ⟨hv, hn, fun m hm => ?_⟩⟩
  by_cases hx : m.origin = x
  · exact hown m (List.mem_filter.mpr ⟨hm, by simpa using hx⟩)
  · exact hothers m hm hx

end Trust

section Samples

attribute [local instance] clearEd25519

/-- Thirty-two bytes that begin with a name stand for the key of that name. -/
def keyNamed (name : GoString) : GoString := (name ++ List.replicate 32 0).take 32

def privateNamed (name : GoString) : Ed25519Private := ⟨List.replicate 32 0 ++ keyNamed name⟩

/-- A member that knows everybody's key. -/
def observer : Plane := newPlane (str "c") none (some fun o => some ⟨keyNamed o⟩)

theorem observer_knows : KnowsEveryKey observer := by
  refine ⟨_, rfl, fun o => ⟨⟨keyNamed o⟩, rfl, fun h => ?_⟩⟩
  have hlen : (keyNamed o).length = 32 := by simp [keyNamed]
  rw [show keyNamed o = [] from h] at hlen
  cases hlen

/-- Signed by `b`, about a subnet of `a`. -/
def forgedSubnet : Envelope :=
  (newPlane (str "b") (some (privateNamed (str "b"))) none).sign
    ⟨str "b/subnet/10.0.0.0/8", str "b", .addSubnet, 1,
      AddSubnet.marshal ⟨str "a", str "10.0.0.0/8"⟩, []⟩

example : observer.verify forgedSubnet = true := by decide +kernel

theorem receive_forgedSubnet : observer.receive forgedSubnet
    = .ok (observer.afterReceive forgedSubnet, some forgedSubnet) := by
  have hv : observer.verify forgedSubnet = true := by decide +kernel
  have hn : Newer observer.seen forgedSubnet.id forgedSubnet.ts := newer_empty _ _
  rw [Plane.receive_eq, if_pos hv, if_pos hn]

theorem accepted_changes_only_named_forged :
    (observer.afterReceive forgedSubnet).g.nodeSubnets (str "b")
      = observer.g.nodeSubnets (str "b") := by
  have hf : forgedSubnet.fact = .subnet (str "a") (str "10.0.0.0/8") true := by decide +kernel
  refine (accepted_changes_only_named (.new _ _ _) observer_knows receive_forgedSubnet).2.1 _ ?_
  intro s b heq
  rw [hf] at heq
  injection heq with ho
  exact absurd ho (by decide)

theorem forged_subnet_is_applied :
    observer.Reachable ∧ KnowsEveryKey observer ∧ forgedSubnet.origin ≠ str "a"
      ∧ observer.receive forgedSubnet
          = .ok (observer.afterReceive forgedSubnet, some forgedSubnet)
      ∧ observer.g.nodeSubnets (str "a") = ∅
      ∧ (observer.afterReceive forgedSubnet).g.nodeSubnets (str "a") = {str "10.0.0.0/8"} :=
  ⟨.new _ _ _, observer_knows, by decide +kernel, receive_forgedSubnet, by decide +kernel,
    by decide +kernel⟩

/-- A Hello of `a`, in its own name. -/
def ownHello : Envelope :=
  ((newPlane (str "a") (some (privateNamed (str "a"))) none).announceHello
    { name := str "a" } 1700000000000000000).2

/-- Signed by `b`, under the ID of that Hello and with the last of all times. -/
def usurpedID : Envelope :=
  (newPlane (str "b") (some (privateNamed (str "b"))) none).sign
    ⟨str "a/hello", str "b", .ping, 9223372036854775807, [], []⟩

theorem accepted_among_others_unrelated : Accepts observer [forgedSubnet] ownHello := by
  refine (accepted_among_others observer_knows (str "a") [forgedSubnet] ownHello).mpr ⟨?_, ?_⟩
  · have hnone : [forgedSubnet].filter (fun m => m.origin = str "a") = [] := by decide +kernel
    rw [hnone, accepts_iff observer_knows]
    exact ⟨by decide +kernel, newer_empty _ _, by simp⟩
  · intro m hm _ _ hid
    rw [List.mem_singleton.mp hm] at hid
    exact absurd hid (by decide +kernel)

theorem usurped_id_suppresses :
    KnowsEveryKey observer ∧ usurpedID.origin ≠ str "a" ∧ ownHello.origin = str "a"
      ∧ ownHello.id = Plane.helloID (str "a")
      ∧ Accepts observer ([usurpedID].filter fun m => m.origin = str "a") ownHello
      ∧ ¬ Accepts observer [usurpedID] ownHello := by
  refine ⟨observer_knows, by decide +kernel, by decide +kernel, by decide +kernel, ?_, ?_⟩
  · have hnone : [usurpedID].filter (fun m => m.origin = str "a") = [] := by decide +kernel
    rw [hnone, accepts_iff observer_knows]
    exact ⟨by decide +kernel, newer_empty _ _, by simp⟩
  · rw [accepts_iff observer_knows]
    rintro ⟨_, _, h⟩
    have hlt := h usurpedID (by simp) (by decide +kernel) (by decide +kernel)
    exact absurd hlt (by decide +kernel)

end Samples

end Gsnet.Proof
