import Gsnet.Nodename
import Gsnet.Gossip.PlaneProof
import Gsnet.Lib.Separated

/-!
# Announcements

The `Announce*` methods as one operation, labelled by the call. What goes out is
determined by the call and the node's name: the ID it goes out under, and the
fact a receiver reads back from the payload.

`Plane.Reachable` closes the new planes under every atomic step of the program,
so that it also covers states between the steps of concurrent calls.
-/

namespace Gsnet.Gossip

open Go Lib

/-- A call of one of the `Announce*` methods. -/
inductive Announcement where
  | hello (h : Hello)
  | addEdge (peer : GoString) (weight : Int64)
  | delEdge (peer : GoString)
  | addSubnet (subnet : GoString)
  | delSubnet (subnet : GoString)
  deriving DecidableEq

namespace Announcement

/-- The stable ID at a node of that name. -/
def id (name : GoString) : Announcement → GoString
  | .hello _ => Plane.helloID name
  | .addEdge peer _ => Plane.edgeID name peer
  | .delEdge peer => Plane.edgeID name peer
  | .addSubnet s => Plane.subnetID name s
  | .delSubnet s => Plane.subnetID name s

def kind : Announcement → Kind
  | .hello _ => .addNode
  | .addEdge _ _ => .addEdge
  | .delEdge _ => .delEdge
  | .addSubnet _ => .addSubnet
  | .delSubnet _ => .delSubnet

/-- The marshalled payload at a node of that name. -/
def body (name : GoString) : Announcement → GoString
  | .hello h => h.marshal
  | .addEdge peer w => AddEdge.marshal ⟨name, peer, w⟩
  | .delEdge peer => DelEdge.marshal ⟨name, peer⟩
  | .addSubnet s => AddSubnet.marshal ⟨name, s⟩
  | .delSubnet s => DelSubnet.marshal ⟨name, s⟩

/-- What a receiver, and the node itself, makes of it. -/
def fact (name : GoString) : Announcement → Fact
  | .hello h => readFact .addNode h.marshal
  | .addEdge peer w => .edge (toValidUTF8 name) (toValidUTF8 peer) (some w)
  | .delEdge peer => .edge (toValidUTF8 name) (toValidUTF8 peer) none
  | .addSubnet s => .subnet (toValidUTF8 name) (toValidUTF8 s) true
  | .delSubnet s => .subnet (toValidUTF8 name) (toValidUTF8 s) false

theorem readFact_body (a : Announcement) (name : GoString) :
    readFact a.kind (a.body name) = a.fact name := by
  cases a with
  | hello h => rfl
  | addEdge peer w => simp [kind, body, fact, readFact, AddEdge.unmarshal_marshal]
  | delEdge peer => simp [kind, body, fact, readFact, DelEdge.unmarshal_marshal]
  | addSubnet s => simp [kind, body, fact, readFact, AddSubnet.unmarshal_marshal]
  | delSubnet s => simp [kind, body, fact, readFact, DelSubnet.unmarshal_marshal]

end Announcement

/-! ## Stable IDs -/

/-- **The IDs of the subnets of validly named nodes never collide.** -/
theorem subnetID_inj {x y s t : GoString} (hx : Nodename.validate x = .ok ())
    (hy : Nodename.validate y = .ok ()) (h : Plane.subnetID x s = Plane.subnetID y t) :
    x = y ∧ s = t := by
  have h' : x ++ 0x2F :: (str "subnet/" ++ s) = y ++ 0x2F :: (str "subnet/" ++ t) := by
    unfold Plane.subnetID at h
    rw [List.append_assoc, List.append_assoc] at h
    exact h
  obtain ⟨hxy, hst⟩ := append_cons_inj_left (Nodename.slash_notMem hx) (Nodename.slash_notMem hy) h'
  exact ⟨hxy, List.append_cancel_left hst⟩

/-- A subnet is never announced under the ID of the Hello. -/
theorem subnetID_ne_helloID (name s : GoString) : Plane.subnetID name s ≠ Plane.helloID name := by
  unfold Plane.subnetID Plane.helloID
  rw [List.append_assoc]
  intro heq
  have htake := congrArg (List.take 2) (List.append_cancel_left heq)
  rw [List.take_append_of_le_length (by decide)] at htake
  exact absurd htake (by decide)

/-- An ID begins with the name of its node and a slash. -/
theorem Announcement.id_eq (a : Announcement) (name : GoString) :
    ∃ rest, a.id name = name ++ 0x2F :: rest := by
  cases a with
  | hello _ => exact ⟨str "hello", rfl⟩
  | addEdge peer _ => exact ⟨str "edge/" ++ peer, List.append_assoc _ _ _⟩
  | delEdge peer => exact ⟨str "edge/" ++ peer, List.append_assoc _ _ _⟩
  | addSubnet s => exact ⟨str "subnet/" ++ s, List.append_assoc _ _ _⟩
  | delSubnet s => exact ⟨str "subnet/" ++ s, List.append_assoc _ _ _⟩

/-- **An ID tells which of the validly named nodes it belongs to.** -/
theorem Announcement.name_of_id {x y : GoString} (hx : Nodename.validate x = .ok ())
    (hy : Nodename.validate y = .ok ()) {a b : Announcement} (h : a.id x = b.id y) : x = y := by
  obtain ⟨u, hu⟩ := a.id_eq x
  obtain ⟨v, hv⟩ := b.id_eq y
  rw [hu, hv] at h
  exact (append_cons_inj_left (Nodename.slash_notMem hx) (Nodename.slash_notMem hy) h).1

namespace Plane

section Announce

variable [Ed25519]

/-- The method a call is of. -/
def announce (p : Plane) (a : Announcement) (ts : Int64) : Plane × Envelope :=
  match a with
  | .hello h => p.announceHello h ts
  | .addEdge peer w => p.announceAddEdge peer w ts
  | .delEdge peer => p.announceDelEdge peer ts
  | .addSubnet s => p.announceAddSubnet s ts
  | .delSubnet s => p.announceDelSubnet s ts

theorem announce_eq (p : Plane) (a : Announcement) (ts : Int64) :
    p.announce a ts = p.originate (a.id p.nodeName) a.kind (a.body p.nodeName) ts := by
  cases a <;> rfl

/-- Signing touches the signature only. -/
theorem sign_frame (p : Plane) (env : Envelope) :
    (p.sign env).id = env.id ∧ (p.sign env).origin = env.origin ∧ (p.sign env).kind = env.kind
      ∧ (p.sign env).ts = env.ts ∧ (p.sign env).payload = env.payload := by
  unfold sign
  cases p.edPriv <;> exact ⟨rfl, rfl, rfl, rfl, rfl⟩

@[simp] theorem announce_id (p : Plane) (a : Announcement) (ts : Int64) :
    (p.announce a ts).2.id = a.id p.nodeName := by
  rw [announce_eq]; exact (sign_frame p _).1

@[simp] theorem announce_origin (p : Plane) (a : Announcement) (ts : Int64) :
    (p.announce a ts).2.origin = p.nodeName := by
  rw [announce_eq]; exact (sign_frame p _).2.1

@[simp] theorem announce_kind (p : Plane) (a : Announcement) (ts : Int64) :
    (p.announce a ts).2.kind = a.kind := by
  rw [announce_eq]; exact (sign_frame p _).2.2.1

@[simp] theorem announce_ts (p : Plane) (a : Announcement) (ts : Int64) :
    (p.announce a ts).2.ts = ts := by
  rw [announce_eq]; exact (sign_frame p _).2.2.2.1

@[simp] theorem announce_payload (p : Plane) (a : Announcement) (ts : Int64) :
    (p.announce a ts).2.payload = a.body p.nodeName := by
  rw [announce_eq]; exact (sign_frame p _).2.2.2.2

/-- **What is announced is what is read.** -/
theorem announce_fact (p : Plane) (a : Announcement) (ts : Int64) :
    (p.announce a ts).2.fact = a.fact p.nodeName := by
  rw [Envelope.fact, announce_kind, announce_payload, Announcement.readFact_body]

/-- **What announcing does to the plane.** -/
theorem announce_plane (p : Plane) (a : Announcement) (ts : Int64) :
    (p.announce a ts).1 = (p.store (p.announce a ts).2).apply (p.announce a ts).2 := by
  rw [announce_eq]; rfl

@[simp] theorem announce_outbox (p : Plane) (a : Announcement) (ts : Int64) :
    (p.announce a ts).1.outbox = p.outbox.set (a.id p.nodeName) (p.announce a ts).2 := by
  rw [announce_plane, apply_outbox, ← announce_id p a ts]
  rfl

@[simp] theorem announce_seen (p : Plane) (a : Announcement) (ts : Int64) :
    (p.announce a ts).1.seen = p.seen.set (a.id p.nodeName) ts := by
  have hset : (p.store (p.announce a ts).2).seen
      = p.seen.set (p.announce a ts).2.id (p.announce a ts).2.ts := rfl
  rw [announce_plane, apply_seen, hset, announce_id, announce_ts]

@[simp] theorem announce_nodeName (p : Plane) (a : Announcement) (ts : Int64) :
    (p.announce a ts).1.nodeName = p.nodeName := by
  rw [announce_plane, apply_nodeName]
  rfl

@[simp] theorem announce_edPriv (p : Plane) (a : Announcement) (ts : Int64) :
    (p.announce a ts).1.edPriv = p.edPriv := by
  rw [announce_plane, apply_edPriv]
  rfl

theorem inv_announce {p : Plane} (h : p.g.Inv) (a : Announcement) (ts : Int64) :
    (p.announce a ts).1.g.Inv := by
  have hstore : (p.store (p.announce a ts).2).g.Inv := h
  rw [announce_plane]; exact inv_apply hstore _

end Announce

/-! ## Reachable planes -/

/-- A plane the program can be in, between any two atomic steps of any of its calls. -/
inductive Reachable : Plane → Prop
  | new (name : GoString) (priv : Option Ed25519Private)
      (lookup : Option (GoString → Option Ed25519Public)) : Reachable (newPlane name priv lookup)
  | setSigner {p : Plane} (priv : Ed25519Private) :
      Reachable p → Reachable { p with edPriv := some priv }
  | setVerifier {p : Plane} (f : GoString → Option Ed25519Public) :
      Reachable p → Reachable { p with pubKeyFor := some f }
  | claim {p p' : Plane} (id : GoString) (ts : Int64) :
      Reachable p → p.claim id ts = some p' → Reachable p'
  | store {p : Plane} (env : Envelope) : Reachable p → Reachable (p.store env)
  | apply {p : Plane} (env : Envelope) : Reachable p → Reachable (p.apply env)

/-- The graph of a reachable plane is well formed. -/
theorem Reachable.inv {p : Plane} (h : Reachable p) : p.g.Inv := by
  induction h with
  | new name priv lookup => exact Graph.inv_new
  | setSigner priv _ ih => exact ih
  | setVerifier f _ ih => exact ih
  | claim id ts _ hc ih =>
      rw [claim_eq] at hc
      split at hc
      · cases hc; exact ih
      · cases hc
  | store env _ ih => exact ih
  | apply env _ ih => exact inv_apply ih env

theorem Reachable.announce [Ed25519] {p : Plane} (h : Reachable p) (a : Announcement)
    (ts : Int64) : Reachable (p.announce a ts).1 := by
  rw [announce_plane]; exact .apply _ (.store _ h)

theorem Reachable.afterReceive [Ed25519] {p : Plane} (h : Reachable p) (env : Envelope) :
    Reachable (p.afterReceive env) := by
  unfold Plane.afterReceive receive
  split
  · rename_i r hr
    split at hr
    · cases hr
    · split at hr
      · cases hr; exact h
      · rename_i p' hc
        cases hr; exact .apply _ (.claim _ _ h hc)
  · exact h

end Plane

end Gsnet.Gossip
