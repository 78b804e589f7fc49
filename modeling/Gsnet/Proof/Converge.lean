import Gsnet.Gossip.Register

/-!
# Replicas that received the same messages

Two planes that received the same messages, each in its own order and with
whatever repetitions, agree on everything that is written under one ID. Subnets
are: the ID of a subnet fact determines the owner and the subnet, and is
determined by them, as long as both are text JSON can carry.

What a Hello tells of a node is weaker. The dedup table works on whole Hellos
while the fields are merged one by one, so a field that the newest Hello leaves
out keeps what the last accepted one to carry it said.
-/

namespace Gsnet.Proof

open Gsnet Go Gossip Lib

/-! ## Sets of messages -/

/-- No two messages of one ID carry the same time. -/
def DistinctTS (S : Finset Envelope) : Prop :=
  ∀ e ∈ S, ∀ f ∈ S, e.id = f.id → e.ts = f.ts → e = f

/-- `n` is the newest message of `S` under its ID. -/
def NewestIn (S : Finset Envelope) (n : Envelope) : Prop :=
  n ∈ S ∧ ∀ f ∈ S, f.id = n.id → f.ts ≤ n.ts

instance (S : Finset Envelope) : Decidable (DistinctTS S) :=
  inferInstanceAs (Decidable (∀ e ∈ S, _))

instance (S : Finset Envelope) (n : Envelope) : Decidable (NewestIn S n) :=
  inferInstanceAs (Decidable (_ ∧ _))

/-- Every message has a newest one of its ID. -/
theorem exists_newestIn {S : Finset Envelope} {e : Envelope} (he : e ∈ S) :
    ∃ n, NewestIn S n ∧ n.id = e.id := by
  have hne : (S.filter (fun f => f.id = e.id)).Nonempty :=
    ⟨e, Finset.mem_filter.mpr ⟨he, rfl⟩⟩
  obtain ⟨n, hn, hmax⟩ := Finset.exists_max_image _ Envelope.ts hne
  obtain ⟨hnS, hid⟩ := Finset.mem_filter.mp hn
  refine ⟨n, ⟨hnS, fun f hf hfid => ?_⟩, hid⟩
  exact hmax f (Finset.mem_filter.mpr ⟨hf, hfid.trans hid⟩)

/-- And only one, when times differ. -/
theorem NewestIn.unique {S : Finset Envelope} (hts : DistinctTS S) {n m : Envelope}
    (hn : NewestIn S n) (hm : NewestIn S m) (hid : n.id = m.id) : n = m :=
  hts n hn.1 m hm.1 hid (le_antisymm (hm.2 n hn.1 hid) (hn.2 m hm.1 hid.symm))

/-! ## Runs over one set of messages -/

section Runs

variable [Ed25519]

/-- A plane that receives the messages of `S`, each at least once, and nothing else. -/
structure Run (S : Finset Envelope) where
  start : Plane
  inv : start.g.Inv
  envs : List Envelope
  covers : ∀ e, e ∈ envs ↔ e ∈ S
  verified : start.AllVerify envs

/-- The plane at the end. -/
def Run.after {S : Finset Envelope} (run : Run S) : Plane := run.start.receiveAll run.envs

/-- The messages that got through, in order. -/
def Run.accepted {S : Finset Envelope} (run : Run S) : List Envelope :=
  run.start.acceptedBy run.envs

/-- A run from a new plane. -/
structure FreshRun (S : Finset Envelope) extends Run S where
  fresh : ∃ name priv lookup, start = newPlane name priv lookup

theorem FreshRun.newer {S : Finset Envelope} (run : FreshRun S) (id : GoString) (ts : Int64) :
    Newer run.start.seen id ts := by
  obtain ⟨name, priv, lookup, h⟩ := run.fresh
  rw [h]; exact newer_empty id ts

namespace Run

variable {S : Finset Envelope} (run : Run S)

theorem newest (hts : DistinctTS S) {n : Envelope} (hn : NewestIn S n) :
    Newest Envelope.id Envelope.ts run.envs n := by
  refine ⟨(run.covers n).mpr hn.1, fun f hf hid hne => ?_⟩
  have hfS := (run.covers f).mp hf
  exact lt_of_le_of_ne (hn.2 f hfS hid) (fun heq => hne (hts f hfS n hn.1 hid heq))

theorem mem_of_accepted {e : Envelope} (h : e ∈ run.accepted) : e ∈ S := by
  unfold accepted at h
  rw [Plane.acceptedBy_eq run.verified] at h
  exact (run.covers e).mp (Lib.mem_of_accepted h)

/-- A register written under one ID: the newest of that ID decides. -/
theorem read_newest (hts : DistinctTS S) {V : Type} (r : Register V) {n : Envelope} {v : V}
    (hn : NewestIn S n) (hnew : Newer run.start.seen n.id n.ts) (hw : r.write n.fact = some v)
    (honly : ∀ e ∈ S, r.write e.fact ≠ none → e.id = n.id) : r.read run.after = v :=
  r.read_receiveAll_newest run.inv run.verified (run.newest hts hn) hnew hw
    (fun e he => honly e ((run.covers e).mp he))

theorem read_untouched {V : Type} (r : Register V) (hno : ∀ e ∈ S, r.write e.fact = none) :
    r.read run.after = r.read run.start :=
  r.read_receiveAll_untouched run.inv run.verified (fun e he => hno e ((run.covers e).mp he))

end Run

end Runs

/-! ## Subnets -/

section Subnets

variable [Ed25519]

/-- Minted for the subnet `s` by `AnnounceAddSubnet` or `AnnounceDelSubnet` under a valid name. -/
def SubnetMinted (s : GoString) (env : Envelope) : Prop :=
  ∃ (p : Plane) (ts : Int64), Nodename.validate p.nodeName = .ok () ∧
    (env = (p.announceAddSubnet s ts).2 ∨ env = (p.announceDelSubnet s ts).2)

/-- What such an envelope says, and under which ID. -/
theorem SubnetMinted.reads {s : GoString} {env : Envelope} (h : SubnetMinted s env)
    (hs : validUTF8 s = true) :
    ∃ x b, Nodename.validate x = .ok () ∧ env.id = Plane.subnetID x s ∧ env.fact = .subnet x s b
      ∧ (env.kind = .addSubnet ↔ b = true) := by
  obtain ⟨p, ts, hname, henv⟩ := h
  have hx : toValidUTF8 p.nodeName = p.nodeName :=
    toValidUTF8_of_valid (Nodename.validUTF8_of_validate hname)
  have hs' : toValidUTF8 s = s := toValidUTF8_of_valid hs
  rcases henv with henv | henv
  · have henv : env = (p.announce (.addSubnet s) ts).2 := henv
    refine ⟨p.nodeName, true, hname, ?_, ?_, ?_⟩
    · rw [henv, Plane.announce_id]; rfl
    · rw [henv, Plane.announce_fact, Announcement.fact, hx, hs']
    · rw [henv, Plane.announce_kind]; simp [Announcement.kind]
  · have henv : env = (p.announce (.delSubnet s) ts).2 := henv
    refine ⟨p.nodeName, false, hname, ?_, ?_, ?_⟩
    · rw [henv, Plane.announce_id]; rfl
    · rw [henv, Plane.announce_fact, Announcement.fact, hx, hs']
    · rw [henv, Plane.announce_kind]; simp [Announcement.kind]

/-- An envelope writes the register of a subnet only under the ID of that subnet. -/
theorem subnet_write {x n : GoString} {e : Envelope}
    (he : ∃ s, validUTF8 s = true ∧ SubnetMinted s e)
    (hw : (subnetRegister x n).write e.fact ≠ none) :
    Nodename.validate x = .ok () ∧ e.id = Plane.subnetID x n := by
  obtain ⟨s, hs, hm⟩ := he
  obtain ⟨y, b, hy, hid, hf, _⟩ := hm.reads hs
  rw [hf] at hw
  by_cases heq : y = x ∧ s = n
  · obtain ⟨rfl, rfl⟩ := heq
    exact ⟨hy, hid⟩
  · simp [subnetRegister, heq] at hw

/-- And always under that ID. -/
theorem subnet_write_of_id {x n : GoString} (hx : Nodename.validate x = .ok ()) {e : Envelope}
    (he : ∃ s, validUTF8 s = true ∧ SubnetMinted s e) (hid : e.id = Plane.subnetID x n) :
    (subnetRegister x n).write e.fact = some (decide (e.kind = .addSubnet)) := by
  obtain ⟨s, hs, hm⟩ := he
  obtain ⟨y, b, hy, hid', hf, hb⟩ := hm.reads hs
  obtain ⟨rfl, rfl⟩ := subnetID_inj hy hx (hid'.symm.trans hid)
  rw [hf]
  cases b with
  | true => simp [subnetRegister, hb]
  | false => simp [subnetRegister, hb]

/-- What a run over minted subnet messages leaves of one subnet. -/
theorem FreshRun.mem_nodeSubnets {S : Finset Envelope} (run : FreshRun S)
    (hmint : ∀ e ∈ S, ∃ s, validUTF8 s = true ∧ SubnetMinted s e) (hts : DistinctTS S)
    {x : GoString} (hx : Nodename.validate x = .ok ()) (n : GoString) :
    n ∈ run.after.g.nodeSubnets x ↔
      ∃ e, NewestIn S e ∧ e.id = Plane.subnetID x n ∧ e.kind = .addSubnet := by
  have hread : n ∈ run.after.g.nodeSubnets x ↔ (subnetRegister x n).read run.after = true := by
    simp [subnetRegister]
  rw [hread]
  by_cases hex : ∃ e ∈ S, e.id = Plane.subnetID x n
  · -- something is said of the subnet, and the newest of it decides
    obtain ⟨e, heS, hid⟩ := hex
    obtain ⟨m, hm, hmid⟩ := exists_newestIn heS
    have hmid := hmid.trans hid
    rw [run.read_newest hts _ hm (run.newer _ _) (subnet_write_of_id hx (hmint m hm.1) hmid)
      (fun f hf hw => (subnet_write (hmint f hf) hw).2.trans hmid.symm), decide_eq_true_eq]
    constructor
    · intro hk
      exact ⟨m, hm, hmid, hk⟩
    · rintro ⟨m', hm', hid', hk⟩
      rw [hm.unique hts hm' (hmid.trans hid'.symm)]
      exact hk
  · -- nothing is, and a new plane has no subnets
    have hno : ∀ e ∈ S, (subnetRegister x n).write e.fact = none := by
      intro e he
      by_contra hw
      exact hex ⟨e, he, (subnet_write (hmint e he) hw).2⟩
    obtain ⟨name, priv, lookup, hfresh⟩ := run.fresh
    rw [run.read_untouched _ hno, hfresh]
    refine ⟨fun h => absurd h (by simp [subnetRegister, newPlane]), ?_⟩
    rintro ⟨e, he, hid, _⟩
    exact absurd ⟨e, he.1, hid⟩ hex

/--
**Strong eventual consistency for subnets.** After any run over a set of minted
subnet messages a valid owner has the subnets whose newest message adds them;
and two runs over the same set agree on every node.
-/
theorem subnets_strongly_consistent (S : Finset Envelope)
    (hmint : ∀ e ∈ S, ∃ s, validUTF8 s = true ∧ SubnetMinted s e) (hts : DistinctTS S) :
    (∀ (run : FreshRun S) (x : GoString), Nodename.validate x = .ok () → ∀ s,
      s ∈ run.after.g.nodeSubnets x ↔
        ∃ e, NewestIn S e ∧ e.id = Plane.subnetID x s ∧ e.kind = .addSubnet)
    ∧ ∀ (run₁ run₂ : FreshRun S) (x : GoString),
        run₁.after.g.nodeSubnets x = run₂.after.g.nodeSubnets x := by
  refine ⟨fun run x hx s => run.mem_nodeSubnets hmint hts hx s, fun run₁ run₂ x => ?_⟩
  ext s
  by_cases hx : Nodename.validate x = .ok ()
  · rw [run₁.mem_nodeSubnets hmint hts hx, run₂.mem_nodeSubnets hmint hts hx]
  · -- nobody mints for an invalid name, so both are as empty as they were
    have hno : ∀ e ∈ S, (subnetRegister x s).write e.fact = none := by
      intro e he
      by_contra hw
      exact hx (subnet_write (hmint e he) hw).1
    have hempty : ∀ run : FreshRun S, s ∉ run.after.g.nodeSubnets x := by
      intro run
      obtain ⟨name, priv, lookup, hfresh⟩ := run.fresh
      have h := run.read_untouched _ hno
      rw [hfresh] at h
      simpa [subnetRegister, newPlane] using h
    exact iff_of_false (hempty run₁) (hempty run₂)

end Subnets

section SubnetSamples

attribute [local instance] clearEd25519

/-- A node and what it announces: one subnet for good, another withdrawn again. -/
def sampleNode : Plane := newPlane (str "a") none none

def sampleKept : Envelope := (sampleNode.announceAddSubnet (str "10.1.0.0/24") 1).2
def sampleAdded : Envelope := (sampleNode.announceAddSubnet (str "10.2.0.0/24") 2).2
def sampleWithdrawn : Envelope := (sampleNode.announceDelSubnet (str "10.2.0.0/24") 3).2

/-- The withdrawal arrives first, and the addition twice. -/
def sampleArrivals : List Envelope := [sampleWithdrawn, sampleAdded, sampleKept, sampleAdded]

def sampleSubnets : Finset Envelope := sampleArrivals.toFinset

@[irreducible] def sampleSubnetRun : FreshRun sampleSubnets where
  start := newPlane (str "b") none none
  inv := Graph.inv_new
  envs := sampleArrivals
  covers := fun _ => List.mem_toFinset.symm
  verified := Plane.allVerify_unkeyed Graph.inv_new rfl (fun _ => rfl) (by decide +kernel)
  fresh := ⟨_, _, _, rfl⟩

theorem subnets_strongly_consistent_withdrawn :
    str "10.1.0.0/24" ∈ sampleSubnetRun.after.g.nodeSubnets (str "a")
      ∧ str "10.2.0.0/24" ∉ sampleSubnetRun.after.g.nodeSubnets (str "a") := by
  have hmint : ∀ e ∈ sampleSubnets, ∃ s, validUTF8 s = true ∧ SubnetMinted s e := by
    intro e he
    simp only [sampleSubnets, sampleArrivals, List.mem_toFinset, List.mem_cons,
      List.not_mem_nil, or_false] at he
    rcases he with rfl | rfl | rfl | rfl
    · exact ⟨str "10.2.0.0/24", by decide, sampleNode, 3, by decide, Or.inr rfl⟩
    · exact ⟨str "10.2.0.0/24", by decide, sampleNode, 2, by decide, Or.inl rfl⟩
    · exact ⟨str "10.1.0.0/24", by decide, sampleNode, 1, by decide, Or.inl rfl⟩
    · exact ⟨str "10.2.0.0/24", by decide, sampleNode, 2, by decide, Or.inl rfl⟩
  have hts : DistinctTS sampleSubnets := by decide +kernel
  have h := (subnets_strongly_consistent sampleSubnets hmint hts).1 sampleSubnetRun (str "a")
    (by decide)
  refine ⟨(h (str "10.1.0.0/24")).mpr
    ⟨sampleKept, by decide +kernel, by decide +kernel, by decide +kernel⟩, ?_⟩
  intro hmem
  obtain ⟨e, hn, hid, hk⟩ := (h (str "10.2.0.0/24")).mp hmem
  have hw : NewestIn sampleSubnets sampleWithdrawn := by decide +kernel
  have hwid : sampleWithdrawn.id = Plane.subnetID (str "a") (str "10.2.0.0/24") := by
    decide +kernel
  rw [hn.unique hts hw (hid.trans hwid.symm)] at hk
  exact absurd hk (by decide +kernel)

/-! Subnets that are not valid UTF-8 have different IDs and one place in the graph. -/

def rawAdded : Envelope := (sampleNode.announceAddSubnet [0xFF] 1).2
def rawWithdrawn : Envelope := (sampleNode.announceDelSubnet [0xFE] 2).2

@[irreducible] def rawRun (envs : List Envelope)
    (hc : ∀ e, e ∈ envs ↔ e ∈ ({rawAdded, rawWithdrawn} : Finset _))
    (hk : ∀ e ∈ envs, e.fact.teachesKey = false) : FreshRun {rawAdded, rawWithdrawn} where
  start := newPlane (str "b") none none
  inv := Graph.inv_new
  envs := envs
  covers := hc
  verified := Plane.allVerify_unkeyed Graph.inv_new rfl (fun _ => rfl) hk
  fresh := ⟨_, _, _, rfl⟩

theorem subnets_diverge_on_raw_bytes :
    (∀ e ∈ ({rawAdded, rawWithdrawn} : Finset Envelope), ∃ s, SubnetMinted s e)
      ∧ DistinctTS {rawAdded, rawWithdrawn}
      ∧ ∃ run₁ run₂ : FreshRun {rawAdded, rawWithdrawn},
          [0xFF] ∉ run₁.after.g.nodeSubnets (str "a")
            ∧ NewestIn {rawAdded, rawWithdrawn} rawAdded
            ∧ rawAdded.id = Plane.subnetID (str "a") [0xFF]
            ∧ run₁.after.g.nodeSubnets (str "a") ≠ run₂.after.g.nodeSubnets (str "a") := by
  refine ⟨?_, by decide +kernel,
    rawRun [rawAdded, rawWithdrawn] (by simp) (by decide +kernel),
    rawRun [rawWithdrawn, rawAdded] (by simp [or_comm]) (by decide +kernel),
    by decide +kernel, by decide +kernel, by decide +kernel, by decide +kernel⟩
  intro e he
  simp only [Finset.mem_insert, Finset.mem_singleton] at he
  rcases he with rfl | rfl
  · exact ⟨[0xFF], sampleNode, 1, by decide, Or.inl rfl⟩
  · exact ⟨[0xFE], sampleNode, 2, by decide, Or.inr rfl⟩

end SubnetSamples

/-! ## Hellos -/

/-- `e` carries the Hello `h` of the node `x`. -/
def HelloOf (x : GoString) (e : Envelope) (h : Hello) : Prop :=
  e.id = Plane.helloID x ∧ e.kind = .addNode ∧ Hello.unmarshal e.payload = some h ∧ h.name = x

theorem HelloOf.fact {x : GoString} {e : Envelope} {h : Hello} (hh : HelloOf x e h) :
    e.fact = .node h := by
  obtain ⟨_, hk, hu, _⟩ := hh
  simp [Envelope.fact, readFact, hk, hu]

section Hellos

variable [Ed25519] {S : Finset Envelope}

/--
How a run leaves a field of the node `x`, which a Hello may or may not carry: at
what the newest accepted Hello to carry it says, or as it was.
-/
def Settled {V : Type} (run : Run S) (x : GoString) (carried : Hello → Option V)
    (read : Plane → V) : Prop :=
  (∃ e h, e ∈ run.accepted ∧ HelloOf x e h ∧ carried h = some (read run.after) ∧
      ∀ f ∈ run.accepted, ∀ k, HelloOf x f k → carried k ≠ none → f.ts ≤ e.ts)
    ∨ ((∀ f ∈ run.accepted, ∀ k, HelloOf x f k → carried k = none)
        ∧ read run.after = read run.start)

/-- A register that Hellos of `x` write with a field they carry settles. -/
theorem Run.settled (run : Run S) {x : GoString} (hS : ∀ e ∈ S, ∃ h, HelloOf x e h) {V : Type}
    (r : Register V) {carried : Hello → Option V}
    (hw : ∀ h, h.name = x → r.write (.node h) = carried h) : Settled run x carried r.read := by
  have hwrite : ∀ e h, HelloOf x e h → r.write e.fact = carried h := by
    intro e h hh
    rw [hh.fact, hw h hh.2.2.2]
  have hread := r.read_receiveAll run.inv run.verified
  cases hlast : ((run.start.acceptedBy run.envs).filterMap fun e => r.write e.fact).getLast? with
  | none =>
      rw [hlast] at hread
      refine Or.inr ⟨fun f hf k hk => ?_, hread⟩
      rw [← hwrite f k hk]
      exact List.filterMap_eq_nil_iff.mp (List.getLast?_eq_none_iff.mp hlast) f hf
  | some v =>
      rw [hlast] at hread
      obtain ⟨pre, e, post, hsplit, hv, hpost⟩ := getLast?_filterMap hlast
      have hmem : e ∈ run.accepted := by
        unfold Run.accepted; rw [hsplit]; simp
      obtain ⟨h, hh⟩ := hS e (run.mem_of_accepted hmem)
      refine Or.inl ⟨e, h, hmem, hh, ?_, fun f hf k hk hc => ?_⟩
      · rw [← hwrite e h hh, hv]
        exact congrArg some hread.symm
      · -- along one ID the accepted times rise, and after `e` nothing carries the field
        unfold Run.accepted at hf
        rw [hsplit] at hf
        rw [Plane.acceptedBy_eq run.verified] at hsplit
        rcases List.mem_append.mp hf with hf | hf
        · exact le_of_lt (accepted_lt_of_before hsplit hf (hh.1.trans hk.1.symm))
        · rcases List.mem_cons.mp hf with rfl | hf
          · exact le_rfl
          · exact absurd (hpost f hf) (by rw [hwrite f k hk]; exact hc)

/--
**What Hellos leave of a node.** The newest Hello always gets through and every
field it carries ends at its value. A field it leaves out is at what the newest
accepted Hello to carry it said, and which Hellos were accepted is a matter of
the order.
-/
theorem hello_fields_settle (x : GoString) (hS : ∀ e ∈ S, ∃ h, HelloOf x e h)
    (hts : DistinctTS S) (run : Run S) (hnew : ∀ e ∈ S, Newer run.start.seen e.id e.ts)
    (n : Envelope) (h : Hello) (hn : NewestIn S n) (hh : HelloOf x n h) :
    n ∈ run.accepted
      ∧ (∀ v, h.endpoint? = some v → run.after.endpointOf x = v)
      ∧ (∀ a, parseHelloAddr h.innerAddr = some a → run.after.innerAddrOf x = some a)
      ∧ (∀ a, parseHelloAddr h.underlayAddr = some a → run.after.underlayAddrOf x = some a)
      ∧ Settled run x Hello.endpoint? (fun p => p.endpointOf x)
      ∧ Settled run x (fun h => (parseHelloAddr h.innerAddr).map some) (fun p => p.innerAddrOf x)
      ∧ Settled run x (fun h => (parseHelloAddr h.underlayAddr).map some)
          (fun p => p.underlayAddrOf x) := by
  have honly : ∀ e ∈ S, e.id = n.id := by
    intro e he
    obtain ⟨k, hk⟩ := hS e he
    exact hk.1.trans hh.1.symm
  have hnewest : ∀ {V : Type} (r : Register V) (v : V), r.write (.node h) = some v →
      r.read run.after = v := by
    intro V r v hw
    exact run.read_newest hts r hn (hnew n hn.1) (by rw [hh.fact]; exact hw)
      (fun e he _ => honly e he)
  have hname := hh.2.2.2
  refine ⟨?_, fun v hv => hnewest (endpointOfRegister x) v ?_,
    fun a ha => hnewest (innerRegister x) (some a) ?_,
    fun a ha => hnewest (underlayRegister x) (some a) ?_,
    run.settled hS (endpointOfRegister x) (fun k hk => ?_),
    run.settled hS (innerRegister x) (fun k hk => ?_),
    run.settled hS (underlayRegister x) (fun k hk => ?_)⟩
  · unfold Run.accepted
    rw [Plane.acceptedBy_eq run.verified]
    exact newest_accepted (run.newest hts hn) (hnew n hn.1)
  · simp [endpointOfRegister, Register.map, endpointRegister, helloRegister, helloWrite, hname, hv]
  · simp [innerRegister, helloRegister, helloWrite, hname, ha]
  · simp [underlayRegister, helloRegister, helloWrite, hname, ha]
  · simp [endpointOfRegister, Register.map, endpointRegister, helloRegister, helloWrite, hk]
  · simp [innerRegister, helloRegister, helloWrite, hk]
  · simp [underlayRegister, helloRegister, helloWrite, hk]

end Hellos

section HelloSamples

attribute [local instance] clearEd25519

/-- A Hello with an endpoint, and a later one without. -/
def sampleHello : Hello := { name := str "a", endpoint := str "192.0.2.1:655" }
def sampleReachable : Envelope := (sampleNode.announceHello sampleHello 1).2
def sampleSilent : Envelope := (sampleNode.announceHello { name := str "a" } 2).2

def sampleHellos : Finset Envelope := {sampleReachable, sampleSilent}

@[irreducible] def sampleHelloRun (envs : List Envelope) (hc : ∀ e, e ∈ envs ↔ e ∈ sampleHellos)
    (hk : ∀ e ∈ envs, e.fact.teachesKey = false) : FreshRun sampleHellos where
  start := newPlane (str "b") none none
  inv := Graph.inv_new
  envs := envs
  covers := hc
  verified := Plane.allVerify_unkeyed Graph.inv_new rfl (fun _ => rfl) hk
  fresh := ⟨_, _, _, rfl⟩

def helloInOrder : FreshRun sampleHellos :=
  sampleHelloRun [sampleReachable, sampleSilent] (by simp [sampleHellos]) (by decide +kernel)

theorem mem_reversed_iff (e : Envelope) :
    e ∈ [sampleSilent, sampleReachable] ↔ e ∈ sampleHellos := by
  simp [sampleHellos, or_comm]

def helloReversed : FreshRun sampleHellos :=
  sampleHelloRun [sampleSilent, sampleReachable] mem_reversed_iff (by decide +kernel)

theorem sampleHellos_hello : ∀ e ∈ sampleHellos, ∃ h, HelloOf (str "a") e h := by
  intro e he
  simp only [sampleHellos, Finset.mem_insert, Finset.mem_singleton] at he
  rcases he with rfl | rfl
  · exact ⟨sampleHello, by decide +kernel, by decide +kernel, by decide +kernel, rfl⟩
  · exact ⟨{ name := str "a" }, by decide +kernel, by decide +kernel, by decide +kernel, rfl⟩

theorem hello_fields_settle_silent :
    sampleSilent ∈ helloReversed.accepted
      ∧ Settled helloReversed.toRun (str "a") Hello.endpoint?
        (fun p => p.endpointOf (str "a")) := by
  have h := hello_fields_settle (str "a") sampleHellos_hello (by decide +kernel)
    helloReversed.toRun (fun e _ => helloReversed.newer e.id e.ts) sampleSilent
    { name := str "a" } (by decide +kernel)
    ⟨by decide +kernel, by decide +kernel, by decide +kernel, rfl⟩
  exact ⟨h.1, h.2.2.2.2.1⟩

theorem hello_endpoint_depends_on_order :
    (∀ e ∈ sampleHellos, ∃ h, HelloOf (str "a") e h) ∧ DistinctTS sampleHellos
      ∧ NewestIn sampleHellos sampleSilent ∧ HelloOf (str "a") sampleSilent { name := str "a" }
      ∧ helloInOrder.after.endpointOf (str "a") = str "192.0.2.1:655"
      ∧ helloReversed.after.endpointOf (str "a") = [] := by
  refine ⟨sampleHellos_hello, by decide +kernel, by decide +kernel,
    ⟨by decide +kernel, by decide +kernel, by decide +kernel, rfl⟩, by decide +kernel,
    by decide +kernel⟩

end HelloSamples

end Gsnet.Proof
