import Gsnet.Gossip.Register

/-!
# The outbox as a summary of the node's own facts

The heartbeat sends the outbox and nothing else, so a newcomer learns of a node
exactly what the outbox says. A `Del` takes the place of its `Add` there, and the
map comes out in no particular order. It works because at one node the ID of an
announcement and the register it writes determine each other: an entry of the
outbox is then the last word on its register (`Summary`), and no two entries are
about the same one.
-/

namespace Gsnet.Proof

open Gsnet Go Gossip Lib

/-! ## What an announcement is about -/

/-- What the ID of an announcement names, next to the announcing node. -/
inductive Subject where
  | self
  | edge (peer : GoString)
  | subnet (s : GoString)
  deriving DecidableEq

namespace Subject

/-- What follows the node's name in the ID. -/
def key : Subject → GoString
  | .self => str "/hello"
  | .edge peer => str "/edge/" ++ peer
  | .subnet s => str "/subnet/" ++ s

/-- The letter after the slash tells the kinds apart. -/
def letter : Subject → UInt8
  | .self => 0x68
  | .edge _ => 0x65
  | .subnet _ => 0x73

theorem letter_key (s : Subject) : s.key[1]? = some s.letter := by
  cases s <;> rfl

theorem key_inj {s t : Subject} (h : s.key = t.key) : s = t := by
  have hl : s.letter = t.letter := by
    have := congrArg (fun l => l[1]?) h
    simpa [letter_key] using this
  cases s with
  | self =>
      cases t with
      | self => rfl
      | edge q => exact absurd hl (by simp [letter])
      | subnet n => exact absurd hl (by simp [letter])
  | edge p =>
      cases t with
      | self => exact absurd hl (by simp [letter])
      | edge q => rw [List.append_cancel_left h]
      | subnet n => exact absurd hl (by simp [letter])
  | subnet n =>
      cases t with
      | self => exact absurd hl (by simp [letter])
      | edge q => exact absurd hl (by simp [letter])
      | subnet m => rw [List.append_cancel_left h]

end Subject

def subjectOf : Announcement → Subject
  | .hello _ => .self
  | .addEdge peer _ => .edge peer
  | .delEdge peer => .edge peer
  | .addSubnet s => .subnet s
  | .delSubnet s => .subnet s

/-- **At one node the ID of an announcement says what it is about.** -/
theorem id_eq_iff (a b : Announcement) (name : GoString) :
    a.id name = b.id name ↔ subjectOf a = subjectOf b := by
  have hid : ∀ c : Announcement, c.id name = name ++ (subjectOf c).key := by
    intro c
    cases c <;> simp [Announcement.id, subjectOf, Subject.key, Plane.helloID, Plane.edgeID,
      Plane.subnetID]
  rw [hid, hid]
  exact ⟨fun h => Subject.key_inj (List.append_cancel_left h), fun h => by rw [h]⟩

/-- A call about an edge or a subnet, with an argument that is text. -/
def Textual : Announcement → Prop
  | .hello _ => False
  | .addEdge peer _ => validUTF8 peer = true
  | .delEdge peer => validUTF8 peer = true
  | .addSubnet s => validUTF8 s = true
  | .delSubnet s => validUTF8 s = true

theorem subnet_write_iff {a : Announcement} (ha : Textual a) (name x n : GoString) :
    (subnetRegister x n).write (a.fact name) ≠ none
      ↔ subjectOf a = .subnet n ∧ toValidUTF8 name = x := by
  cases a with
  | hello h => cases ha
  | addEdge peer w => simp [subnetRegister, Announcement.fact, subjectOf]
  | delEdge peer => simp [subnetRegister, Announcement.fact, subjectOf]
  | addSubnet s =>
      rw [Announcement.fact, toValidUTF8_of_valid ha]
      simp [subnetRegister, subjectOf, and_comm]
  | delSubnet s =>
      rw [Announcement.fact, toValidUTF8_of_valid ha]
      simp [subnetRegister, subjectOf, and_comm]

theorem edge_write_iff {a : Announcement} (ha : Textual a) (name x y : GoString) :
    (edgeRegister x y).write (a.fact name) ≠ none
      ↔ ∃ peer, subjectOf a = .edge peer ∧ Graph.SameSlot (toValidUTF8 name) peer x y := by
  cases a with
  | hello h => cases ha
  | addEdge peer w =>
      rw [Announcement.fact, toValidUTF8_of_valid ha]
      simp [edgeRegister, subjectOf]
  | delEdge peer =>
      rw [Announcement.fact, toValidUTF8_of_valid ha]
      simp [edgeRegister, subjectOf]
  | addSubnet s => simp [edgeRegister, Announcement.fact, subjectOf]
  | delSubnet s => simp [edgeRegister, Announcement.fact, subjectOf]

/--
A register that the announcements of a node write under one ID, and always write
under that ID.
-/
def OneID (name : GoString) {V : Type} (r : Register V) : Prop :=
  ∀ a b, Textual a → Textual b → r.write (a.fact name) ≠ none →
    (r.write (b.fact name) ≠ none ↔ b.id name = a.id name)

theorem oneID_subnet (name x n : GoString) : OneID name (subnetRegister x n) := by
  intro a b ha hb hw
  obtain ⟨hs, hx⟩ := (subnet_write_iff ha name x n).mp hw
  rw [subnet_write_iff hb, id_eq_iff, hs]
  exact ⟨fun h => h.1, fun h => ⟨h, hx⟩⟩

/-- One slot of the table has one end at the node, so the other end is determined. -/
theorem sameSlot_peer {c p q x y : GoString} (hp : Graph.SameSlot c p x y)
    (hq : Graph.SameSlot c q x y) : p = q := by
  rcases hp with ⟨h1, h2⟩ | ⟨h1, h2⟩
  · rcases hq with ⟨h3, h4⟩ | ⟨h3, h4⟩
    · rw [← h2, ← h4]
    · rw [← h2, h4, ← h1, h3]
  · rcases hq with ⟨h3, h4⟩ | ⟨h3, h4⟩
    · rw [← h1, h3, ← h2, h4]
    · rw [← h1, ← h3]

theorem oneID_edge (name x y : GoString) : OneID name (edgeRegister x y) := by
  intro a b ha hb hw
  obtain ⟨p, hs, hp⟩ := (edge_write_iff ha name x y).mp hw
  rw [edge_write_iff hb, id_eq_iff, hs]
  refine ⟨fun ⟨q, hsb, hq⟩ => ?_, fun h => ⟨p, h, hp⟩⟩
  rw [hsb, sameSlot_peer hp hq]

/-! ## The node's own run -/

/-- A sequence of calls with the clock readings they made. -/
def announceAll [Ed25519] (p : Plane) (calls : List (Announcement × Int64)) : Plane :=
  calls.foldl (fun p c => (p.announce c.1 c.2).1) p

/-- The outbox says, of every register, what was last written to it since `start`. -/
structure Summary (name : GoString) (start p : Plane) : Prop where
  nodeName : p.nodeName = name
  inv : p.g.Inv
  /-- An entry is an announcement, under its own ID. -/
  entry : ∀ id e, p.outbox.get? id = some e →
    e.id = id ∧ ∃ a, Textual a ∧ id = a.id name ∧ e.fact = a.fact name
  /-- An entry that writes a register is what the register holds. -/
  holds : ∀ {V : Type} (r : Register V), OneID name r → ∀ id e v,
    p.outbox.get? id = some e → r.write e.fact = some v → r.read p = v
  /-- A register no entry writes is as it was. -/
  rest : ∀ {V : Type} (r : Register V), OneID name r →
    (∀ id e, p.outbox.get? id = some e → r.write e.fact = none) → r.read p = r.read start

theorem summary_new (name : GoString) (priv : Option Ed25519Private)
    (lookup : Option (GoString → Option Ed25519Public)) :
    Summary name (newPlane name priv lookup) (newPlane name priv lookup) where
  nodeName := rfl
  inv := Graph.inv_new
  entry := by intro id e h; simp [newPlane] at h
  holds := by intro V r _ id e v h; simp [newPlane] at h
  rest := fun _ _ _ => rfl

section Replay

variable [Ed25519]

/-- What one announcement does to a register. -/
theorem read_announce {p : Plane} (h : p.g.Inv) (a : Announcement) (ts : Int64) {V : Type}
    (r : Register V) :
    r.read (p.announce a ts).1 = (r.write (a.fact p.nodeName)).getD (r.read p) := by
  have hstore : r.read (p.store (p.announce a ts).2) = r.read p := r.read_tables p _ _
  rw [Plane.announce_plane, r.read_apply (show (p.store _).g.Inv from h), hstore,
    Plane.announce_fact]

theorem summary_announce {name : GoString} {start p : Plane} (h : Summary name start p)
    {a : Announcement} (ha : Textual a) (ts : Int64) :
    Summary name start (p.announce a ts).1 := by
  have hname := h.nodeName
  have hout := Plane.announce_outbox p a ts
  have hread := fun {V : Type} (r : Register V) => read_announce h.inv a ts r
  have hfact : (p.announce a ts).2.fact = a.fact name := by rw [Plane.announce_fact, hname]
  rw [hname] at hout
  simp only [hname] at hread
  refine ⟨?_, ?_, ?_, ?_, ?_⟩
  · rw [Plane.announce_nodeName]; exact hname
  · exact Plane.inv_announce h.inv a ts
  · intro id e he
    rw [hout, GoMap.get?_set] at he
    split at he
    · rename_i hid
      cases he
      refine ⟨?_, a, ha, hid, hfact⟩
      rw [Plane.announce_id, hname, hid]
    · exact h.entry id e he
  · intro V r hr id e v he hv
    rw [hread r]
    rw [hout, GoMap.get?_set] at he
    split at he
    · cases he
      rw [hfact] at hv
      rw [hv]; rfl
    · rename_i hid
      -- a register has one ID, so the call cannot have written this one
      obtain ⟨_, b, hb, hbid, hbf⟩ := h.entry id e he
      have hnone : r.write (a.fact name) = none := by
        by_contra hw
        have := (hr a b ha hb hw).mp (by rw [← hbf, hv]; simp)
        exact hid (hbid.trans this)
      rw [hnone]
      exact h.holds r hr id e v he hv
  · intro V r hr hno
    have hnone : r.write (a.fact name) = none := by
      rw [← hfact]
      refine hno (a.id name) _ ?_
      rw [hout, GoMap.get?_set_self]
    rw [hread r, hnone]
    refine h.rest r hr (fun id e he => ?_)
    by_cases hid : id = a.id name
    · -- the entry that was replaced wrote what the new one writes
      obtain ⟨_, b, hb, hbid, hbf⟩ := h.entry id e he
      by_contra hw
      rw [hbf] at hw
      exact absurd hnone ((hr b a hb ha hw).mpr (hid.symm.trans hbid))
    · refine hno id e ?_
      rw [hout, GoMap.get?_set_ne _ _ hid]
      exact he

/-- **After every call the outbox is a summary.** -/
theorem summary_announceAll {name : GoString} {start p : Plane} (h : Summary name start p)
    {calls : List (Announcement × Int64)} (hc : ∀ c ∈ calls, Textual c.1) :
    Summary name start (announceAll p calls) := by
  induction calls generalizing p with
  | nil => exact h
  | cons c calls ih =>
      exact ih (summary_announce h (hc c (by simp)) c.2) (fun d hd => hc d (by simp [hd]))

/-! ## The newcomer's run -/

/-- A plane that receives a summary has every register where its owner has it. -/
theorem read_replay {name : GoString} {start p : Plane} (h : Summary name start p) {q : Plane}
    (hq : q.g.Inv) (hseen : ∀ id ts, Newer q.seen id ts) {envs : List Envelope}
    (hcov : ∀ e, e ∈ envs ↔ e ∈ p.resendOutbox) (hv : q.AllVerify envs)
    {V : Type} (r : Register V) (hr : OneID name r) (hinit : r.read q = r.read start) :
    r.read (q.receiveAll envs) = r.read p := by
  have hentry : ∀ e ∈ envs, p.outbox.get? e.id = some e := by
    intro e he
    obtain ⟨id, hid⟩ := GoMap.mem_values.mp ((hcov e).mp he)
    rw [(h.entry id e hid).1]; exact hid
  by_cases hex : ∃ e ∈ envs, r.write e.fact ≠ none
  · obtain ⟨e, he, hw⟩ := hex
    obtain ⟨v, hwv⟩ := Option.ne_none_iff_exists'.mp hw
    obtain ⟨_, a, ha, haid, haf⟩ := h.entry e.id e (hentry e he)
    -- the outbox has one entry per ID, so each is the newest of its own
    have hnewest : Newest Envelope.id Envelope.ts envs e := by
      refine ⟨he, fun f hf hid hne => absurd ?_ hne⟩
      have := hentry f hf
      rw [hid, hentry e he] at this
      exact (Option.some.inj this).symm
    rw [h.holds r hr e.id e v (hentry e he) hwv]
    refine r.read_receiveAll_newest hq hv hnewest (hseen _ _) hwv (fun f hf hwf => ?_)
    obtain ⟨_, b, hb, hbid, hbf⟩ := h.entry f.id f (hentry f hf)
    rw [haid, hbid]
    exact (hr a b ha hb (by rw [← haf]; exact hw)).mp (by rw [← hbf]; exact hwf)
  · have hno : ∀ e ∈ envs, r.write e.fact = none := by
      intro e he
      by_contra hw
      exact hex ⟨e, he, hw⟩
    rw [r.read_receiveAll_untouched hq hv hno, hinit]
    refine (h.rest r hr (fun id e he => hno e ((hcov e).mpr ?_))).symm
    exact GoMap.mem_values.mpr ⟨id, he⟩

/--
**Outbox replay reconstructs the node's facts.** Whatever edges and subnets a
node announced and withdrew, a fresh plane that receives its outbox, in any
order, ends with the subnets of that node and the edges at it.
-/
theorem outbox_replay_reconstructs (x : GoString) (priv : Option Ed25519Private)
    (lookup : Option (GoString → Option Ed25519Public)) (calls : List (Announcement × Int64))
    (hcalls : ∀ c ∈ calls, Textual c.1) (name : GoString) (priv' : Option Ed25519Private)
    (lookup' : Option (GoString → Option Ed25519Public)) (envs : List Envelope)
    (hcov : ∀ e, e ∈ envs ↔ e ∈ (announceAll (newPlane x priv lookup) calls).resendOutbox)
    (hv : (newPlane name priv' lookup').AllVerify envs) :
    ((newPlane name priv' lookup').receiveAll envs).g.nodeSubnets x
        = (announceAll (newPlane x priv lookup) calls).g.nodeSubnets x
      ∧ ((newPlane name priv' lookup').receiveAll envs).g.edges.filter
            (fun e => e.src = x ∨ e.dst = x)
          = (announceAll (newPlane x priv lookup) calls).g.edges.filter
            (fun e => e.src = x ∨ e.dst = x) := by
  have hsum := summary_announceAll (summary_new x priv lookup) hcalls
  have hread := fun {V : Type} (r : Register V) (hr : OneID x r) hinit =>
    read_replay hsum (q := newPlane name priv' lookup') Graph.inv_new (fun _ _ => newer_empty _ _)
      hcov hv r hr hinit
  refine ⟨?_, ?_⟩
  · ext s
    have h := hread (subnetRegister x s) (oneID_subnet x x s) rfl
    simpa [subnetRegister] using h
  · have hinv : ((newPlane name priv' lookup').receiveAll envs).g.Inv :=
      Plane.inv_receiveAll Graph.inv_new envs
    have hedges := (Graph.edges_eq_iff hinv hsum.inv).mpr
      (fun a b => hread (edgeRegister a b) (oneID_edge x a b) rfl)
    rw [hedges]

end Replay

section ReplaySample

attribute [local instance] clearEd25519

/-- Two edges of which one is withdrawn, a subnet withdrawn and announced again, a self-edge. -/
def sampleCalls : List (Announcement × Int64) :=
  [(.addEdge (str "b") 10, 1), (.addEdge (str "c") 20, 2), (.addSubnet (str "10.1.0.0/24"), 3),
    (.delEdge (str "c"), 4), (.delSubnet (str "10.1.0.0/24"), 5), (.addEdge (str "a") 1, 6),
    (.delSubnet (str "10.9.0.0/24"), 7), (.addSubnet (str "10.1.0.0/24"), 8)]

/-- What is left of them in the outbox, in the order a newcomer may get it. -/
def sampleResent : List Envelope :=
  [(.delSubnet (str "10.9.0.0/24"), 7), (.addEdge (str "a") 1, 6), (.addEdge (str "b") 10, 1),
    (.addSubnet (str "10.1.0.0/24"), 8), (.delEdge (str "c"), 4)].map
    fun c => ((newPlane (str "a") none none).announce c.1 c.2).2

theorem outbox_replay_reconstructs_sample :
    ((newPlane (str "d") none none).receiveAll sampleResent).g.nodeSubnets (str "a")
        = (announceAll (newPlane (str "a") none none) sampleCalls).g.nodeSubnets (str "a")
      ∧ ((newPlane (str "d") none none).receiveAll sampleResent).g.edges.filter
            (fun e => e.src = str "a" ∨ e.dst = str "a")
          = (announceAll (newPlane (str "a") none none) sampleCalls).g.edges.filter
            (fun e => e.src = str "a" ∨ e.dst = str "a") := by
  have hout : (announceAll (newPlane (str "a") none none) sampleCalls).resendOutbox
      = (sampleResent : Multiset Envelope) := by decide +kernel
  refine outbox_replay_reconstructs (str "a") none none sampleCalls ?_ (str "d") none none
    sampleResent (fun e => by rw [hout, Multiset.mem_coe])
    (Plane.allVerify_unkeyed Graph.inv_new rfl (fun _ => rfl) (by decide +kernel))
  intro c hc
  simp only [sampleCalls, List.mem_cons, List.not_mem_nil, or_false] at hc
  rcases hc with rfl | rfl | rfl | rfl | rfl | rfl | rfl | rfl <;> exact rfl

end ReplaySample

end Gsnet.Proof
