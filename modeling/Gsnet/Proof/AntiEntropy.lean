import Gsnet.Gossip.Network

/-!
# Anti-entropy

`ResendOutbox` repeats what a node announced itself, under the timestamps it had.
A neighbour that has it already drops it, and what is dropped is not handed on:
a fact gets past such a neighbour only over the links it had when it learned the
fact. A node that joins behind it later never hears of it.

The outboxes are enough where links come up between nodes that are level: what
one has seen of the facts of others, the other has seen too. Two invariants carry
this over a run. What a node has seen and does not announce itself, its neighbours
have seen or will (`handed`). What it does announce, they have seen or will once
it was re-sent (`repeated`).
-/

namespace Gsnet.Proof

open Gsnet Go Gossip Lib

variable {ι : Type} [DecidableEq ι]

/--
Whatever the first node has seen of a fact that neither of the two announces, the
second has seen as well or will.
-/
def Abreast (net : Net ι) (i j : ι) : Prop :=
  ∀ k t, (net.plane i).seen.get? k = some t → (net.plane i).outbox.get? k = none →
    (net.plane j).outbox.get? k = none → net.Covered j k t

def Level (net : Net ι) (i j : ι) : Prop := Abreast net i j ∧ Abreast net j i

instance (net : Net ι) (i j : ι) : Decidable (Abreast net i j) :=
  decidable_of_iff
    (∀ m ∈ (net.plane i).seen.entries, (net.plane i).outbox.get? m.1 = none →
      (net.plane j).outbox.get? m.1 = none → net.Covered j m.1 m.2)
    ⟨fun h k t hget => h (k, t) (GoMap.mem_entries.mpr hget),
      fun h m hm => h m.1 m.2 (GoMap.mem_entries.mp hm)⟩

instance (net : Net ι) (i j : ι) : Decidable (Level net i j) :=
  inferInstanceAs (Decidable (_ ∧ _))

section Spread

variable [Ed25519]

/-- Links come up between nodes that are level, and no two nodes announce under one ID. -/
def LevelLinks (net : Net ι) : NetStep ι → Prop
  | .announce i an _ => ∀ o ∈ net.log, o.2.id = an.id (net.plane i).nodeName → o.1 = i
  | .deliver i env => (net.plane i).verify env = true
  | .resend _ => True
  | .link i j => Level net i j

instance (net : Net ι) : ∀ a : NetStep ι, Decidable (LevelLinks net a)
  | .announce i an _ =>
    inferInstanceAs (Decidable (∀ o ∈ net.log, o.2.id = an.id (net.plane i).nodeName → o.1 = i))
  | .deliver i env => inferInstanceAs (Decidable ((net.plane i).verify env = true))
  | .resend _ => inferInstanceAs (Decidable True)
  | .link i j => inferInstanceAs (Decidable (Level net i j))

omit [DecidableEq ι] in
theorem LevelLinks.verified {net : Net ι} {a : NetStep ι} (h : LevelLinks net a) :
    net.Verified a := by
  cases a with
  | deliver i env => exact h
  | announce i an ts => trivial
  | resend i => trivial
  | link i j => trivial

/-- What the links carry. -/
structure Spread (net : Net ι) : Prop where
  /-- Everything comes from an announcement. -/
  sourced : net.Sourced
  /-- An ID belongs to one node. -/
  unshared : ∀ o ∈ net.log, ∀ o' ∈ net.log, o.2.id = o'.2.id → o.1 = o'.1
  /-- A node has seen what it announces. -/
  own : ∀ x k e, (net.plane x).outbox.get? k = some e → net.Knows x k e.ts
  /-- Once re-sent, what a node announces has reached its neighbours or will. -/
  repeated : ∀ x k e, net.resent x = true → (net.plane x).outbox.get? k = some e →
    ∀ u ∈ net.conns x, net.Covered u k e.ts
  /-- So has everything it does not announce. -/
  handed : ∀ v k t, net.Knows v k t → (net.plane v).outbox.get? k = none →
    ∀ u ∈ net.conns v, (net.plane u).outbox.get? k = none → net.Covered u k t

omit [Ed25519] in
theorem spread_start (name : ι → GoString) (priv : ι → Option Ed25519Private)
    (lookup : ι → Option (GoString → Option Ed25519Public)) (links : List (ι × ι)) :
    Spread (Net.start (fun i => newPlane (name i) (priv i) (lookup i)) links) := by
  have hs := Net.sourced_start name priv lookup links
  refine ⟨hs, fun o ho => absurd ho List.not_mem_nil, ?_, ?_, ?_⟩
  · intro x k e he
    exact absurd (hs.outbox x k e he).2 List.not_mem_nil
  · intro x k e _ he
    exact absurd (hs.outbox x k e he).2 List.not_mem_nil
  · rintro v k t ⟨t', hget, _⟩
    obtain ⟨o, ho, _⟩ := hs.seen v k t' hget
    exact absurd ho List.not_mem_nil

section Step

variable {net net' : Net ι} {a : NetStep ι}

theorem unshared_step (hs : Spread net) (hok : LevelLinks net a) (h : net.act a = some net') :
    ∀ o ∈ net'.log, ∀ o' ∈ net'.log, o.2.id = o'.2.id → o.1 = o'.1 := by
  rcases Net.log_step h with hl | ⟨i, an, ts, rfl, hl⟩
  · rw [hl]; exact hs.unshared
  · rw [hl]
    intro o ho o' ho' hid
    rcases List.mem_append.mp ho with ho | ho
    · rcases List.mem_append.mp ho' with ho' | ho'
      · exact hs.unshared o ho o' ho' hid
      · cases List.mem_singleton.mp ho'
        exact hok o ho (hid.trans (Plane.announce_id _ _ _))
    · cases List.mem_singleton.mp ho
      rcases List.mem_append.mp ho' with ho' | ho'
      · exact (hok o' ho' (hid.symm.trans (Plane.announce_id _ _ _))).symm
      · cases List.mem_singleton.mp ho'
        rfl

theorem own_step (hs : Spread net) (hok : LevelLinks net a) (h : net.act a = some net') {x : ι}
    {k : GoString} {e : Envelope} (he : (net'.plane x).outbox.get? k = some e) :
    net'.Knows x k e.ts := by
  rcases Net.outbox_step hok.verified h x k with ⟨an, ts, rfl, rfl, hnew⟩ | ⟨hno, hsame⟩
  · rw [hnew] at he
    cases he
    have ht := (Net.takes_announce h).knows
    rw [Plane.announce_id] at ht
    exact ht
  · rw [hsame] at he
    rcases Net.knows_step hok.verified h (hs.own x k e he) with hk | ⟨an, ts, ha, hid, _⟩
    · exact hk
    · exact absurd hid (hno an ts ha)

/-- A neighbour does not lose what is in an outbox: it does not announce under that ID. -/
theorem covered_step_outbox (hs : Spread net) (hok : LevelLinks net a)
    (h : net.act a = some net') {x u : ι} {k : GoString} {e : Envelope}
    (he : (net.plane x).outbox.get? k = some e)
    (hno : ∀ an ts, a = .announce x an ts → an.id (net.plane x).nodeName ≠ k)
    (hc : net.Covered u k e.ts) : net'.Covered u k e.ts := by
  rcases Net.covered_step hok.verified h hc with hc' | ⟨an, ts, rfl, hid, _⟩
  · exact hc'
  · obtain ⟨hek, hlog⟩ := hs.sourced.outbox x k e he
    have hxu : x = u := hok (x, e) hlog (hek.trans hid.symm)
    subst hxu
    exact absurd hid (hno an ts rfl)

theorem repeated_step (hs : Spread net) (hok : LevelLinks net a) (h : net.act a = some net')
    {x : ι} {k : GoString} {e : Envelope} (hr : net'.resent x = true)
    (he : (net'.plane x).outbox.get? k = some e) {u : ι} (hu : u ∈ net'.conns x) :
    net'.Covered u k e.ts := by
  rcases Net.outbox_step hok.verified h x k with ⟨an, ts, rfl, rfl, hnew⟩ | ⟨hno, hsame⟩
  · -- a new version goes to every neighbour at once
    rw [hnew] at he
    cases he
    exact Or.inr ⟨_, (Net.takes_announce h).told u hu, Plane.announce_id _ _ _, le_refl _⟩
  · rw [hsame] at he
    have keep : net.resent x = true → u ∈ net.conns x → net'.Covered u k e.ts :=
      fun hr hu => covered_step_outbox hs hok h he hno (hs.repeated x k e hr he u hu)
    cases a with
    | announce i an ts =>
        cases h
        exact keep hr hu
    | deliver i env =>
        obtain ⟨_, ⟨_, rfl⟩ | ⟨_, rfl⟩⟩ := Net.act_deliver hok h
        · exact keep hr hu
        · exact keep hr hu
    | resend i =>
        by_cases hxi : x = i
        · subst hxi
          cases h
          have hmem : (u, e) ∈ (net.plane x).resendOutbox.bind (net.broadcast x) :=
            Multiset.mem_bind.mpr ⟨e, GoMap.mem_values.mpr ⟨k, he⟩,
              Net.mem_broadcast.mpr ⟨hu, rfl⟩⟩
          exact Or.inr ⟨e, Multiset.mem_add.mpr (Or.inr hmem), (hs.sourced.outbox x k e he).1,
            le_refl _⟩
        · cases h
          simp only [Function.update_of_ne hxi] at hr
          exact keep hr hu
    | link i j =>
        -- nobody has re-sent anything since
        cases h
        cases hr

theorem handed_step (hs : Spread net) (hok : LevelLinks net a) (h : net.act a = some net')
    {v : ι} {k : GoString} {t : Int64} (hk : net'.Knows v k t)
    (hv : (net'.plane v).outbox.get? k = none) {u : ι} (hu : u ∈ net'.conns v)
    (hun : (net'.plane u).outbox.get? k = none) : net'.Covered u k t := by
  by_cases hkold : net.Knows v k t
  · rcases Net.outbox_step hok.verified h v k with ⟨_, _, _, _, hnew⟩ | ⟨_, hvsame⟩
    · rw [hnew] at hv; cases hv
    rcases Net.outbox_step hok.verified h u k with ⟨_, _, _, _, hnew⟩ | ⟨hno, husame⟩
    · rw [hnew] at hun; cases hun
    rw [hvsame] at hv
    rw [husame] at hun
    -- an old link covered it, and a new one is between level nodes
    have hold : net.Covered u k t := by
      obtain ⟨t', hget, hle⟩ := hkold
      rcases Net.mem_conns_step hok.verified h hu with hu | rfl | rfl
      · exact hs.handed v k t ⟨t', hget, hle⟩ hv u hu hun
      · exact (hok.1 k t' hget hv hun).le hle
      · exact (hok.2 k t' hget hv hun).le hle
    rcases Net.covered_step hok.verified h hold with hc | ⟨an, ts, ha, hid, _⟩
    · exact hc
    · exact absurd hid (hno an ts ha)
  · exact Net.tells_step hok.verified h hkold hk u hu

/-- **Preserved by every step.** -/
theorem spread_step (hs : Spread net) (hok : LevelLinks net a) (h : net.act a = some net') :
    Spread net' where
  sourced := Net.sourced_step hs.sourced hok.verified h
  unshared := unshared_step hs hok h
  own := fun _ _ _ he => own_step hs hok h he
  repeated := fun _ _ _ hr he _ hu => repeated_step hs hok h hr he hu
  handed := fun _ _ _ hk hv _ hu hun => handed_step hs hok h hk hv hu hun

end Step

/--
**The outboxes reach everybody.** When nothing is under way and everybody has
re-sent its outbox since the last link came up, everybody connected to a node has
seen what is in its outbox, if links only came up between nodes that were level.
-/
theorem resent_outboxes_reach (name : ι → GoString) (priv : ι → Option Ed25519Private)
    (lookup : ι → Option (GoString → Option Ed25519Public)) (links : List (ι × ι)) (net : Net ι)
    (h : Reached Net.act LevelLinks
      (Net.start (fun i => newPlane (name i) (priv i) (lookup i)) links) net)
    (hquiet : net.flight = 0) (hresent : ∀ i, net.resent i = true) (x y : ι)
    (hpath : Relation.ReflTransGen net.Linked x y) (k : GoString) (e : Envelope)
    (he : (net.plane x).outbox.get? k = some e) :
    ∃ t, (net.plane y).seen.get? e.id = some t ∧ e.ts ≤ t := by
  have hs : Spread net := h.invariant (spread_start name priv lookup links)
    (fun _ _ _ hs hok hact => spread_step hs hok hact)
  obtain ⟨hid, hlog⟩ := hs.sourced.outbox x k e he
  subst hid
  -- only the node itself has the ID in its outbox
  have hother : ∀ u, u ≠ x → (net.plane u).outbox.get? e.id = none := by
    intro u hux
    cases hu : (net.plane u).outbox.get? e.id with
    | none => rfl
    | some e' =>
        obtain ⟨hid', hlog'⟩ := hs.sourced.outbox u e.id e' hu
        exact absurd (hs.unshared (u, e') hlog' (x, e) hlog hid') hux
  have key : net.Knows y e.id e.ts := by
    -- along the path, which may come back to the node itself
    induction hpath with
    | refl => exact hs.own x e.id e he
    | @tail v u _ hvu ih =>
        by_cases hux : u = x
        · subst hux
          exact hs.own u e.id e he
        · by_cases hvx : v = x
          · subst hvx
            exact (hs.repeated v e.id e (hresent v) he u hvu).knows hquiet
          · exact (hs.handed v e.id e.ts ih (hother v hvx) u hvu (hother u hux)).knows hquiet
  exact key

/-- Every announcement went out under an ID of its node. -/
def Named (name : ι → GoString) (net : Net ι) : Prop :=
  (∀ i, (net.plane i).nodeName = name i)
    ∧ ∀ o ∈ net.log, ∃ an, o.2.id = Announcement.id (name o.1) an

theorem named_step {name : ι → GoString} {net net' : Net ι} {a : NetStep ι} (hn : Named name net)
    (hv : net.Verified a) (h : net.act a = some net') : Named name net' := by
  refine ⟨fun i => (Net.nodeName_step hv h i).trans (hn.1 i), fun o ho => ?_⟩
  rcases Net.log_step h with hl | ⟨i, an, ts, _, hl⟩
  · rw [hl] at ho
    exact hn.2 o ho
  · rw [hl] at ho
    rcases List.mem_append.mp ho with ho | ho
    · exact hn.2 o ho
    · cases List.mem_singleton.mp ho
      exact ⟨an, by rw [Plane.announce_id, hn.1]⟩

/-- **Between nodes with valid names of their own only the links matter.** -/
theorem levelLinks_of_named {name : ι → GoString}
    (hvalid : ∀ i, Nodename.validate (name i) = .ok ())
    (hinj : Function.Injective name) {priv : ι → Option Ed25519Private}
    {lookup : ι → Option (GoString → Option Ed25519Public)} {links : List (ι × ι)} {net : Net ι}
    (h : Reached Net.act (fun net a => net.Verified a ∧ ∀ i j, a = .link i j → Level net i j)
      (Net.start (fun i => newPlane (name i) (priv i) (lookup i)) links) net) :
    Reached Net.act LevelLinks
      (Net.start (fun i => newPlane (name i) (priv i) (lookup i)) links) net := by
  have hstart : Named name (Net.start (fun i => newPlane (name i) (priv i) (lookup i)) links) :=
    ⟨fun _ => rfl, fun o ho => absurd ho List.not_mem_nil⟩
  refine (h.invariant (I := fun net => Named name net ∧ Reached Net.act LevelLinks
    (Net.start (fun i => newPlane (name i) (priv i) (lookup i)) links) net) ⟨hstart, .init⟩ ?_).2
  rintro net a net' ⟨hn, hr⟩ ⟨hv, hlevel⟩ hact
  refine ⟨named_step hn hv hact, .step hr ?_ hact⟩
  cases a with
  | announce i an ts =>
      intro o ho hid
      obtain ⟨an', han'⟩ := hn.2 o ho
      rw [han', hn.1] at hid
      exact hinj (Announcement.name_of_id (hvalid _) (hvalid _) hid)
  | deliver i env => exact hv
  | resend i => trivial
  | link i j => exact hlevel i j rfl

end Spread

/-! ## A late link -/

section Samples

attribute [local instance] clearEd25519

/-- The node `c` links to `a` after `a` and `b` are through, and everybody re-sends. -/
def joinAtSource : List (NetStep Trio) :=
  [.link .a .b, .announce .a trioCall 1, .deliver .b trioFact,
    .deliver .a trioFact, .link .a .c, .resend .a, .resend .b, .resend .c, .deliver .b trioFact,
    .deliver .c trioFact, .deliver .a trioFact]

/-- The same, but `c` links to `b`. -/
def joinBehind : List (NetStep Trio) :=
  [.link .a .b, .announce .a trioCall 1, .deliver .b trioFact,
    .deliver .a trioFact, .link .b .c, .resend .a, .resend .b, .resend .c, .deliver .b trioFact]

theorem resent_outboxes_reach_joined :
    ∃ net : Net Trio, Reached Net.act LevelLinks (trio []) net ∧ net.flight = 0
      ∧ (∀ i, net.resent i = true) ∧ (net.plane .a).outbox.get? trioFact.id = some trioFact
      ∧ ∃ t, (net.plane .c).seen.get? trioFact.id = some t ∧ trioFact.ts ≤ t := by
  obtain ⟨net, hnet, hquiet, hresent, hlinked, hout⟩ :
      ∃ net : Net Trio, Reached Net.act LevelLinks (trio []) net ∧ net.flight = 0
        ∧ (∀ i, net.resent i = true) ∧ .c ∈ net.conns .a
        ∧ (net.plane .a).outbox.get? trioFact.id = some trioFact :=
    exists_reached_of_runActs joinAtSource (by decide +kernel)
  refine ⟨net, hnet, hquiet, hresent, hout, ?_⟩
  exact resent_outboxes_reach trioName (fun _ => none) (fun _ => none) [] net hnet hquiet hresent
    .a .c (.single hlinked) _ _ hout

/-- **Behind a node that knows already nothing arrives**, however often it is re-sent. -/
theorem late_link_misses :
    ∃ net : Net Trio, Reached Net.act Net.Verified (trio []) net ∧ net.flight = 0
      ∧ (∀ i, net.resent i = true) ∧ Relation.ReflTransGen net.Linked .a .c
      ∧ (net.plane .a).outbox.get? trioFact.id = some trioFact
      ∧ (net.plane .c).seen.get? trioFact.id = none := by
  obtain ⟨net, hnet, hquiet, hresent, h01, h12, hout, hseen⟩ :
      ∃ net : Net Trio, Reached Net.act Net.Verified (trio []) net ∧ net.flight = 0
        ∧ (∀ i, net.resent i = true) ∧ .b ∈ net.conns .a ∧ .c ∈ net.conns .b
        ∧ (net.plane .a).outbox.get? trioFact.id = some trioFact
        ∧ (net.plane .c).seen.get? trioFact.id = none :=
    exists_reached_of_runActs joinBehind (by decide +kernel)
  exact ⟨net, hnet, hquiet, hresent, .tail (.single h01) h12, hout, hseen⟩

end Samples

end Gsnet.Proof
