import Gsnet.Gossip.Network

/-!
# Flooding

On a network whose links do not change, `Receive` hands news on to everybody, the
sender included, and drops the rest. A node therefore passes on each version at
most once, and the flood ends. A link along which one end knows more than the
other always has a message under way (`handed`), so when it ends the whole
component knows the newest version.

The number of messages is settled by a balance: what was delivered and what is
still under way add up to what all broadcasts have sent.
-/

namespace Gsnet.Proof

open Gsnet Go Gossip Lib

variable {ι : Type} [DecidableEq ι]

/-- The envelopes announced so far. -/
def originated (net : Net ι) : Finset Envelope := (net.log.map Prod.snd).toFinset

/-- Those of them a node has seen, or seen superseded. -/
def known (net : Net ι) (i : ι) : Finset Envelope :=
  (originated net).filter fun e => net.Knows i e.id e.ts

/-- The calls of `Broadcast` at a node, from `Receive` and from `originate`. -/
def broadcasts (net : Net ι) (i : ι) : Nat := net.relayed i + net.log.countP fun o => o.1 = i

omit [DecidableEq ι] in
theorem mem_originated {net : Net ι} {e : Envelope} :
    e ∈ originated net ↔ ∃ o ∈ net.log, o.2 = e := by
  unfold originated
  rw [List.mem_toFinset, List.mem_map]

omit [DecidableEq ι] in
theorem mem_known {net : Net ι} {i : ι} {e : Envelope} :
    e ∈ known net i ↔ e ∈ originated net ∧ net.Knows i e.id e.ts := Finset.mem_filter

section Flooding

variable [Ed25519]

/-- Verified deliveries and announcements, each newer than all before it under its ID. -/
def Flooding (net : Net ι) : NetStep ι → Prop
  | .announce i an ts => ∀ o ∈ net.log, o.2.id = an.id (net.plane i).nodeName → o.2.ts < ts
  | .deliver i env => (net.plane i).verify env = true
  | .resend _ => False
  | .link _ _ => False

instance (net : Net ι) : ∀ a : NetStep ι, Decidable (Flooding net a)
  | .announce i an ts =>
    inferInstanceAs (Decidable (∀ o ∈ net.log, o.2.id = an.id (net.plane i).nodeName → o.2.ts < ts))
  | .deliver i env => inferInstanceAs (Decidable ((net.plane i).verify env = true))
  | .resend _ => inferInstanceAs (Decidable False)
  | .link _ _ => inferInstanceAs (Decidable False)

omit [DecidableEq ι] in
theorem Flooding.verified {net : Net ι} {a : NetStep ι} (h : Flooding net a) :
    net.Verified a := by
  cases a with
  | deliver i env => exact h
  | announce i an ts => trivial
  | resend i => trivial
  | link i j => trivial

/-- What holds while the flood is on. -/
structure Flooded (net : Net ι) : Prop where
  /-- Everything comes from an announcement. -/
  sourced : net.Sourced
  /-- A node has seen what it announced. -/
  own : ∀ o ∈ net.log, net.Knows o.1 o.2.id o.2.ts
  /-- What a node has seen its neighbours have seen or will. -/
  handed : ∀ v k t, net.Knows v k t → ∀ u ∈ net.conns v, net.Covered u k t
  /-- A node broadcasts no more than it has learned. -/
  sent : ∀ i, broadcasts net i ≤ (known net i).card

omit [Ed25519] in
theorem flooded_start (name : ι → GoString) (priv : ι → Option Ed25519Private)
    (lookup : ι → Option (GoString → Option Ed25519Public)) (links : List (ι × ι)) :
    Flooded (Net.start (fun i => newPlane (name i) (priv i) (lookup i)) links) := by
  have hs := Net.sourced_start name priv lookup links
  refine ⟨hs, fun o ho => absurd ho List.not_mem_nil, ?_, fun i => Nat.zero_le _⟩
  rintro v k t ⟨t', hget, _⟩
  obtain ⟨o, ho, _⟩ := hs.seen v k t' hget
  exact absurd ho List.not_mem_nil

section Step

variable {net net' : Net ι} {a : NetStep ι}

omit [DecidableEq ι] in
/-- An announcement is not older than what is about already. -/
theorem not_older (hs : net.Sourced) (hok : Flooding net a) {w : ι} {k : GoString} {t : Int64}
    (hc : net.Covered w k t) :
    ¬ ∃ an ts, a = .announce w an ts ∧ an.id (net.plane w).nodeName = k ∧ ts < t := by
  rintro ⟨an, ts, rfl, rfl, hlt⟩
  obtain ⟨o, ho, hid, hle⟩ := hs.covered hc
  exact absurd (hok o ho hid) (not_lt.mpr (hlt.le.trans hle))

/-- So nothing is forgotten. -/
theorem knows_mono (hs : net.Sourced) (hok : Flooding net a) (h : net.act a = some net') {w : ι}
    {k : GoString} {t : Int64} (hk : net.Knows w k t) : net'.Knows w k t := by
  rcases Net.knows_step hok.verified h hk with hk' | hex
  · exact hk'
  · exact absurd hex (not_older hs hok (Or.inl hk))

theorem covered_mono (hs : net.Sourced) (hok : Flooding net a) (h : net.act a = some net')
    {w : ι} {k : GoString} {t : Int64} (hc : net.Covered w k t) : net'.Covered w k t := by
  rcases Net.covered_step hok.verified h hc with hc' | hex
  · exact hc'
  · exact absurd hex (not_older hs hok hc)

theorem conns_step (hok : Flooding net a) (h : net.act a = some net') (i : ι) :
    net'.conns i = net.conns i := by
  rcases Net.links_step hok.verified h with hl | ⟨_, _, rfl, _⟩
  · unfold Net.conns
    rw [hl]
  · exact hok.elim

theorem flooded_own_step (hf : Flooded net) (hok : Flooding net a) (h : net.act a = some net') :
    ∀ o ∈ net'.log, net'.Knows o.1 o.2.id o.2.ts := by
  intro o ho
  rcases Net.log_step h with hl | ⟨i, an, ts, rfl, hl⟩
  · rw [hl] at ho
    exact knows_mono hf.sourced hok h (hf.own o ho)
  · rw [hl] at ho
    rcases List.mem_append.mp ho with ho | ho
    · exact knows_mono hf.sourced hok h (hf.own o ho)
    · cases List.mem_singleton.mp ho
      exact (Net.takes_announce h).knows

theorem flooded_handed_step (hf : Flooded net) (hok : Flooding net a) (h : net.act a = some net')
    {v : ι} {k : GoString} {t : Int64} (hk : net'.Knows v k t) {u : ι} (hu : u ∈ net'.conns v) :
    net'.Covered u k t := by
  by_cases hkold : net.Knows v k t
  · rw [conns_step hok h] at hu
    exact covered_mono hf.sourced hok h (hf.handed v k t hkold u hu)
  · exact Net.tells_step hok.verified h hkold hk u hu

/-! ### Counting -/

theorem known_subset (hs : net.Sourced) (hok : Flooding net a) (h : net.act a = some net')
    (i : ι) : known net i ⊆ known net' i := by
  intro e he
  obtain ⟨horig, hk⟩ := mem_known.mp he
  obtain ⟨o, ho, heq⟩ := mem_originated.mp horig
  exact mem_known.mpr ⟨mem_originated.mpr ⟨o, Net.mem_log_step h ho, heq⟩,
    knows_mono hs hok h hk⟩

/--
**What a step broadcasts.** A delivery that is dropped moves one message from
under way to delivered. Otherwise one node takes in what it has not known and sends
it down all its connections.
-/
theorem broadcasts_step (hs : net.Sourced) (hok : Flooding net a) (h : net.act a = some net') :
    ((∀ i, broadcasts net' i = broadcasts net i)
        ∧ net'.delivered + net'.flight.card = net.delivered + net.flight.card)
      ∨ ∃ j e, (∀ i, broadcasts net' i = broadcasts net i + if i = j then 1 else 0)
          ∧ Net.Takes net net' j e ∧ e ∉ known net j ∧ e ∈ originated net'
          ∧ net'.delivered + net'.flight.card
              = net.delivered + net.flight.card + (net.conns j).length := by
  cases a with
  | announce j an ts =>
      have ht := Net.takes_announce h
      -- the envelope is newer than all that have its ID
      have hnew : ((net.plane j).announce an ts).2 ∉ known net j := by
        intro hmem
        obtain ⟨o, ho, heq⟩ := mem_originated.mp (mem_known.mp hmem).1
        have hlt := hok o ho (by rw [heq, Plane.announce_id])
        rw [heq, Plane.announce_ts] at hlt
        exact lt_irrefl _ hlt
      cases h
      refine Or.inr ⟨j, _, fun i => ?_, ht, hnew, ?_, ?_⟩
      · by_cases hij : i = j
        · subst hij
          simp [broadcasts, Nat.add_assoc]
        · simp [broadcasts, hij, Ne.symm hij]
      · exact mem_originated.mpr ⟨_, List.mem_append_right _ (List.mem_singleton.mpr rfl), rfl⟩
      · show net.delivered + (net.flight + net.broadcast j _).card = _
        rw [Multiset.card_add, Net.card_broadcast, Nat.add_assoc]
  | deliver j env =>
      obtain ⟨hmem, ⟨hn, rfl⟩ | ⟨_, rfl⟩⟩ := Net.act_deliver hok h
      · have hcard := Multiset.card_erase_add_one hmem
        refine Or.inr ⟨j, env, fun i => ?_, Net.takes_passOn hok hn, ?_, ?_, ?_⟩
        · by_cases hij : i = j
          · subst hij
            simp [broadcasts, Net.passOn, Nat.add_right_comm]
          · simp [broadcasts, Net.passOn, hij]
        · exact fun hk => Net.knows_iff_not_newer.mp (mem_known.mp hk).2 hn
        · exact mem_originated.mpr (hs.flight j env hmem)
        · have hb := Net.card_broadcast net j env
          show net.delivered + 1 + (net.flight.erase (j, env) + net.broadcast j env).card = _
          rw [Multiset.card_add]
          omega
      · have hcard := Multiset.card_erase_add_one hmem
        refine Or.inl ⟨fun i => rfl, ?_⟩
        show net.delivered + 1 + (net.flight.erase (j, env)).card = _
        omega
  | resend j => exact hok.elim
  | link j l => exact hok.elim

/-- Taking in something new adds to what is known. -/
theorem known_card_lt (hs : net.Sourced) (hok : Flooding net a) (h : net.act a = some net')
    {i : ι} {e : Envelope} (hold : e ∉ known net i) (ht : Net.Takes net net' i e)
    (horig : e ∈ originated net') : (known net i).card < (known net' i).card :=
  Finset.card_lt_card (Finset.ssubset_iff_of_subset (known_subset hs hok h i) |>.mpr
    ⟨e, mem_known.mpr ⟨horig, ht.knows⟩, hold⟩)

theorem flooded_sent_step (hf : Flooded net) (hok : Flooding net a) (h : net.act a = some net')
    (i : ι) : broadcasts net' i ≤ (known net' i).card := by
  have hsub := Finset.card_le_card (known_subset hf.sourced hok h i)
  have hsent := hf.sent i
  rcases broadcasts_step hf.sourced hok h with ⟨hb, _⟩ | ⟨j, e, hb, ht, hnew, horig, _⟩
  · rw [hb]
    omega
  · rw [hb]
    by_cases hij : i = j
    · subst hij
      have hlt := known_card_lt hf.sourced hok h hnew ht horig
      rw [if_pos rfl]
      omega
    · rw [if_neg hij]
      omega

/-- **Preserved by every step.** -/
theorem flooded_step (hf : Flooded net) (hok : Flooding net a) (h : net.act a = some net') :
    Flooded net' where
  sourced := Net.sourced_step hf.sourced hok.verified h
  own := flooded_own_step hf hok h
  handed := fun _ _ _ hk _ hu => flooded_handed_step hf hok h hk hu
  sent := flooded_sent_step hf hok h

/-- What was delivered and what is under way is what was sent. -/
def Balanced [Fintype ι] (net : Net ι) : Prop :=
  net.delivered + net.flight.card = ∑ i, broadcasts net i * (net.conns i).length

theorem balanced_step [Fintype ι] (hf : Flooded net) (hb : Balanced net) (hok : Flooding net a)
    (h : net.act a = some net') : Balanced net' := by
  unfold Balanced at hb ⊢
  rcases broadcasts_step hf.sourced hok h with ⟨hsame, hbal⟩ | ⟨j, e, hone, _, _, _, hbal⟩
  · rw [hbal, hb]
    simp only [hsame, conns_step hok h]
  · rw [hbal, hb]
    simp only [hone, conns_step hok h, Nat.add_mul, ite_mul, one_mul, zero_mul,
      Finset.sum_add_distrib, Finset.sum_ite_eq', Finset.mem_univ, if_true]

end Step

theorem flooded_reached [Fintype ι] {name : ι → GoString} {priv : ι → Option Ed25519Private}
    {lookup : ι → Option (GoString → Option Ed25519Public)} {links : List (ι × ι)} {net : Net ι}
    (h : Reached Net.act Flooding
      (Net.start (fun i => newPlane (name i) (priv i) (lookup i)) links) net) :
    Flooded net ∧ Balanced net := by
  refine h.invariant (I := fun net => Flooded net ∧ Balanced net)
    ⟨flooded_start name priv lookup links, ?_⟩
    (fun _ _ _ hs hok hact => ⟨flooded_step hs.1 hok hact, balanced_step hs.1 hs.2 hok hact⟩)
  simp [Balanced, broadcasts, Net.start]

/--
**Flooding ends and covers.** `Receive` broadcasts at most once per node and
announcement, so the number of deliveries is bounded; and when nothing is under
way, everybody connected to the origin has recorded the newest version.
-/
theorem flooding_ends_and_covers [Fintype ι] (name : ι → GoString)
    (priv : ι → Option Ed25519Private) (lookup : ι → Option (GoString → Option Ed25519Public))
    (links : List (ι × ι)) (net : Net ι)
    (h : Reached Net.act Flooding
      (Net.start (fun i => newPlane (name i) (priv i) (lookup i)) links) net) :
    ∑ i, net.relayed i ≤ Fintype.card ι * (originated net).card
      ∧ net.delivered ≤ (originated net).card * ∑ i, (net.conns i).length
      ∧ (net.flight = 0 → ∀ o ∈ net.log,
          (∀ o' ∈ net.log, o'.2.id = o.2.id → o'.2.ts ≤ o.2.ts) →
          ∀ y, Relation.ReflTransGen net.Linked o.1 y →
            (net.plane y).seen.get? o.2.id = some o.2.ts) := by
  obtain ⟨hf, hbal⟩ := flooded_reached h
  have hbound : ∀ i, broadcasts net i ≤ (originated net).card := fun i =>
    (hf.sent i).trans (Finset.card_le_card (Finset.filter_subset _ _))
  refine ⟨?_, ?_, ?_⟩
  · have hrel : ∀ i ∈ Finset.univ, net.relayed i ≤ (originated net).card := fun i _ =>
      (Nat.le_add_right _ _).trans (hbound i)
    exact Finset.sum_le_card_nsmul _ _ _ hrel
  · calc net.delivered ≤ net.delivered + net.flight.card := Nat.le_add_right _ _
      _ = ∑ i, broadcasts net i * (net.conns i).length := hbal
      _ ≤ ∑ i, (originated net).card * (net.conns i).length :=
          Finset.sum_le_sum fun i _ => Nat.mul_le_mul_right _ (hbound i)
      _ = (originated net).card * ∑ i, (net.conns i).length := Finset.mul_sum _ _ _ |>.symm
  · intro hquiet o ho hmax y hpath
    have key : net.Knows y o.2.id o.2.ts := by
      induction hpath with
      | refl => exact hf.own o ho
      | tail _ hvu ih => exact (hf.handed _ _ _ ih _ hvu).knows hquiet
    -- what is recorded was announced, so it is not above the highest
    obtain ⟨t, hget, hle⟩ := key
    obtain ⟨o', ho', hid, rfl⟩ := hf.sourced.seen y o.2.id t hget
    rw [hget, le_antisymm (hmax o' ho' hid) hle]

end Flooding

section Samples

attribute [local instance] clearEd25519

/-- One announcement on a triangle, until nothing is under way. -/
def triangleRun : List (NetStep Trio) :=
  [.announce .a trioCall 1, .deliver .b trioFact, .deliver .c trioFact, .deliver .c trioFact,
    .deliver .a trioFact, .deliver .b trioFact, .deliver .a trioFact]

theorem flooding_ends_and_covers_triangle :
    ∃ net : Net Trio, Reached Net.act Flooding (trio [(.a, .b), (.b, .c), (.c, .a)]) net
      ∧ net.delivered = 6 ∧ (originated net).card = 1
      ∧ ∑ i, net.relayed i ≤ Fintype.card Trio * (originated net).card
      ∧ (net.plane .c).seen.get? trioFact.id = some 1 := by
  obtain ⟨net, hnet, hquiet, hcount, hlog, hone, hlinked⟩ :
      ∃ net : Net Trio, Reached Net.act Flooding (trio [(.a, .b), (.b, .c), (.c, .a)]) net
        ∧ net.flight = 0 ∧ net.delivered = 6 ∧ net.log = [(.a, trioFact)]
        ∧ (originated net).card = 1 ∧ .c ∈ net.conns .a :=
    exists_reached_of_runActs triangleRun (by decide +kernel)
  obtain ⟨hrel, _, hcov⟩ := flooding_ends_and_covers trioName (fun _ => none) (fun _ => none)
    [(.a, .b), (.b, .c), (.c, .a)] net hnet
  refine ⟨net, hnet, hcount, hone, hrel, ?_⟩
  refine hcov hquiet (.a, trioFact) (by rw [hlog]; simp) ?_ .c (.single hlinked)
  intro o' ho' _
  rw [hlog, List.mem_singleton] at ho'
  rw [ho']

end Samples

end Gsnet.Proof
