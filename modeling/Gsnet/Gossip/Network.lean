import Gsnet.Gossip.Announce
import Gsnet.Lib.Machine

/-!
# A network of planes

Planes joined by links. `Broadcast` writes to every connection there is at that
moment (`transport.go`), a link delivers what was written, at any time, and the
receiver's `handleGossip` calls `Receive`. The heartbeat calls `ResendOutbox`.

A connection that is made later carries nothing of what was sent before it.

The second half says once what a step can do to what the nodes have seen, to
their outboxes and to the messages under way. The invariants of flooding and of
anti-entropy are about links and use nothing else.
-/

namespace Gsnet.Gossip

open Go Lib

structure Net (ι : Type) where
  plane : ι → Plane
  /-- The connections, usable both ways. -/
  links : List (ι × ι)
  /-- Messages written and not yet read, with the node they are for. -/
  flight : Multiset (ι × Envelope)
  /-- Ghost: what was announced, in order. -/
  log : List (ι × Envelope)
  /-- Ghost: who has re-sent its outbox since the last link came up. -/
  resent : ι → Bool
  /-- Ghost: the calls of `Broadcast` made from `Receive`. -/
  relayed : ι → Nat
  /-- Ghost: the calls of `Receive`. -/
  delivered : Nat

inductive NetStep (ι : Type) where
  | announce (i : ι) (a : Announcement) (ts : Int64)
  | deliver (i : ι) (env : Envelope)
  | resend (i : ι)
  | link (i j : ι)
  deriving DecidableEq

namespace Net

variable {ι : Type} [DecidableEq ι]

/-- The far ends of a link, seen from a node. -/
def ends (i : ι) (l : ι × ι) : List ι :=
  (if l.1 = i then [l.2] else []) ++ (if l.2 = i then [l.1] else [])

/-- The connections of a node. -/
def conns (net : Net ι) (i : ι) : List ι := net.links.flatMap (ends i)

/-- `Broadcast` at a node. -/
def broadcast (net : Net ι) (i : ι) (env : Envelope) : Multiset (ι × Envelope) :=
  ((net.conns i).map fun j => (j, env) : List (ι × Envelope))

def start (plane : ι → Plane) (links : List (ι × ι)) : Net ι where
  plane := plane
  links := links
  flight := 0
  log := []
  resent := fun _ => true
  relayed := fun _ => 0
  delivered := 0

section Act

variable [Ed25519]

/-- One step of the network. -/
def act (net : Net ι) : NetStep ι → Option (Net ι)
  | .announce i a ts =>
    let r := (net.plane i).announce a ts
    some { net with
      plane := Function.update net.plane i r.1
      flight := net.flight + net.broadcast i r.2
      log := net.log ++ [(i, r.2)] }
  | .deliver i env =>
    if (i, env) ∈ net.flight then
      -- the caller only logs an error, so a message is read once either way
      match (net.plane i).receive env with
      | .error _ =>
        some { net with
          flight := net.flight.erase (i, env)
          delivered := net.delivered + 1 }
      | .ok (p, none) =>
        some { net with
          plane := Function.update net.plane i p
          flight := net.flight.erase (i, env)
          delivered := net.delivered + 1 }
      | .ok (p, some e) =>
        some { net with
          plane := Function.update net.plane i p
          flight := net.flight.erase (i, env) + net.broadcast i e
          relayed := Function.update net.relayed i (net.relayed i + 1)
          delivered := net.delivered + 1 }
    else none
  | .resend i =>
    some { net with
      flight := net.flight + (net.plane i).resendOutbox.bind (net.broadcast i)
      resent := Function.update net.resent i true }
  | .link i j =>
    some { net with
      links := net.links ++ [(i, j)]
      resent := fun _ => false }

/-- What is delivered passes verification: the planes can verify each other. -/
def Verified (net : Net ι) : NetStep ι → Prop
  | .deliver i env => (net.plane i).verify env = true
  | _ => True

instance (net : Net ι) : ∀ a : NetStep ι, Decidable (net.Verified a)
  | .announce _ _ _ => inferInstanceAs (Decidable True)
  | .deliver i env => inferInstanceAs (Decidable ((net.plane i).verify env = true))
  | .resend _ => inferInstanceAs (Decidable True)
  | .link _ _ => inferInstanceAs (Decidable True)

/-- After a delivery that is news. -/
def passOn (net : Net ι) (i : ι) (env : Envelope) : Net ι :=
  { net with
    plane := Function.update net.plane i ((net.plane i).afterReceive env)
    flight := net.flight.erase (i, env) + net.broadcast i env
    relayed := Function.update net.relayed i (net.relayed i + 1)
    delivered := net.delivered + 1 }

/-- After one that is not. -/
def discard (net : Net ι) (i : ι) (env : Envelope) : Net ι :=
  { net with
    flight := net.flight.erase (i, env)
    delivered := net.delivered + 1 }

/-- **A delivery that passes verification**: news is handed on, the rest is dropped. -/
theorem act_deliver {net net' : Net ι} {i : ι} {env : Envelope}
    (hv : (net.plane i).verify env = true) (h : net.act (.deliver i env) = some net') :
    (i, env) ∈ net.flight ∧
      ((Newer (net.plane i).seen env.id env.ts ∧ net' = net.passOn i env)
        ∨ (¬ Newer (net.plane i).seen env.id env.ts ∧ net' = net.discard i env)) := by
  simp only [act] at h
  split at h
  · rename_i hmem
    refine ⟨hmem, ?_⟩
    rw [Plane.receive_eq, if_pos hv] at h
    by_cases hn : Newer (net.plane i).seen env.id env.ts
    · simp only [if_pos hn, Option.some.injEq] at h
      exact Or.inl ⟨hn, h.symm⟩
    · simp only [if_neg hn, Option.some.injEq] at h
      refine Or.inr ⟨hn, ?_⟩
      rw [Plane.afterReceive_of_verify hv, if_neg hn, Function.update_eq_self] at h
      exact h.symm
  · cases h

end Act

/-! ## Links -/

/-- Two nodes with a link between them. -/
def Linked (net : Net ι) (v u : ι) : Prop := u ∈ net.conns v

theorem mem_conns {net : Net ι} {v u : ι} :
    u ∈ net.conns v ↔ (v, u) ∈ net.links ∨ (u, v) ∈ net.links := by
  unfold conns ends
  simp only [List.mem_flatMap, List.mem_append, List.mem_ite_nil_right, List.mem_singleton]
  constructor
  · rintro ⟨⟨a, b⟩, hl, ⟨rfl, rfl⟩ | ⟨rfl, rfl⟩⟩
    · exact Or.inl hl
    · exact Or.inr hl
  · rintro (hl | hl)
    · exact ⟨_, hl, Or.inl ⟨rfl, rfl⟩⟩
    · exact ⟨_, hl, Or.inr ⟨rfl, rfl⟩⟩

theorem mem_broadcast {net : Net ι} {i w : ι} {env e : Envelope} :
    (w, e) ∈ net.broadcast i env ↔ w ∈ net.conns i ∧ e = env := by
  unfold broadcast
  rw [Multiset.mem_coe, List.mem_map]
  refine ⟨?_, fun ⟨hw, he⟩ => ⟨w, hw, by rw [he]⟩⟩
  rintro ⟨j, hj, heq⟩
  cases heq
  exact ⟨hj, rfl⟩

theorem card_broadcast (net : Net ι) (i : ι) (env : Envelope) :
    (net.broadcast i env).card = (net.conns i).length := by
  unfold broadcast
  rw [Multiset.coe_card, List.length_map]

/-! ## What a node knows -/

/-- The node has seen a version of `k` at least as new as `t`. -/
def Knows (net : Net ι) (w : ι) (k : GoString) (t : Int64) : Prop :=
  ∃ t', (net.plane w).seen.get? k = some t' ∧ t ≤ t'

/-- It has, or one is on its way to it. -/
def Covered (net : Net ι) (w : ι) (k : GoString) (t : Int64) : Prop :=
  net.Knows w k t ∨ ∃ env, (w, env) ∈ net.flight ∧ env.id = k ∧ t ≤ env.ts

omit [DecidableEq ι] in
theorem knows_iff_not_newer {net : Net ι} {w : ι} {k : GoString} {t : Int64} :
    net.Knows w k t ↔ ¬ Newer (net.plane w).seen k t := by
  unfold Knows Newer
  simp only [not_forall, not_lt, exists_prop]

instance (net : Net ι) (w : ι) (k : GoString) (t : Int64) : Decidable (net.Knows w k t) :=
  decidable_of_iff _ knows_iff_not_newer.symm

instance (net : Net ι) (w : ι) (k : GoString) (t : Int64) : Decidable (net.Covered w k t) :=
  have : Decidable (∃ m ∈ net.flight, m.1 = w ∧ m.2.id = k ∧ t ≤ m.2.ts) :=
    Multiset.decidableExistsMultiset
  decidable_of_iff
    (net.Knows w k t ∨ ∃ m ∈ net.flight, m.1 = w ∧ m.2.id = k ∧ t ≤ m.2.ts) (by
    refine or_congr_right ⟨?_, fun ⟨env, hmem, henv⟩ => ⟨(w, env), hmem, rfl, henv⟩⟩
    rintro ⟨⟨_, env⟩, hmem, rfl, henv⟩
    exact ⟨env, hmem, henv⟩)

omit [DecidableEq ι] in
theorem Covered.knows {net : Net ι} {w : ι} {k : GoString} {t : Int64} (h : net.Covered w k t)
    (hquiet : net.flight = 0) : net.Knows w k t := by
  rcases h with h | ⟨env, henv, _⟩
  · exact h
  · rw [hquiet] at henv
    exact absurd henv (Multiset.notMem_zero _)

omit [DecidableEq ι] in
theorem Knows.le {net : Net ι} {w : ι} {k : GoString} {t t' : Int64} (h : net.Knows w k t)
    (hle : t' ≤ t) : net.Knows w k t' := by
  obtain ⟨s, hs, hts⟩ := h
  exact ⟨s, hs, hle.trans hts⟩

omit [DecidableEq ι] in
theorem Covered.le {net : Net ι} {w : ι} {k : GoString} {t t' : Int64} (h : net.Covered w k t)
    (hle : t' ≤ t) : net.Covered w k t' := by
  rcases h with h | ⟨env, hmem, hid, hts⟩
  · exact Or.inl (h.le hle)
  · exact Or.inr ⟨env, hmem, hid, hle.trans hts⟩

/-! ## What a step does -/

section Step

variable [Ed25519] {net net' : Net ι} {a : NetStep ι}

/-- In this step the node records the envelope and hands it to all its connections. -/
structure Takes (net net' : Net ι) (w : ι) (env : Envelope) : Prop where
  seen : (net'.plane w).seen = (net.plane w).seen.set env.id env.ts
  told : ∀ u ∈ net'.conns w, (u, env) ∈ net'.flight

theorem takes_announce {i : ι} {an : Announcement} {ts : Int64}
    (h : net.act (.announce i an ts) = some net') :
    Takes net net' i ((net.plane i).announce an ts).2 := by
  cases h
  refine ⟨by simp, fun u hu => ?_⟩
  exact Multiset.mem_add.mpr (Or.inr (mem_broadcast.mpr ⟨hu, rfl⟩))

theorem takes_passOn {i : ι} {env : Envelope} (hv : (net.plane i).verify env = true)
    (hn : Newer (net.plane i).seen env.id env.ts) : Takes net (net.passOn i env) i env := by
  refine ⟨by simp [passOn, Plane.afterReceive_of_verify hv, if_pos hn], fun u hu => ?_⟩
  exact Multiset.mem_add.mpr (Or.inr (mem_broadcast.mpr ⟨hu, rfl⟩))

/-- **What a step does to a dedup table**: nothing, or it takes in an announcement or news. -/
theorem seen_step (hv : net.Verified a) (h : net.act a = some net') (w : ι) :
    (net'.plane w).seen = (net.plane w).seen
      ∨ (∃ an ts, a = .announce w an ts ∧ Takes net net' w ((net.plane w).announce an ts).2)
      ∨ ∃ env, a = .deliver w env ∧ (w, env) ∈ net.flight ∧ ¬ net.Knows w env.id env.ts
          ∧ Takes net net' w env := by
  cases a with
  | announce i an ts =>
      by_cases hw : w = i
      · subst hw
        exact Or.inr (Or.inl ⟨an, ts, rfl, takes_announce h⟩)
      · cases h
        exact Or.inl (by simp [Function.update_of_ne hw])
  | deliver i env =>
      obtain ⟨hmem, ⟨hn, rfl⟩ | ⟨_, rfl⟩⟩ := act_deliver hv h
      · by_cases hw : w = i
        · subst hw
          exact Or.inr (Or.inr ⟨env, rfl, hmem, fun hk => knows_iff_not_newer.mp hk hn,
            takes_passOn hv hn⟩)
        · exact Or.inl (by simp [passOn, Function.update_of_ne hw])
      · exact Or.inl rfl
  | resend i =>
      cases h
      exact Or.inl rfl
  | link i j =>
      cases h
      exact Or.inl rfl

/-- **What a step does to an outbox**: only announcing at the node changes it. -/
theorem outbox_step (hv : net.Verified a) (h : net.act a = some net') (w : ι) (k : GoString) :
    (∃ an ts, a = .announce w an ts ∧ an.id (net.plane w).nodeName = k
        ∧ (net'.plane w).outbox.get? k = some ((net.plane w).announce an ts).2)
      ∨ ((∀ an ts, a = .announce w an ts → an.id (net.plane w).nodeName ≠ k)
        ∧ (net'.plane w).outbox.get? k = (net.plane w).outbox.get? k) := by
  cases a with
  | announce i an ts =>
      cases h
      by_cases hw : w = i
      · subst hw
        by_cases hid : an.id (net.plane w).nodeName = k
        · exact Or.inl ⟨an, ts, rfl, hid, by simp [hid]⟩
        · refine Or.inr ⟨?_, ?_⟩
          · rintro _ _ ⟨⟩
            exact hid
          · simp [GoMap.get?_set_ne _ _ (Ne.symm hid)]
      · refine Or.inr ⟨?_, by simp [Function.update_of_ne hw]⟩
        rintro _ _ ⟨⟩
        exact absurd rfl hw
  | deliver i env =>
      refine Or.inr ⟨fun _ _ ha => (by cases ha), ?_⟩
      obtain ⟨_, ⟨hn, rfl⟩ | ⟨_, rfl⟩⟩ := act_deliver hv h
      · by_cases hw : w = i
        · subst hw
          simp [passOn, Plane.afterReceive_of_verify hv, if_pos hn]
        · simp [passOn, Function.update_of_ne hw]
      · rfl
  | resend i =>
      cases h
      exact Or.inr ⟨fun _ _ ha => (by cases ha), rfl⟩
  | link i j =>
      cases h
      exact Or.inr ⟨fun _ _ ha => (by cases ha), rfl⟩

/-- Nodes keep their names. -/
theorem nodeName_step (hv : net.Verified a) (h : net.act a = some net') (w : ι) :
    (net'.plane w).nodeName = (net.plane w).nodeName := by
  cases a with
  | announce i an ts =>
      cases h
      by_cases hw : w = i
      · subst hw
        simp
      · simp [Function.update_of_ne hw]
  | deliver i env =>
      obtain ⟨_, ⟨hn, rfl⟩ | ⟨_, rfl⟩⟩ := act_deliver hv h
      · by_cases hw : w = i
        · subst hw
          simp [passOn, Plane.afterReceive_of_verify hv, if_pos hn]
        · simp [passOn, Function.update_of_ne hw]
      · rfl
  | resend i =>
      cases h
      rfl
  | link i j =>
      cases h
      rfl

theorem links_step (hv : net.Verified a) (h : net.act a = some net') :
    net'.links = net.links ∨ ∃ i j, a = .link i j ∧ net'.links = net.links ++ [(i, j)] := by
  cases a with
  | announce i an ts =>
      cases h
      exact Or.inl rfl
  | deliver i env =>
      obtain ⟨_, ⟨_, rfl⟩ | ⟨_, rfl⟩⟩ := act_deliver hv h
      · exact Or.inl rfl
      · exact Or.inl rfl
  | resend i =>
      cases h
      exact Or.inl rfl
  | link i j =>
      cases h
      exact Or.inr ⟨i, j, rfl, rfl⟩

theorem mem_conns_step (hv : net.Verified a) (h : net.act a = some net') {v u : ι}
    (hu : u ∈ net'.conns v) : u ∈ net.conns v ∨ a = .link v u ∨ a = .link u v := by
  rcases links_step hv h with hl | ⟨i, j, ha, hl⟩
  · rw [mem_conns, hl] at hu
    exact Or.inl (mem_conns.mpr hu)
  · rw [mem_conns, hl] at hu
    simp only [List.mem_append, List.mem_singleton, Prod.mk.injEq] at hu
    rcases hu with (hu | ⟨rfl, rfl⟩) | hu | ⟨rfl, rfl⟩
    · exact Or.inl (mem_conns.mpr (Or.inl hu))
    · exact Or.inr (Or.inl ha)
    · exact Or.inl (mem_conns.mpr (Or.inr hu))
    · exact Or.inr (Or.inr ha)

omit [Ed25519] in
theorem Takes.knows {w : ι} {env : Envelope} (h : Takes net net' w env) :
    net'.Knows w env.id env.ts := by
  refine ⟨env.ts, ?_, le_refl _⟩
  rw [h.seen, GoMap.get?_set_self]

/-- A message under way stays under way until its receiver knows as much. -/
theorem flight_step (hv : net.Verified a) (h : net.act a = some net') {w : ι} {env : Envelope}
    (hmem : (w, env) ∈ net.flight) : (w, env) ∈ net'.flight ∨ net'.Knows w env.id env.ts := by
  cases a with
  | announce i an ts =>
      cases h
      exact Or.inl (Multiset.mem_add.mpr (Or.inl hmem))
  | deliver i e =>
      by_cases heq : (w, env) = (i, e)
      · cases heq
        right
        obtain ⟨_, ⟨hn, rfl⟩ | ⟨hn, rfl⟩⟩ := act_deliver hv h
        · exact (takes_passOn hv hn).knows
        · exact knows_iff_not_newer.mpr hn
      · have herase : (w, env) ∈ net.flight.erase (i, e) := (Multiset.mem_erase_of_ne heq).mpr hmem
        obtain ⟨_, ⟨_, rfl⟩ | ⟨_, rfl⟩⟩ := act_deliver hv h
        · exact Or.inl (Multiset.mem_add.mpr (Or.inl herase))
        · exact Or.inl herase
  | resend i =>
      cases h
      exact Or.inl (Multiset.mem_add.mpr (Or.inl hmem))
  | link i j =>
      cases h
      exact Or.inl hmem

/-- What is known stays known, unless the node itself announces an older version. -/
theorem knows_step (hv : net.Verified a) (h : net.act a = some net') {w : ι} {k : GoString}
    {t : Int64} (hk : net.Knows w k t) :
    net'.Knows w k t
      ∨ ∃ an ts, a = .announce w an ts ∧ an.id (net.plane w).nodeName = k ∧ ts < t := by
  obtain ⟨t', hget, hle⟩ := hk
  rcases seen_step hv h w with hs | ⟨an, ts, ha, ht⟩ | ⟨env, _, _, hn, ht⟩
  · exact Or.inl ⟨t', by rw [hs]; exact hget, hle⟩
  · by_cases hid : k = an.id (net.plane w).nodeName
    · subst hid
      by_cases hlt : ts < t
      · exact Or.inr ⟨an, ts, ha, rfl, hlt⟩
      · refine Or.inl ⟨ts, ?_, not_lt.mp hlt⟩
        rw [ht.seen, Plane.announce_id, Plane.announce_ts, GoMap.get?_set_self]
    · refine Or.inl ⟨t', ?_, hle⟩
      rw [ht.seen, Plane.announce_id, GoMap.get?_set_ne _ _ hid]
      exact hget
  · by_cases hid : k = env.id
    · subst hid
      -- what is taken in is newer than what it replaces
      have hlt : t' < env.ts := not_le.mp fun hge => hn ⟨t', hget, hge⟩
      exact Or.inl (ht.knows.le (hle.trans hlt.le))
    · refine Or.inl ⟨t', ?_, hle⟩
      rw [ht.seen, GoMap.get?_set_ne _ _ hid]
      exact hget

/-- **Coverage lasts**, with the same exception. -/
theorem covered_step (hv : net.Verified a) (h : net.act a = some net') {w : ι} {k : GoString}
    {t : Int64} (hc : net.Covered w k t) :
    net'.Covered w k t
      ∨ ∃ an ts, a = .announce w an ts ∧ an.id (net.plane w).nodeName = k ∧ ts < t := by
  rcases hc with hk | ⟨env, hmem, hid, hle⟩
  · rcases knows_step hv h hk with hk' | hex
    · exact Or.inl (Or.inl hk')
    · exact Or.inr hex
  · subst hid
    rcases flight_step hv h hmem with hmem' | hk'
    · exact Or.inl (Or.inr ⟨env, hmem', rfl, hle⟩)
    · exact Or.inl (Or.inl (hk'.le hle))

/-- **Whoever learns something tells all its connections.** -/
theorem tells_step (hv : net.Verified a) (h : net.act a = some net') {v : ι} {k : GoString}
    {t : Int64} (hno : ¬ net.Knows v k t) (hyes : net'.Knows v k t) :
    ∀ u ∈ net'.conns v, net'.Covered u k t := by
  have key : ∀ env, Takes net net' v env → ∀ u ∈ net'.conns v, net'.Covered u k t := by
    intro env ht u hu
    obtain ⟨t', hget, hle⟩ := hyes
    rw [ht.seen] at hget
    by_cases hid : k = env.id
    · subst hid
      rw [GoMap.get?_set_self] at hget
      cases hget
      exact Or.inr ⟨env, ht.told u hu, rfl, hle⟩
    · rw [GoMap.get?_set_ne _ _ hid] at hget
      exact absurd ⟨t', hget, hle⟩ hno
  -- a table that did not change has nothing new in it
  rcases seen_step hv h v with hs | ⟨an, ts, _, ht⟩ | ⟨env, _, _, _, ht⟩
  · obtain ⟨t', hget, hle⟩ := hyes
    rw [hs] at hget
    exact absurd ⟨t', hget, hle⟩ hno
  · exact key _ ht
  · exact key _ ht

/-! ## Where things come from -/

theorem log_step (h : net.act a = some net') :
    net'.log = net.log
      ∨ ∃ i an ts, a = .announce i an ts
          ∧ net'.log = net.log ++ [(i, ((net.plane i).announce an ts).2)] := by
  cases a with
  | announce i an ts =>
      cases h
      exact Or.inr ⟨i, an, ts, rfl, rfl⟩
  | deliver i env =>
      simp only [act] at h
      split at h
      · split at h <;> (cases h; exact Or.inl rfl)
      · cases h
  | resend i =>
      cases h
      exact Or.inl rfl
  | link i j =>
      cases h
      exact Or.inl rfl

theorem mem_log_step (h : net.act a = some net') {o : ι × Envelope} (ho : o ∈ net.log) :
    o ∈ net'.log := by
  rcases log_step h with hl | ⟨i, an, ts, _, hl⟩
  · rw [hl]; exact ho
  · rw [hl]; exact List.mem_append_left _ ho

/-- Everything in the network was announced by somebody. -/
structure Sourced (net : Net ι) : Prop where
  flight : ∀ w env, (w, env) ∈ net.flight → ∃ o ∈ net.log, o.2 = env
  seen : ∀ w k t, (net.plane w).seen.get? k = some t → ∃ o ∈ net.log, o.2.id = k ∧ o.2.ts = t
  outbox : ∀ w k e, (net.plane w).outbox.get? k = some e → e.id = k ∧ (w, e) ∈ net.log

omit [DecidableEq ι] [Ed25519] in
/-- So everything somebody has seen or will see was. -/
theorem Sourced.covered (hs : net.Sourced) {w : ι} {k : GoString} {t : Int64}
    (hc : net.Covered w k t) : ∃ o ∈ net.log, o.2.id = k ∧ t ≤ o.2.ts := by
  rcases hc with ⟨t', hget, hle⟩ | ⟨env, hmem, hid, hle⟩
  · obtain ⟨o, ho, hid, rfl⟩ := hs.seen w k t' hget
    exact ⟨o, ho, hid, hle⟩
  · obtain ⟨o, ho, rfl⟩ := hs.flight w env hmem
    exact ⟨o, ho, hid, hle⟩

omit [DecidableEq ι] [Ed25519] in
theorem sourced_start (name : ι → GoString) (priv : ι → Option Ed25519Private)
    (lookup : ι → Option (GoString → Option Ed25519Public)) (links : List (ι × ι)) :
    Sourced (start (fun i => newPlane (name i) (priv i) (lookup i)) links) where
  flight := fun w env hmem => absurd hmem (Multiset.notMem_zero _)
  seen := fun w k t hget => by
    have hnone : (GoMap.empty : GoMap GoString Int64).get? k = some t := hget
    rw [GoMap.get?_empty] at hnone
    cases hnone
  outbox := fun w k e hget => by
    have hnone : (GoMap.empty : GoMap GoString Envelope).get? k = some e := hget
    rw [GoMap.get?_empty] at hnone
    cases hnone

/-- A new message is a new announcement, or repeats what a node got or has in its outbox. -/
theorem mem_flight_step (hv : net.Verified a) (h : net.act a = some net') {w : ι} {env : Envelope}
    (hmem : (w, env) ∈ net'.flight) :
    (∃ u, (u, env) ∈ net.flight) ∨ (∃ i k, (net.plane i).outbox.get? k = some env)
      ∨ ∃ i, (i, env) ∈ net'.log := by
  cases a with
  | announce i an ts =>
      cases h
      rcases Multiset.mem_add.mp hmem with hold | hnew
      · exact Or.inl ⟨w, hold⟩
      · rw [(mem_broadcast.mp hnew).2]
        exact Or.inr (Or.inr ⟨i, List.mem_append_right _ (List.mem_singleton.mpr rfl)⟩)
  | deliver i e =>
      obtain ⟨hin, ⟨_, rfl⟩ | ⟨_, rfl⟩⟩ := act_deliver hv h
      · rcases Multiset.mem_add.mp hmem with hold | hnew
        · exact Or.inl ⟨w, Multiset.mem_of_mem_erase hold⟩
        · rw [(mem_broadcast.mp hnew).2]
          exact Or.inl ⟨i, hin⟩
      · exact Or.inl ⟨w, Multiset.mem_of_mem_erase hmem⟩
  | resend i =>
      cases h
      rcases Multiset.mem_add.mp hmem with hold | hnew
      · exact Or.inl ⟨w, hold⟩
      · obtain ⟨e, he, hb⟩ := Multiset.mem_bind.mp hnew
        obtain ⟨k, hk⟩ := GoMap.mem_values.mp he
        rw [(mem_broadcast.mp hb).2]
        exact Or.inr (Or.inl ⟨i, k, hk⟩)
  | link i j =>
      cases h
      exact Or.inl ⟨w, hmem⟩

/-- **Preserved by every step.** -/
theorem sourced_step (hs : net.Sourced) (hv : net.Verified a) (h : net.act a = some net') :
    net'.Sourced where
  flight := fun w env hmem => by
    rcases mem_flight_step hv h hmem with ⟨u, hu⟩ | ⟨i, k, hk⟩ | ⟨i, hi⟩
    · obtain ⟨o, ho, heq⟩ := hs.flight u env hu
      exact ⟨o, mem_log_step h ho, heq⟩
    · exact ⟨(i, env), mem_log_step h (hs.outbox i k env hk).2, rfl⟩
    · exact ⟨(i, env), hi, rfl⟩
  seen := fun w k t hget => by
    -- the entry is an old one, or the one of the envelope taken in
    have key : ∀ env, Takes net net' w env → (∃ o ∈ net'.log, o.2 = env) →
        ∃ o ∈ net'.log, o.2.id = k ∧ o.2.ts = t := by
      rintro env ht ⟨o, ho, rfl⟩
      rw [ht.seen, GoMap.get?_set] at hget
      split at hget
      · rename_i hid
        cases hget
        exact ⟨o, ho, hid.symm, rfl⟩
      · obtain ⟨o', ho', heq⟩ := hs.seen w k t hget
        exact ⟨o', mem_log_step h ho', heq⟩
    rcases seen_step hv h w with hsame | ⟨an, ts, ha, ht⟩ | ⟨env, _, hin, _, ht⟩
    · rw [hsame] at hget
      obtain ⟨o, ho, heq⟩ := hs.seen w k t hget
      exact ⟨o, mem_log_step h ho, heq⟩
    · subst ha
      refine key _ ht ⟨(w, _), ?_, rfl⟩
      cases h
      exact List.mem_append_right _ (List.mem_singleton.mpr rfl)
    · obtain ⟨o, ho, heq⟩ := hs.flight w env hin
      exact key _ ht ⟨o, mem_log_step h ho, heq⟩
  outbox := fun w k e hget => by
    rcases outbox_step hv h w k with ⟨an, ts, ha, hid, hnew⟩ | ⟨_, hsame⟩
    · rw [hnew] at hget
      cases hget
      refine ⟨by rw [Plane.announce_id, hid], ?_⟩
      subst ha
      cases h
      exact List.mem_append_right _ (List.mem_singleton.mpr rfl)
    · rw [hsame] at hget
      obtain ⟨hid, hlog⟩ := hs.outbox w k e hget
      exact ⟨hid, mem_log_step h hlog⟩

end Step

end Net

/-! ## Three nodes -/

/-- The nodes of a sample. -/
inductive Trio where
  | a
  | b
  | c
  deriving DecidableEq

instance : Fintype Trio where
  elems := {.a, .b, .c}
  complete i := by cases i <;> decide

def trioName : Trio → GoString
  | .a => str "a"
  | .b => str "b"
  | .c => str "c"

/-- They check no signatures. -/
def trio (links : List (Trio × Trio)) : Net Trio :=
  Net.start (fun i => newPlane (trioName i) none none) links

/-- What the first of them announces. -/
def trioCall : Announcement := .addSubnet (str "10.1.0.0/24")

def trioFact [Ed25519] : Envelope := ((newPlane (trioName .a) none none).announce trioCall 1).2

end Gsnet.Gossip
