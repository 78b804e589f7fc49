import Gsnet.Go.NetipProof
import Gsnet.Dataplane.Linux

/-!
# The forwarding database over a run

`reconcileFDB` compares text and writes what it parses back from the text. On
ordinary addresses nothing is lost on the way, and one call replaces the rows
under the addresses it manages by the desired ones and leaves all others alone
(`reconcileFDB_eq`).

What it manages is computed from the current peers. A row therefore stays as the
last call left it that managed its address (`mem_reconcileFDBAll`), and the table
follows the desired state exactly as long as no managed address goes away.
-/

namespace Gsnet.Dataplane

open Go

/-- An address that is written the same before and after it has been in the kernel. -/
def Ordinary (a : Addr) : Prop := a.zone = [] ∧ a.is4In6 = false

instance (a : Addr) : Decidable (Ordinary a) := inferInstanceAs (Decidable (_ ∧ _))

theorem Ordinary.unmap {a : Addr} (h : Ordinary a) : a.withoutZone.unmap = a := by
  cases a with
  | v4 ip => rfl
  | v6 ip zone =>
      obtain ⟨hz, hm⟩ := h
      have hz' : zone = [] := hz
      subst hz'
      simp [Addr.withoutZone, Addr.unmap, hm]

theorem Ordinary.string_asSlice {a : Addr} (h : Ordinary a) : IP.string a.asSlice = a.string := by
  rw [IP.string_asSlice, h.unmap]

theorem Ordinary.canonical_asSlice {a : Addr} (h : Ordinary a) :
    IP.canonical a.asSlice = a.asSlice := by
  rw [IP.canonical, addrFromSlice_asSlice]
  exact congrArg Addr.asSlice h.unmap

/-! ## Rows and their text -/

/-- Two hardware addresses with the same text are the same. -/
theorem HardwareAddr.string_inj {m n : HardwareAddr} (h : m.string = n.string) : m = n := by
  have hempty : ∀ l : HardwareAddr, l.string = [] → l = [] := by
    intro l hl
    match l with
    | [] => rfl
    | [b] => simp [HardwareAddr.string, hexByte] at hl
    | b :: c :: t => simp [HardwareAddr.string, hexByte] at hl
  by_cases hm : m = []
  · subst hm
    exact (hempty n h.symm).symm
  · have hn : n ≠ [] := by
      rintro rfl
      exact hm (hempty m h)
    have h1 := macOctets_string hm (Nat.le_max_left m.length n.length)
    have h2 := macOctets_string hn (Nat.le_max_right m.length n.length)
    rw [h, h2] at h1
    exact (Option.some.inj h1).symm

/-- A row such as the reconciler writes. -/
def Regular (r : FdbRow) : Prop :=
  r.mac.length = 6 ∧ ∃ a : Addr, Ordinary a ∧ r.ip = a.asSlice

theorem Regular.stored {r : FdbRow} (h : Regular r) : r.stored = r := by
  obtain ⟨-, a, ha, hip⟩ := h
  unfold FdbRow.stored
  rw [hip, ha.canonical_asSlice, ← hip]

theorem Regular.row_key {r : FdbRow} (h : Regular r) : r.key.row = r := by
  obtain ⟨hlen, a, ha, hip⟩ := h
  have hmac : parseMAC r.mac.string = some r.mac := parseMAC_string (by simp [hlen])
  have hparse : parseAddr (IP.string r.ip) = some a := by
    rw [hip, ha.string_asSlice, parseAddr_string]
  unfold FdbRow.key FdbKey.row
  simp only [hmac, hparse, Option.getD_some, Option.map_some, ← hip]

/-- A row that is read and written again is the same row. -/
theorem Regular.read_back {r : FdbRow} (h : Regular r) : r.key.row.stored = r := by
  rw [h.row_key, h.stored]

/-! ## Requests in a row -/

theorem foldl_neighAppend (ks : Multiset FdbKey) (fdb : Fdb) :
    ks.foldl (fun (fdb : Fdb) (k : FdbKey) => fdb.neighAppend k.row) fdb
      = fdb ∪ (ks.map fun k => k.row.stored).toFinset := by
  induction ks using Multiset.induction_on generalizing fdb with
  | empty => simp
  | cons k ks ih =>
      rw [Multiset.foldl_cons, ih, Fdb.neighAppend, Multiset.map_cons, Multiset.toFinset_cons,
        Finset.insert_union, Finset.union_insert]

theorem foldl_neighDel (ks : Multiset FdbKey) (fdb : Fdb) :
    ks.foldl (fun (fdb : Fdb) (k : FdbKey) => fdb.neighDel k.row) fdb
      = fdb \ (ks.map fun k => k.row.stored).toFinset := by
  induction ks using Multiset.induction_on generalizing fdb with
  | empty => simp
  | cons k ks ih =>
      rw [Multiset.foldl_cons, ih, Fdb.neighDel, Multiset.map_cons, Multiset.toFinset_cons,
        Finset.erase_sdiff_comm, Finset.sdiff_insert]

section Run

variable [Sha256]

/-! ## One call -/

theorem length_vxlanMACFromKey (k : WGKey) : (vxlanMACFromKey k).length = 6 := by
  have hlen : ((Sha256.sum256 k.raw).take 6).length = 6 := by
    rw [List.length_take, Sha256.length_sum256]
    rfl
  unfold vxlanMACFromKey
  cases h : (Sha256.sum256 k.raw).take 6 with
  | nil => rw [h] at hlen; cases hlen
  | cons b t => rw [h] at hlen; exact hlen

/-- No node takes the broadcast address: the multicast bit is cleared. -/
theorem vxlanMACFromKey_ne_broadcast (k : WGKey) : vxlanMACFromKey k ≠ broadcastMAC := by
  have hbit : ∀ b : UInt8, (b ||| 0x02) &&& 0xFE ≠ 0xFF := by decide +kernel
  unfold vxlanMACFromKey broadcastMAC
  split
  · simp
  · intro h
    exact hbit _ (List.cons.inj h).1

/-- The rows a state asks for. -/
def desiredRows (s : State) : Finset FdbRow :=
  (s.peers.flatMap fun p =>
    match p.underlayAddr with
    | none => []
    | some a => [⟨broadcastMAC, a.asSlice⟩, ⟨vxlanMACFromKey p.wgPublic, a.asSlice⟩]).toFinset

/-- The addresses whose rows a call takes for its own. -/
def Managed (s : State) (m : HardwareAddr) : Prop :=
  m = broadcastMAC ∨ ∃ p ∈ s.peers, p.underlayAddr.isSome = true ∧ vxlanMACFromKey p.wgPublic = m

instance (s : State) (m : HardwareAddr) : Decidable (Managed s m) :=
  inferInstanceAs (Decidable (_ ∨ _))

theorem mem_managedMACs {s : State} {m : HardwareAddr} :
    m.string ∈ managedMACs s ↔ Managed s m := by
  unfold managedMACs Managed
  simp only [Finset.mem_insert, List.mem_toFinset, List.mem_filterMap, Option.map_eq_some_iff]
  constructor
  · rintro (h | ⟨p, hp, a, ha, hm⟩)
    · exact Or.inl (HardwareAddr.string_inj h)
    · exact Or.inr ⟨p, hp, by simp [ha], HardwareAddr.string_inj hm⟩
  · rintro (h | ⟨p, hp, ha, hm⟩)
    · exact Or.inl (by rw [h])
    · obtain ⟨a, ha⟩ := Option.isSome_iff_exists.mp ha
      exact Or.inr ⟨p, hp, a, ha, by rw [hm]⟩

theorem mem_desiredRows {s : State} {r : FdbRow} :
    r ∈ desiredRows s ↔ ∃ p ∈ s.peers, ∃ a, p.underlayAddr = some a ∧ r.ip = a.asSlice
      ∧ (r.mac = broadcastMAC ∨ r.mac = vxlanMACFromKey p.wgPublic) := by
  unfold desiredRows
  rw [List.mem_toFinset, List.mem_flatMap]
  constructor
  · rintro ⟨p, hp, hr⟩
    cases ha : p.underlayAddr with
    | none => simp [ha] at hr
    | some a =>
        simp only [ha, List.mem_cons, List.not_mem_nil, or_false] at hr
        rcases hr with rfl | rfl
        · exact ⟨p, hp, a, ha, rfl, Or.inl rfl⟩
        · exact ⟨p, hp, a, ha, rfl, Or.inr rfl⟩
  · rintro ⟨p, hp, a, ha, hip, hmac⟩
    refine ⟨p, hp, ?_⟩
    simp only [ha, List.mem_cons, List.not_mem_nil, or_false]
    cases r
    rcases hmac with hmac | hmac
    · exact Or.inl (by simp_all)
    · exact Or.inr (by simp_all)

theorem managed_of_mem_desiredRows {s : State} {r : FdbRow} (h : r ∈ desiredRows s) :
    Managed s r.mac := by
  obtain ⟨p, hp, a, ha, -, hmac⟩ := mem_desiredRows.mp h
  rcases hmac with hmac | hmac
  · exact Or.inl hmac
  · exact Or.inr ⟨p, hp, by simp [ha], hmac.symm⟩

/-- Every underlay address of the state is ordinary. -/
def OrdinaryState (s : State) : Prop := ∀ p ∈ s.peers, ∀ a, p.underlayAddr = some a → Ordinary a

theorem regular_of_mem_desiredRows {s : State} (hs : OrdinaryState s) {r : FdbRow}
    (h : r ∈ desiredRows s) : Regular r := by
  obtain ⟨p, hp, a, ha, hip, hmac⟩ := mem_desiredRows.mp h
  refine ⟨?_, a, hs p hp a ha, hip⟩
  rcases hmac with hmac | hmac
  · rw [hmac]; rfl
  · rw [hmac]; exact length_vxlanMACFromKey _

/-- What is asked for by text is what is asked for. -/
theorem desiredKeys_eq {s : State} (hs : OrdinaryState s) :
    desiredKeys s = (desiredRows s).image FdbRow.key := by
  ext k
  simp only [desiredKeys, List.mem_toFinset, List.mem_flatMap, Finset.mem_image]
  constructor
  · rintro ⟨p, hp, hk⟩
    cases ha : p.underlayAddr with
    | none => simp [ha] at hk
    | some a =>
        have hstr := (hs p hp a ha).string_asSlice
        simp only [ha, List.mem_cons, List.not_mem_nil, or_false] at hk
        rcases hk with rfl | rfl
        · exact ⟨⟨broadcastMAC, a.asSlice⟩, mem_desiredRows.mpr ⟨p, hp, a, ha, rfl, Or.inl rfl⟩,
            by simp only [FdbRow.key, hstr]⟩
        · exact ⟨⟨vxlanMACFromKey p.wgPublic, a.asSlice⟩,
            mem_desiredRows.mpr ⟨p, hp, a, ha, rfl, Or.inr rfl⟩, by simp only [FdbRow.key, hstr]⟩
  · rintro ⟨r, hr, rfl⟩
    obtain ⟨p, hp, a, ha, hip, hmac⟩ := mem_desiredRows.mp hr
    have hstr := (hs p hp a ha).string_asSlice
    refine ⟨p, hp, ?_⟩
    simp only [ha, List.mem_cons, List.not_mem_nil, or_false, FdbRow.key, hip, hstr]
    rcases hmac with hmac | hmac
    · exact Or.inl (by rw [hmac])
    · exact Or.inr (by rw [hmac])

theorem mem_haveKeys {s : State} {fdb : Fdb} {k : FdbKey} :
    k ∈ haveKeys s fdb ↔ ∃ r ∈ fdb, Managed s r.mac ∧ r.key = k := by
  simp only [haveKeys, Finset.mem_image, Finset.mem_filter, mem_managedMACs, and_assoc]

/--
**One call** replaces the rows under the managed addresses by the desired ones,
when those it finds there are rows it could have written.
-/
theorem reconcileFDB_eq {s : State} (hs : OrdinaryState s) {fdb : Fdb}
    (hread : ∀ r ∈ fdb, Managed s r.mac → r.key.row.stored = r) :
    reconcileFDB s fdb = (fdb.filter fun r => ¬ Managed s r.mac) ∪ desiredRows s := by
  have hrow : ∀ {r}, r ∈ fdb ∧ Managed s r.mac ∨ r ∈ desiredRows s → r.key.row.stored = r := by
    rintro r (⟨hr, hm⟩ | hr)
    · exact hread r hr hm
    · exact (regular_of_mem_desiredRows hs hr).read_back
  have hhave : ∀ k, k ∈ haveKeys s fdb ↔ ∃ r ∈ fdb, Managed s r.mac ∧ r.key = k :=
    fun k => mem_haveKeys
  have hwant : ∀ k, k ∈ desiredKeys s ↔ ∃ r ∈ desiredRows s, r.key = k := by
    intro k
    rw [desiredKeys_eq hs, Finset.mem_image]
  ext r
  unfold reconcileFDB
  simp only [foldl_neighDel, foldl_neighAppend, Finset.mem_sdiff, Finset.mem_union,
    Multiset.mem_toFinset, Multiset.mem_map, Finset.mem_val, Finset.mem_filter, hhave, hwant]
  constructor
  · rintro ⟨hin, hkeep⟩
    rcases hin with hr | ⟨k, ⟨⟨q, hq, rfl⟩, -⟩, rfl⟩
    · by_cases hm : Managed s r.mac
      · -- a managed row that stays is one that is desired
        right
        by_contra hnot
        refine hkeep ⟨r.key, ⟨⟨r, hr, hm, rfl⟩, ?_⟩, hrow (Or.inl ⟨hr, hm⟩)⟩
        rintro ⟨q, hq, hqr⟩
        have := hrow (Or.inr hq)
        rw [hqr, hrow (Or.inl ⟨hr, hm⟩)] at this
        exact hnot (this ▸ hq)
      · exact Or.inl ⟨hr, hm⟩
    · right
      rw [hrow (Or.inr hq)]
      exact hq
  · rintro (⟨hr, hm⟩ | hr)
    · refine ⟨Or.inl hr, ?_⟩
      rintro ⟨k, ⟨⟨q, hq, hqm, rfl⟩, -⟩, hqr⟩
      rw [hrow (Or.inl ⟨hq, hqm⟩)] at hqr
      exact hm (hqr ▸ hqm)
    · refine ⟨?_, ?_⟩
      · by_cases hh : ∃ q ∈ fdb, Managed s q.mac ∧ q.key = r.key
        · obtain ⟨q, hq, hqm, hqr⟩ := hh
          have := hrow (Or.inl ⟨hq, hqm⟩)
          rw [hqr, hrow (Or.inr hr)] at this
          exact Or.inl (this ▸ hq)
        · exact Or.inr ⟨r.key, ⟨⟨r, hr, rfl⟩, hh⟩, hrow (Or.inr hr)⟩
      · rintro ⟨k, ⟨⟨q, hq, hqm, rfl⟩, hnot⟩, hqr⟩
        rw [hrow (Or.inl ⟨hq, hqm⟩)] at hqr
        exact hnot ⟨r, hr, by rw [hqr]⟩

/-! ## A run -/

/--
**A row is as the last call left it that managed its address.** A table that has
no row under any managed address to begin with keeps the rows it has.
-/
theorem mem_reconcileFDBAll {states : List State} (hs : ∀ s ∈ states, OrdinaryState s) {fdb : Fdb}
    (hfree : ∀ r ∈ fdb, ∀ s ∈ states, ¬ Managed s r.mac) (r : FdbRow) :
    r ∈ reconcileFDBAll fdb states ↔
      match states.reverse.find? (fun s => decide (Managed s r.mac)) with
      | none => r ∈ fdb
      | some s => r ∈ desiredRows s := by
  induction states using List.reverseRecOn generalizing r with
  | nil => rfl
  | append_singleton states s ih =>
      have ih := ih (fun t ht => hs t (by simp [ht])) (fun q hq t ht => hfree q hq t (by simp [ht]))
      -- under a managed address there is nothing but what earlier calls wrote
      have hreg : ∀ q ∈ reconcileFDBAll fdb states, Managed s q.mac → Regular q := by
        intro q hq hm
        rw [ih] at hq
        cases hf : states.reverse.find? (fun t => decide (Managed t q.mac)) with
        | none =>
            rw [hf] at hq
            exact absurd hm (hfree q hq s (by simp))
        | some t =>
            rw [hf] at hq
            have ht : t ∈ states := List.mem_reverse.mp (List.mem_of_find?_eq_some hf)
            exact regular_of_mem_desiredRows (hs t (by simp [ht])) hq
      have hstep : reconcileFDBAll fdb (states ++ [s])
          = reconcileFDB s (reconcileFDBAll fdb states) := by
        unfold reconcileFDBAll
        rw [List.foldl_append]
        rfl
      rw [hstep, reconcileFDB_eq (hs s (by simp)) fun q hq hm => (hreg q hq hm).read_back,
        Finset.mem_union, Finset.mem_filter,
        List.reverse_append, List.reverse_singleton, List.singleton_append, List.find?_cons]
      by_cases hm : Managed s r.mac
      · simp [hm]
      · have hnot : r ∉ desiredRows s := fun h => hm (managed_of_mem_desiredRows h)
        simp [hm, hnot, ih]

/--
**The forwarding database follows the desired state exactly as long as no peer's
address goes away**: after a run that ends in `last` it consists of the rows it
began with and the desired ones if and only if every address under which a peer
of an earlier state had rows is still that of a peer with an underlay address.
-/
theorem reconcileFDBAll_exact_iff {states : List State} {last : State}
    (hs : ∀ s ∈ states ++ [last], ∀ p ∈ s.peers, ∀ a, p.underlayAddr = some a → Ordinary a)
    {fdb : Fdb}
    (hfree : ∀ r ∈ fdb, r.mac ≠ broadcastMAC
      ∧ ∀ s ∈ states ++ [last], ∀ p ∈ s.peers, r.mac ≠ vxlanMACFromKey p.wgPublic) :
    reconcileFDBAll fdb (states ++ [last]) = fdb ∪ desiredRows last ↔
      ∀ s ∈ states, ∀ p ∈ s.peers, p.underlayAddr.isSome = true →
        ∃ q ∈ last.peers, q.underlayAddr.isSome = true
          ∧ vxlanMACFromKey q.wgPublic = vxlanMACFromKey p.wgPublic := by
  have hfree' : ∀ r ∈ fdb, ∀ s ∈ states ++ [last], ¬ Managed s r.mac := by
    rintro r hr s hmem (hm | ⟨p, hp, -, hm⟩)
    · exact (hfree r hr).1 hm
    · exact (hfree r hr).2 s hmem p hp hm.symm
  have hmem := mem_reconcileFDBAll hs hfree'
  constructor
  · intro heq s hsmem p hp hvalid
    by_contra hno
    -- nobody manages the address any more
    have hgone : ¬ Managed last (vxlanMACFromKey p.wgPublic) := by
      rintro (hm | ⟨q, hq, hqv, hqm⟩)
      · exact vxlanMACFromKey_ne_broadcast _ hm
      · exact hno ⟨q, hq, hqv, hqm⟩
    have hsome : ((states ++ [last]).reverse.find?
        (fun t => decide (Managed t (vxlanMACFromKey p.wgPublic)))).isSome = true := by
      rw [List.find?_isSome]
      exact ⟨s, by simp [hsmem], decide_eq_true (Or.inr ⟨p, hp, hvalid, rfl⟩)⟩
    obtain ⟨t, ht⟩ := Option.isSome_iff_exists.mp hsome
    -- and the call that last did left a row there
    obtain ⟨q, a, hq, ha, hqm⟩ : ∃ q a, q ∈ t.peers ∧ q.underlayAddr = some a
        ∧ vxlanMACFromKey q.wgPublic = vxlanMACFromKey p.wgPublic := by
      have hm : Managed t (vxlanMACFromKey p.wgPublic) := by simpa using List.find?_some ht
      rcases hm with hm | ⟨q, hq, hqv, hqm⟩
      · exact absurd hm (vxlanMACFromKey_ne_broadcast _)
      · obtain ⟨a, ha⟩ := Option.isSome_iff_exists.mp hqv
        exact ⟨q, a, hq, ha, hqm⟩
    have hleft : (⟨vxlanMACFromKey p.wgPublic, a.asSlice⟩ : FdbRow)
        ∈ reconcileFDBAll fdb (states ++ [last]) := by
      rw [hmem]
      simp only [ht]
      exact mem_desiredRows.mpr ⟨q, hq, a, ha, rfl, Or.inr hqm.symm⟩
    rw [heq, Finset.mem_union] at hleft
    rcases hleft with hleft | hleft
    · exact (hfree _ hleft).2 s (by simp [hsmem]) p hp rfl
    · exact hgone (managed_of_mem_desiredRows hleft)
  · intro hstay
    ext r
    rw [hmem, Finset.mem_union, List.reverse_append, List.reverse_singleton,
      List.singleton_append, List.find?_cons]
    by_cases hm : Managed last r.mac
    · have hnot : r ∉ fdb := fun hr => hfree' r hr last (by simp) hm
      simp [hm, hnot]
    · have hnot : r ∉ desiredRows last := fun h => hm (managed_of_mem_desiredRows h)
      -- an address that is not managed now never was
      have hnone : states.reverse.find? (fun s => decide (Managed s r.mac)) = none := by
        rw [List.find?_eq_none]
        intro s hsmem hsm
        rcases (by simpa using hsm : Managed s r.mac) with hb | ⟨p, hp, hv, hpm⟩
        · exact hm (Or.inl hb)
        · obtain ⟨q, hq, hqv, hqm⟩ := hstay s (List.mem_reverse.mp hsmem) p hp hv
          exact hm (Or.inr ⟨q, hq, hqv, hqm.trans hpm⟩)
      simp [hm, hnot, hnone]

end Run

/-! ### A peer that moves and a peer that leaves -/

section Sample

attribute [local instance] clearSha256

/-- A switch with peers of these names, key bytes and underlay addresses. -/
def fdbState (peers : List (String × UInt8 × Addr)) : State :=
  ⟨.switch, ⟨List.replicate 32 0, rfl⟩, str "wg0", 51820, str "vx0", 42, 4789, none, none, 1420,
    peers.map fun p => ⟨str p.1, ⟨List.replicate 32 p.2.1, List.length_replicate⟩, none, none,
      some p.2.2, []⟩⟩

/-- A row an operator installed. -/
def operatorRow : FdbRow := ⟨[0x02, 0, 0, 0, 0, 0x01], [192, 0, 2, 1]⟩

/-- Bob changes his address and Carol comes. -/
theorem reconcileFDBAll_exact_moved :
    reconcileFDBAll {operatorRow}
        ([fdbState [("bob", 1, .v4 0xAC100002)]]
          ++ [fdbState [("bob", 1, .v4 0xAC100009),
            ("carol", 2, .v6 0xFD0000000000000000000000000000AB [])]])
      = {operatorRow} ∪ desiredRows
          (fdbState [("bob", 1, .v4 0xAC100009),
            ("carol", 2, .v6 0xFD0000000000000000000000000000AB [])]) :=
  (reconcileFDBAll_exact_iff (by decide +kernel) (by decide +kernel)).mpr (by decide +kernel)

/-- Bob leaves, and the row for his address stays. -/
theorem departed_row_stays :
    reconcileFDBAll {operatorRow} [fdbState [("bob", 1, .v4 0xAC100002)], fdbState []]
      = {operatorRow, ⟨[0x02, 1, 1, 1, 1, 1], [172, 16, 0, 2]⟩}
    ∧ reconcileFDBAll {operatorRow} [fdbState [("bob", 1, .v4 0xAC100002)], fdbState []]
      ≠ {operatorRow} ∪ desiredRows (fdbState []) := by
  decide +kernel

end Sample

end Gsnet.Dataplane
