import Gsnet.Gossip.Plane
import Gsnet.Proof.Fdb

/-!
# Reconciling the forwarding database twice

`reconcileFDB` asks for a row by the text of an address and finds a row by the text
of what the kernel lists. The kernel keeps no zone, and it keeps an IPv4 address as
four bytes. So the text of an address with a zone, or of an IPv4-mapped one, is never
found again, and every call appends the row anew and then deletes what it finds
instead: the row that it wants. Such an address is what a Hello says it is.

On all other addresses one call is enough, and the next has nothing to do.
-/

namespace Gsnet.Dataplane

open Go

/-! ## What the kernel lists -/

/-- A row as the kernel lists it; one that was added without an address has none. -/
def Listed (r : FdbRow) : Prop :=
  r.mac.length = 6 ∧ (r.ip = [] ∨ ∃ a : Addr, Ordinary a ∧ r.ip = a.asSlice)

theorem ordinary_unmap (a : Addr) : Ordinary a.withoutZone.unmap := by
  cases a with
  | v4 ip => exact ⟨rfl, rfl⟩
  | v6 ip zone =>
      by_cases hm : (Addr.v6 ip []).is4In6 = true
      · have hunmap : (Addr.v6 ip zone).withoutZone.unmap = .v4 (ip.setWidth 32) := if_pos hm
        rw [hunmap]
        exact ⟨rfl, rfl⟩
      · have hunmap : (Addr.v6 ip zone).withoutZone.unmap = .v6 ip [] := if_neg hm
        rw [hunmap]
        exact ⟨rfl, Bool.eq_false_iff.mpr hm⟩

theorem canonical_asSlice (a : Addr) :
    IP.canonical a.asSlice = a.withoutZone.unmap.asSlice := by
  rw [IP.canonical, addrFromSlice_asSlice]

/-- What is parsed from the text of a nil address. -/
theorem parseAddr_nil : parseAddr (IP.string []) = none := by decide +kernel

/-- The kernel lists no address that is not ordinary. -/
theorem ordinary_of_listed {ip : IP} (h : ip = [] ∨ ∃ b : Addr, Ordinary b ∧ ip = b.asSlice)
    {a : Addr} (heq : IP.string ip = a.string) : Ordinary a := by
  rcases h with rfl | ⟨b, hb, rfl⟩
  · have hparse := parseAddr_string a
    rw [← heq, parseAddr_nil] at hparse
    cases hparse
  · rw [hb.string_asSlice] at heq
    have hparse := parseAddr_string a
    rw [← heq, parseAddr_string] at hparse
    exact Option.some.inj hparse ▸ hb

theorem Listed.read_back {r : FdbRow} (h : Listed r) : r.key.row.stored = r := by
  obtain ⟨hlen, hnil | ⟨a, ha, hip⟩⟩ := h
  · have hmac : parseMAC r.mac.string = some r.mac := parseMAC_string (by simp [hlen])
    unfold FdbRow.key FdbKey.row FdbRow.stored
    simp only [hmac, hnil, parseAddr_nil, Option.getD_some, Option.map_none, Option.getD_none]
    cases r
    simp_all [IP.canonical, addrFromSlice]
  · exact Regular.read_back ⟨hlen, a, ha, hip⟩

/-- The address of a row that was asked for is one that the kernel lists. -/
theorem stored_row_ip (k : FdbKey) :
    k.row.stored.ip = [] ∨ ∃ a : Addr, Ordinary a ∧ k.row.stored.ip = a.asSlice := by
  show IP.canonical k.row.ip = [] ∨ ∃ a : Addr, Ordinary a ∧ IP.canonical k.row.ip = a.asSlice
  unfold FdbKey.row
  cases parseAddr k.ip with
  | none => exact .inl rfl
  | some a => exact .inr ⟨_, ordinary_unmap a, canonical_asSlice a⟩

section Twice

variable [Sha256] {s : State} {fdb : Fdb}

theorem listed_ip_reconcileFDB (hfdb : ∀ r ∈ fdb, Listed r) {r : FdbRow}
    (hr : r ∈ reconcileFDB s fdb) :
    r.ip = [] ∨ ∃ a : Addr, Ordinary a ∧ r.ip = a.asSlice := by
  rw [reconcileFDB_requests, foldl_neighDel, foldl_neighAppend, Finset.mem_sdiff,
    Finset.mem_union, Multiset.mem_toFinset, Multiset.mem_map] at hr
  rcases hr.1 with hr | ⟨k, -, rfl⟩
  · exact (hfdb r hr).2
  · exact stored_row_ip k

/-- **On ordinary addresses one call is enough.** -/
theorem requests_after_ordinary (hs : OrdinaryState s) (hfdb : ∀ r ∈ fdb, Listed r) :
    toAppend s (reconcileFDB s fdb) = ∅ ∧ toDelete s (reconcileFDB s fdb) = ∅
      ∧ ∀ k ∈ desiredKeys s, k.row.stored ∈ reconcileFDB s (reconcileFDB s fdb) := by
  have heq := reconcileFDB_eq hs fun r hr _ => (hfdb r hr).read_back
  have hkeys : haveKeys s (reconcileFDB s fdb) = desiredKeys s := by
    ext k
    rw [mem_haveKeys, desiredKeys_eq hs, Finset.mem_image, heq]
    constructor
    · rintro ⟨r, hr, hm, hk⟩
      rcases Finset.mem_union.mp hr with hr | hr
      · exact absurd hm (Finset.mem_filter.mp hr).2
      · exact ⟨r, hr, hk⟩
    · rintro ⟨r, hr, hk⟩
      exact ⟨r, Finset.mem_union_right _ hr, managed_of_mem_desiredRows hr, hk⟩
  have happend : toAppend s (reconcileFDB s fdb) = ∅ := by
    rw [toAppend, hkeys, Finset.sdiff_self]
  have hdelete : toDelete s (reconcileFDB s fdb) = ∅ := by
    rw [toDelete, hkeys, Finset.sdiff_self]
  refine ⟨happend, hdelete, ?_⟩
  intro k hk
  rw [desiredKeys_eq hs, Finset.mem_image] at hk
  obtain ⟨r, hr, rfl⟩ := hk
  rw [(regular_of_mem_desiredRows hs hr).read_back, reconcileFDB_requests, happend, hdelete, heq]
  exact Finset.mem_union_right _ hr

/-- An address that is not ordinary is appended in every call. -/
theorem ordinary_of_toAppend (hfdb : ∀ r ∈ fdb, Listed r)
    (happend : toAppend s (reconcileFDB s fdb) = ∅) : OrdinaryState s := by
  intro p hp a ha
  have hwant : (⟨broadcastMAC.string, a.string⟩ : FdbKey) ∈ desiredKeys s := by
    rw [desiredKeys, List.mem_toFinset, List.mem_flatMap]
    exact ⟨p, hp, by rw [ha]; exact List.mem_cons_self⟩
  rw [toAppend, Finset.sdiff_eq_empty_iff_subset] at happend
  obtain ⟨r, hr, -, hkey⟩ := mem_haveKeys.mp (happend hwant)
  exact ordinary_of_listed (listed_ip_reconcileFDB hfdb hr) (congrArg FdbKey.ip hkey)

/--
**A second call has nothing to do exactly when every underlay address is ordinary**:
when none has a zone and none is IPv4-mapped.
-/
theorem reconcileFDB_twice_iff (s : State) {fdb : Fdb} (hfdb : ∀ r ∈ fdb, Listed r) :
    (toAppend s (reconcileFDB s fdb) = ∅ ∧ toDelete s (reconcileFDB s fdb) = ∅
        ∧ ∀ k ∈ desiredKeys s, k.row.stored ∈ reconcileFDB s (reconcileFDB s fdb))
      ↔ ∀ p ∈ s.peers, ∀ a, p.underlayAddr = some a → a.zone = [] ∧ a.is4In6 = false := by
  constructor
  · rintro ⟨happend, -, -⟩
    exact ordinary_of_toAppend hfdb happend
  · intro hs
    exact requests_after_ordinary hs hfdb

end Twice

section Sample

attribute [local instance] clearSha256

theorem operatorRow_listed : ∀ r ∈ ({operatorRow} : Fdb), Listed r := by
  intro r hr
  rw [Finset.mem_singleton.mp hr]
  exact ⟨rfl, .inr ⟨.v4 0xC0000201, by decide, by decide +kernel⟩⟩

/-- A peer with an IPv4 address and one with an IPv6 address. -/
def plainPeers : State :=
  fdbState [("bob", 1, .v4 0xAC100002), ("carol", 2, .v6 0xFD000000000000000000000000000001 [])]

theorem reconcileFDB_twice_plain :
    toAppend plainPeers (reconcileFDB plainPeers {operatorRow}) = ∅
      ∧ toDelete plainPeers (reconcileFDB plainPeers {operatorRow}) = ∅
      ∧ ∀ k ∈ desiredKeys plainPeers,
        k.row.stored ∈ reconcileFDB plainPeers (reconcileFDB plainPeers {operatorRow}) :=
  (reconcileFDB_twice_iff plainPeers operatorRow_listed).mpr (by decide +kernel)

/-- The address of this peer is written `::ffff:172.16.0.2` in its Hello. -/
def mappedPeer : State := fdbState [("bob", 1, .v6 0xFFFFAC100002 [])]

/-- The second call takes away what the first has written. -/
theorem mapped_row_deleted :
    Gossip.parseHelloAddr (str "::ffff:172.16.0.2") = some (.v6 0xFFFFAC100002 [])
      ∧ reconcileFDB mappedPeer {operatorRow}
        = {operatorRow, ⟨broadcastMAC, [172, 16, 0, 2]⟩, ⟨[0x02, 1, 1, 1, 1, 1], [172, 16, 0, 2]⟩}
      ∧ toAppend mappedPeer (reconcileFDB mappedPeer {operatorRow}) ≠ ∅
      ∧ toDelete mappedPeer (reconcileFDB mappedPeer {operatorRow}) ≠ ∅
      ∧ reconcileFDB mappedPeer (reconcileFDB mappedPeer {operatorRow}) = {operatorRow} := by
  decide +kernel

end Sample

end Gsnet.Dataplane
