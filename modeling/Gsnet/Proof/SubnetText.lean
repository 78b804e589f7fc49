import Gsnet.Go.NetipText
import Gsnet.Lib.Fallible
import Gsnet.Subnet

/-!
# The texts of a subnet

A subnet is written as a prefix or as a hardware address, with its weight behind it,
and the plane knows subnets by this text. What is read back is the subnet, but for
one thing: `String` takes the weight zero for no weight at all, and so it comes back
as the default.

Reading asks for a hardware address first. The text of an address is never one in
the six-octet forms, since six groups are no IPv6 address; eight pairs of digits are
both (`Eui64`).
-/

namespace Gsnet.Subnet

open Go Lib

/-! ## Hardware addresses -/

theorem lenientOctet_eq_some {p : GoString} {b : UInt8} (h : lenientOctet p = some b) :
    p ≠ [] ∧ p.length ≤ 2 ∧ ∀ c ∈ p, isHex c = true := by
  unfold lenientOctet at h
  split at h
  · cases h
  rename_i hlen
  split at h
  · rename_i hall
    refine ⟨fun hnil => hlen (.inl (by rw [hnil]; rfl)), ?_, List.all_eq_true.mp hall⟩
    omega
  · cases h

/-- **What is taken for a hardware address**: one of the spellings, or six short groups. -/
theorem parseMAC_cases {s : GoString} {mac : HardwareAddr} (h : parseMAC s = some mac) :
    Go.parseMAC s = some mac
      ∨ mac.length = 6 ∧ (split 0x3A s).length = 6
        ∧ ∀ p ∈ split 0x3A s, p ≠ [] ∧ p.length ≤ 2 ∧ ∀ c ∈ p, isHex c = true := by
  unfold parseMAC at h
  split at h
  · rename_i m hm
    cases h
    exact .inl hm
  · simp only at h
    split at h
    · cases h
    · rename_i hsix
      have hsix := not_not.mp hsix
      have hparts := mapM_eq_some.mp h
      refine .inr ⟨hparts.length_eq ▸ hsix, hsix, fun p hp => ?_⟩
      obtain ⟨i, hi, rfl⟩ := List.mem_iff_getElem.mp hp
      exact lenientOctet_eq_some (hparts.get hi (hparts.length_eq ▸ hi))

theorem parseMAC_length {s : GoString} {mac : HardwareAddr} (h : parseMAC s = some mac) :
    mac.length ∈ [6, 8, 20] := by
  rcases parseMAC_cases h with h | ⟨hsix, -, -⟩
  · exact (parseMAC_eq_some h).1
  · rw [hsix]
    decide

theorem parseMAC_chars {s : GoString} {mac : HardwareAddr} (h : parseMAC s = some mac) :
    ∀ c ∈ s, isHex c = true ∨ c = 0x3A ∨ c = 0x2D ∨ c = 0x2E := by
  intro c hc
  rcases parseMAC_cases h with h | ⟨-, -, hparts⟩
  · rcases (parseMAC_eq_some h).2 with ⟨sep, hsep, hpairs, -⟩ | ⟨n, hpairs⟩
    · rcases mem_of_mem_split sep hc with rfl | ⟨p, hp, hc⟩
      · exact .inr (hsep.imp_right .inl)
      · exact .inl ((hpairs p hp).2 c hc)
    · exact ((macPairs_eq_some hpairs).2 c hc).imp_right fun h => .inr (.inr h)
  · rcases mem_of_mem_split 0x3A hc with hc | ⟨p, hp, hc⟩
    · exact .inr (.inl hc)
    · exact .inl ((hparts p hp).2.2 c hc)

/-- Its text is read back, from whatever spelling it was. -/
theorem parseMAC_string {mac : HardwareAddr} (h : mac.length ∈ [6, 8, 20]) :
    parseMAC mac.string = some mac := by
  rw [parseMAC, Go.parseMAC_string h]

/-! ## What is accepted -/

/-- Either a hardware address of some length, or a prefix without host bits. -/
inductive Proper : Subnet → Prop
  | mac {mac : HardwareAddr} {weight : Int64} (h : mac.length ∈ [6, 8, 20]) :
      Proper ⟨none, some mac, weight⟩
  | cidr {p : Prefix} {weight : Int64} (hbits : p.bits ≤ p.addr.bitLen) (hmasked : p.masked = p) :
      Proper ⟨some p, none, weight⟩

/-- A prefix of full length has no host bits. -/
theorem masked_host (a : Addr) : (prefixFrom a a.bitLen).masked = prefixFrom a a.bitLen := by
  cases a with
  | v4 ip => simp [prefixFrom, Prefix.masked, Addr.withoutZone, Addr.bitLen]
  | v6 ip zone => simp [prefixFrom, Prefix.masked, Addr.withoutZone, Addr.bitLen]

theorem bitLen_withoutZone (a : Addr) : a.withoutZone.bitLen = a.bitLen := by
  cases a <;> rfl

theorem proper_of_parseBody {s : GoString} {x : Subnet} (h : parseBody s = .ok x) (weight : Int64) :
    Proper { x with weight := weight } := by
  unfold parseBody at h
  split at h
  · rename_i mac hmac
    cases h
    exact .mac (parseMAC_length hmac)
  split at h
  · split at h
    · rename_i a ha
      cases h
      refine .cidr ?_ (masked_host a)
      rw [prefixFrom, bitLen_withoutZone]
    · cases h
  · split at h
    · cases h
    · rename_i p hp
      split at h
      · cases h
      · rename_i hmasked
        cases h
        obtain ⟨_, _, -, -, -, hbits⟩ := parsePrefix_eq_some.mp hp
        exact .cidr (parseBits_le hbits) (not_not.mp hmasked)

/-- The weight a text gives; a text without one has the default. -/
theorem parse_eq_ok {s : GoString} {x : Subnet} : parse s = .ok x ↔
    ∃ body weight y, splitWeight s = .ok (body, weight) ∧ parseBody body = .ok y
      ∧ x = { y with weight := weight } := by
  unfold parse
  rw [bind_eq_ok]
  constructor
  · rintro ⟨⟨body, weight⟩, hsplit, h⟩
    obtain ⟨y, hy, h⟩ := bind_eq_ok.mp h
    exact ⟨body, weight, y, hsplit, hy, (Except.ok.inj h).symm⟩
  · rintro ⟨body, weight, y, hsplit, hy, rfl⟩
    exact ⟨(body, weight), hsplit, bind_eq_ok.mpr ⟨y, hy, rfl⟩⟩

theorem proper_of_parse {s : GoString} {x : Subnet} (h : parse s = .ok x) : Proper x := by
  obtain ⟨body, weight, y, -, hy, rfl⟩ := parse_eq_ok.mp h
  exact proper_of_parseBody hy weight

/-! ## Written and read back -/

/-- **What is written before the weight is read back.** -/
theorem Proper.parseBody {x : Subnet} (h : x.Proper) :
    parseBody x.body = .ok { x with weight := 0 } := by
  cases h with
  | mac hlen =>
      simp only [body, Subnet.parseBody, parseMAC_string hlen]
  | @cidr p weight hbits hmasked =>
      have hslash : (0x2F : UInt8) ∈ p.string := by simp [Prefix.string]
      have hmac : parseMAC p.string = none := by
        cases hm : parseMAC p.string with
        | none => rfl
        | some mac => exact absurd (parseMAC_chars hm _ hslash) (by decide)
      simp only [body, Option.elim_some, Subnet.parseBody, hmac, hslash, not_true_eq_false,
        if_false, parsePrefix_string hbits, hmasked, ne_eq]

/-- There is no `#` in it. -/
theorem Proper.notMem_body {x : Subnet} (h : x.Proper) : 0x23 ∉ x.body := by
  intro hm
  cases h with
  | mac hlen =>
      have hmac := parseMAC_string hlen
      exact absurd (parseMAC_chars hmac _ hm) (by decide)
  | @cidr p weight hbits hmasked =>
      have hm : (0x23 : UInt8) ∈ p.addr.string ++ 0x2F :: formatUint p.bits := hm
      rcases List.mem_append.mp hm with hm | hm
      · rcases parseAddr_eq_some (parseAddr_string p.addr) with ⟨-, hchars, -⟩ | ⟨u, -, -, -, hzone⟩
        · exact absurd (hchars _ hm) (by unfold IPv6Char; decide)
        · exact hzone p.unzoned
      · rcases List.mem_cons.mp hm with hm | hm
        · exact absurd hm (by decide)
        · obtain ⟨d, hd, heq⟩ := formatUint_digits p.bits _ hm
          exact absurd heq ((by decide : ∀ d < 10, (0x23 : UInt8) ≠ digit d) d hd)

/-- The text says that the weight is zero. -/
def ZeroWeight (s : GoString) : Prop := ∃ body w, cut 0x23 s = (body, some w) ∧ parseInt w = some 0

theorem defaultWeight_ne_zero : defaultWeight ≠ 0 := by decide

theorem weight_eq_zero_iff {s : GoString} {x : Subnet} (h : parse s = .ok x) :
    x.weight = 0 ↔ ZeroWeight s := by
  obtain ⟨body, weight, y, hsplit, -, rfl⟩ := parse_eq_ok.mp h
  unfold splitWeight at hsplit
  cases hcut : cut 0x23 s with
  | mk before rest =>
      cases rest with
      | none =>
          rw [hcut] at hsplit
          cases hsplit
          refine iff_of_false defaultWeight_ne_zero ?_
          rintro ⟨_, _, hcut', -⟩
          cases hcut.symm.trans hcut'
      | some w =>
          rw [hcut] at hsplit
          simp only at hsplit
          split at hsplit
          · rename_i n hn
            cases hsplit
            constructor
            · rintro rfl
              exact ⟨_, w, hcut, hn⟩
            · rintro ⟨_, w', hcut', hzero⟩
              cases hcut.symm.trans hcut'
              exact Option.some.inj (hn.symm.trans hzero)
          · cases hsplit

/--
**A subnet is read back from its text exactly if its weight was not given as zero.**
Prefix and hardware address always come back.
-/
theorem parse_string_iff {s : GoString} {x : Subnet} (h : parse s = .ok x) :
    parse x.string = .ok x ↔ ¬ ZeroWeight s := by
  rw [← weight_eq_zero_iff h]
  have hproper := proper_of_parse h
  have hbody := hproper.parseBody
  have hno := hproper.notMem_body
  by_cases hgiven : x.weight ≠ 0 ∧ x.weight ≠ defaultWeight
  · have hsplit : splitWeight x.string = .ok (x.body, x.weight) := by
      simp only [splitWeight, string, if_pos hgiven, cut_append hno, parseInt_formatInt]
    exact iff_of_true (parse_eq_ok.mpr ⟨_, _, _, hsplit, hbody, rfl⟩) hgiven.1
  · have hsplit : splitWeight x.string = .ok (x.body, defaultWeight) := by
      simp only [splitWeight, string, if_neg hgiven, cut_of_notMem hno]
    have hread : parse x.string = .ok { x with weight := defaultWeight } :=
      parse_eq_ok.mpr ⟨_, _, _, hsplit, hbody, rfl⟩
    rw [hread, Except.ok.injEq]
    constructor
    · intro heq hzero
      have hweight := congrArg weight heq
      rw [hzero] at hweight
      exact defaultWeight_ne_zero hweight
    · intro hzero
      have hweight : x.weight = defaultWeight := by
        by_contra hne
        exact hgiven ⟨hzero, hne⟩
      rw [← hweight]

/-- A hardware address in short groups, with a weight. -/
theorem parse_string_mac : parse (string ⟨none, some [0, 0x1A, 0x2B, 3, 4, 0x5E], -3⟩)
    = .ok ⟨none, some [0, 0x1A, 0x2B, 3, 4, 0x5E], -3⟩ := by
  have hparse : parse (str "0:1a:2B:3:4:5e#-3")
      = .ok ⟨none, some [0, 0x1A, 0x2B, 3, 4, 0x5E], -3⟩ := by decide +kernel
  refine (parse_string_iff hparse).mpr ?_
  rw [← weight_eq_zero_iff hparse]
  decide

/-- The weight zero is lost. -/
theorem zero_weight_lost :
    parse (str "10.0.0.0/8#0") = .ok ⟨some ⟨.v4 0x0A000000, 8, rfl⟩, none, 0⟩
      ∧ parse (string ⟨some ⟨.v4 0x0A000000, 8, rfl⟩, none, 0⟩)
        = .ok ⟨some ⟨.v4 0x0A000000, 8, rfl⟩, none, 10⟩ := by
  decide +kernel

/-! ## Addresses and hardware addresses -/

/-- Eight pairs of digits with colons between them. -/
def Eui64 (s : GoString) : Prop := (split 0x3A s).length = 8 ∧ ∀ p ∈ split 0x3A s, IsPair p

instance (s : GoString) : Decidable (Eui64 s) := inferInstanceAs (Decidable (_ ∧ _))

theorem Eui64.parseMAC {s : GoString} (h : Eui64 s) : ∃ mac, Subnet.parseMAC s = some mac := by
  obtain ⟨hlen, hpairs⟩ := h
  obtain ⟨hw, hoctets, hcount⟩ := macOctets_of_pairs (Nat.le_refl s.length) hpairs
  refine ⟨hw, ?_⟩
  have hsep : (s.drop 2).head? = some 0x3A := by
    rcases split_cases 0x3A s with ⟨-, hs⟩ | ⟨a, t, rfl, -, hs⟩
    · rw [hs] at hlen
      cases hlen
    · have hpair : IsPair a := hpairs a (by rw [hs]; simp)
      rw [← hpair.1, List.drop_left, List.head?_cons]
  have hsepD : (s.drop 2).headD 0 = 0x3A := by
    rw [List.headD_eq_head?_getD, hsep, Option.getD_some]
  have hmac : Go.parseMAC s = some hw := by
    unfold Go.parseMAC
    simp only [hsep, Option.any_some, hsepD, decide_true, Bool.true_or, if_true, hoctets,
      Option.bind_some, hcount, hlen]
    rfl
  rw [Subnet.parseMAC, hmac]

/-- **Of the texts of addresses, those are taken for hardware addresses and no others.** -/
theorem parseMAC_of_addr_iff {s : GoString} {a : Addr} (ha : parseAddr s = some a) :
    (∃ mac, parseMAC s = some mac) ↔ Eui64 s := by
  refine ⟨?_, Eui64.parseMAC⟩
  rintro ⟨mac, hmac⟩
  have hpair : ∀ {p : GoString}, IsPair p → p ≠ [] ∧ p.length ≤ 4 ∧ ∀ c ∈ p, isHex c = true := by
    rintro p ⟨hlen, hhex⟩
    refine ⟨fun hnil => ?_, by omega, hhex⟩
    rw [hnil] at hlen
    cases hlen
  rcases parseMAC_cases hmac with hmac | ⟨-, hsix, hparts⟩
  · rcases (parseMAC_eq_some hmac).2 with ⟨sep, rfl | rfl, hpairs, -⟩ | ⟨n, hpairs⟩
    · have hgrouped : Grouped s := fun p hp => hpair (hpairs p hp)
      exact ⟨hgrouped.eight ha, hpairs⟩
    · -- with dashes there is nothing an address is recognised by
      exfalso
      unfold parseAddr at ha
      split at ha
      · cases ha
      · rename_i c hfind
        have hc := List.find?_some hfind
        rcases mem_of_mem_split 0x2D (List.mem_of_find?_eq_some hfind) with rfl | ⟨p, hp, hmem⟩
        · exact absurd hc (by decide)
        · have hhex := (hpairs p hp).2 c hmem
          simp only [Bool.or_eq_true, decide_eq_true_eq] at hc
          rcases hc with (rfl | rfl) | rfl
          · exact absurd hhex (by decide)
          · exact absurd hhex (by decide)
          · exact absurd hhex (by decide)
    · -- with dots it would be IPv4, of four digits a field
      exfalso
      obtain ⟨⟨x, y, z, w, t, rfl, hx, hy, hz, hw⟩, hchars⟩ := macPairs_eq_some hpairs
      unfold parseAddr at ha
      split at ha
      · cases ha
      · rename_i c hfind
        have hc := List.find?_some hfind
        rcases hchars c (List.mem_of_find?_eq_some hfind) with hhex | rfl
        · simp only [Bool.or_eq_true, decide_eq_true_eq] at hc
          rcases hc with (rfl | rfl) | rfl
          · exact absurd hhex (by decide)
          · exact absurd hhex (by decide)
          · exact absurd hhex (by decide)
        · obtain ⟨f, hf, -⟩ := Option.map_eq_some_iff.mp ha
          exact parseIPv4Fields_four hx hy hz hw hf
  · -- six groups are too few
    exfalso
    have hgrouped : Grouped s := fun p hp => by
      obtain ⟨hne, hlen, hhex⟩ := hparts p hp
      exact ⟨hne, by omega, hhex⟩
    have height := hgrouped.eight ha
    omega

/-- A slash in the text of an address is in its zone, and no prefix has a zone. -/
theorem parsePrefix_of_addr {s : GoString} {a : Addr} (ha : parseAddr s = some a) :
    parsePrefix s = none := by
  cases hp : parsePrefix s with
  | none => rfl
  | some p =>
      exfalso
      obtain ⟨x, bits, rfl, -, hx, -⟩ := parsePrefix_eq_some.mp hp
      have hslash : ¬ IPv6Char 0x2F := by unfold IPv6Char; decide
      rcases parseAddr_eq_some ha with ⟨-, hchars, -⟩ | ⟨u, hs, -, hchars, -⟩
      · exact hslash (hchars _ (by simp))
      · -- the percent sign is before the slash
        have hpercent : (0x25 : UInt8) ∈ x := by
          rcases List.append_eq_append_iff.mp hs with ⟨v, rfl, hv⟩ | ⟨v, rfl, hv⟩
          · cases v with
            | nil => exact absurd (List.cons.inj hv).1 (by decide)
            | cons c v =>
                rw [← (List.cons.inj hv).1] at hchars
                exact absurd (hchars 0x2F (by simp)) hslash
          · cases v with
            | nil => exact absurd (List.cons.inj hv).1 (by decide)
            | cons c v =>
                rw [← (List.cons.inj hv).1]
                simp
        rcases parseAddr_eq_some hx with ⟨hno, -, -⟩ | ⟨u', -, -, -, hzone⟩
        · exact hno hpercent
        · exact hzone p.unzoned

/-- The host subnet of an address. -/
def host (a : Addr) : Subnet := ⟨some (prefixFrom a a.bitLen), none, defaultWeight⟩

/-- One of the two is set: a prefix that is valid, or a hardware address. -/
def ExactlyOne (x : Subnet) : Prop :=
  Xor (∃ p, x.cidr = some p ∧ p.bits ≤ p.addr.bitLen) (x.mac ≠ none)

/--
**The text of an address is read as its host subnet exactly if it is not eight pairs
of digits and no slash is in its zone**; and whatever is read is one thing, a prefix
or a hardware address.
-/
theorem parse_addr_iff (s : GoString) :
    (∀ a : Addr, 0x23 ∉ s → parseAddr s = some a →
        (parse s = .ok (host a) ↔ ¬ Eui64 s ∧ 0x2F ∉ s))
      ∧ ∀ x : Subnet, parse s = .ok x → x.ExactlyOne := by
  constructor
  · intro a hno ha
    have hsplit : splitWeight s = .ok (s, defaultWeight) := by
      rw [splitWeight, cut_of_notMem hno]
    have hparse : ∀ {x : Subnet}, parse s = .ok x
        ↔ ∃ y, parseBody s = .ok y ∧ x = { y with weight := defaultWeight } := by
      intro x
      rw [parse_eq_ok]
      constructor
      · rintro ⟨body, weight, y, h, hy, rfl⟩
        cases hsplit.symm.trans h
        exact ⟨y, hy, rfl⟩
      · rintro ⟨y, hy, rfl⟩
        exact ⟨s, defaultWeight, y, hsplit, hy, rfl⟩
    rw [hparse, ← parseMAC_of_addr_iff ha]
    unfold Subnet.parseBody
    cases hmac : Subnet.parseMAC s with
    | some mac =>
        refine iff_of_false ?_ fun h => h.1 ⟨mac, rfl⟩
        rintro ⟨y, hy, heq⟩
        cases hy
        cases heq
    | none =>
        by_cases hslash : 0x2F ∈ s
        · simp only [hslash, not_true_eq_false, if_false, parsePrefix_of_addr ha, and_false,
            iff_false]
          rintro ⟨y, hy, -⟩
          cases hy
        · simp only [hslash, not_false_eq_true, if_true, ha, and_true]
          refine iff_of_true ⟨_, rfl, rfl⟩ ?_
          rintro ⟨mac, h⟩
          cases h
  · intro x h
    cases proper_of_parse h with
    | mac hlen => exact .inr ⟨by simp, by rintro ⟨p, hp, -⟩; cases hp⟩
    | cidr hbits hmasked => exact .inl ⟨⟨_, rfl, hbits⟩, by simp⟩

/-- An address with a zone. -/
theorem parse_addr_zoned :
    parse (str "fe80::1%eth0") = .ok (host (.v6 0xFE800000000000000000000000000001 (str "eth0")))
      ∧ ExactlyOne (host (.v6 0xFE800000000000000000000000000001 (str "eth0"))) := by
  have hread : parse (str "fe80::1%eth0")
      = .ok (host (.v6 0xFE800000000000000000000000000001 (str "eth0"))) :=
    ((parse_addr_iff (str "fe80::1%eth0")).1 _ (by decide) (by decide +kernel)).mpr (by decide)
  exact ⟨hread, (parse_addr_iff _).2 _ hread⟩

/-- An IPv6 address of eight pairs is taken for a hardware address, a slash in a zone for bits. -/
theorem addr_taken_for_mac :
    parseAddr (str "20:01:0d:b8:00:00:00:01")
        = some (.v6 0x0020_0001_000D_00B8_0000_0000_0000_0001 [])
      ∧ parse (str "20:01:0d:b8:00:00:00:01")
        = .ok ⟨none, some [0x20, 0x01, 0x0D, 0xB8, 0x00, 0x00, 0x00, 0x01], 10⟩
      ∧ parseAddr (str "fe80::1%a/b") = some (.v6 0xFE800000000000000000000000000001 (str "a/b"))
      ∧ parse (str "fe80::1%a/b") = .error (.cidr (str "fe80::1%a/b")) := by
  decide +kernel

end Gsnet.Subnet
