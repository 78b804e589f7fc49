import Gsnet.Go.Filepath
import Gsnet.Go.NetipProof
import Gsnet.Go.StringsProof

/-!
# Which texts are addresses

What the readers of `net/netip` and `net` accept, as far as it can be said without
running them: which characters there can be, where a prefix falls apart, and how
many groups an IPv6 address without `::` has. A text that is only digits and colons
can be read as a hardware address too, and here is what tells the two apart.
-/

namespace Gsnet.Go

/-! ## Texts and their parts -/

/-- A text has a first separator, or it is its only part. -/
theorem split_cases (sep : UInt8) (s : GoString) :
    (sep ∉ s ∧ split sep s = [s])
      ∨ ∃ a t, s = a ++ sep :: t ∧ sep ∉ a ∧ split sep s = a :: split sep t := by
  cases hcut : cut sep s with
  | mk a rest =>
      cases rest with
      | none =>
          have hno := cut_eq_none hcut
          exact .inl ⟨hno, split_of_notMem hno⟩
      | some t =>
          obtain ⟨hs, hno⟩ := cut_eq_some hcut
          refine .inr ⟨a, t, hs, hno, ?_⟩
          rw [hs, split_append_sep, split_of_notMem hno, List.singleton_append]

/-- Every character is a separator or in one of the parts. -/
theorem mem_of_mem_split (sep : UInt8) {c : UInt8} {s : GoString} (h : c ∈ s) :
    c = sep ∨ ∃ p ∈ split sep s, c ∈ p := by
  induction s with
  | nil => cases h
  | cons d s ih =>
      rw [split]
      by_cases hd : d = sep
      · rw [if_pos hd]
        rcases List.mem_cons.mp h with rfl | h
        · exact .inl hd
        · rcases ih h with hc | ⟨p, hp, hc⟩
          · exact .inl hc
          · exact .inr ⟨p, List.mem_cons_of_mem _ hp, hc⟩
      · rw [if_neg hd]
        obtain ⟨q, qs, hq⟩ := List.exists_cons_of_ne_nil (split_ne_nil sep s)
        rw [hq]
        rcases List.mem_cons.mp h with rfl | h
        · exact .inr ⟨c :: q, List.mem_cons_self, List.mem_cons_self⟩
        · rcases ih h with hc | ⟨p, hp, hc⟩
          · exact .inl hc
          · rw [hq] at hp
            rcases List.mem_cons.mp hp with rfl | hp
            · exact .inr ⟨d :: p, List.mem_cons_self, List.mem_cons_of_mem _ hc⟩
            · exact .inr ⟨p, List.mem_cons_of_mem _ hp, hc⟩

/-! ## Characters -/

theorem parseIPv4Fields_chars {fields : List UInt8} {val digLen : Nat} {s : GoString}
    {out : List UInt8} (h : parseIPv4Fields fields val digLen s = some out) :
    ∀ c ∈ s, isDigit c = true ∨ c = 0x2E := by
  induction s generalizing fields val digLen with
  | nil => simp
  | cons c t ih =>
      rw [parseIPv4Fields] at h
      split at h
      · rename_i hdigit
        split at h
        · cases h
        split at h
        · cases h
        · exact List.forall_mem_cons.mpr ⟨.inl hdigit, ih h⟩
      · split at h
        · rename_i hdot
          split at h
          · cases h
          split at h
          · cases h
          · exact List.forall_mem_cons.mpr ⟨.inr hdot, ih h⟩
        · cases h

/-- What an IPv6 address without its zone is written with. -/
def IPv6Char (c : UInt8) : Prop := isHex c = true ∨ c = 0x3A ∨ c = 0x2E

theorem ipv6Char_of_isDigit {c : UInt8} (h : isDigit c = true ∨ c = 0x2E) : IPv6Char c := by
  rcases h with h | h
  · exact .inl (by simp [isHex, h])
  · exact .inr (.inr h)

/-- The digits of a field are digits, and what follows them was looked at. -/
theorem parseIPv6Fields_chars {n : Nat} {ip : List UInt8} {ell : Option Nat} {s : GoString}
    {ip' : List UInt8} {ell' : Option Nat} (h : parseIPv6Fields n ip ell s = some (ip', ell', [])) :
    ∀ c ∈ s, IPv6Char c := by
  induction n generalizing ip ell s with
  | zero =>
      cases h
      simp
  | succ n ih =>
      have hsplit : s = s.takeWhile isHex ++ s.dropWhile isHex :=
        (List.takeWhile_append_dropWhile).symm
      have hdigits : ∀ c ∈ s.takeWhile isHex, IPv6Char c :=
        fun c hc => .inl (List.mem_takeWhile_imp hc)
      have hrest : (∀ c ∈ s.dropWhile isHex, IPv6Char c) → ∀ c ∈ s, IPv6Char c := by
        intro hall c hc
        rw [hsplit] at hc
        rcases List.mem_append.mp hc with hc | hc
        · exact hdigits c hc
        · exact hall c hc
      rw [parseIPv6Fields] at h
      split at h
      · cases h
      split at h
      · rename_i hnil
        exact hrest (by rw [hnil]; simp)
      · rename_i c t hdrop
        split at h
        · -- the text of the field is read again, as IPv4
          split at h
          · cases h
          split at h
          · cases h
          · obtain ⟨f, hf, -⟩ := Option.map_eq_some_iff.mp h
            exact fun c hc => ipv6Char_of_isDigit (parseIPv4Fields_chars hf c hc)
        split at h
        · cases h
        rename_i hdot hcolon
        have hc : IPv6Char c := .inr (.inl (not_not.mp hcolon))
        refine hrest ?_
        rw [hdrop]
        split at h
        · cases h
        · rename_i d u
          split at h
          · rename_i hd
            split at h
            · cases h
            split at h
            · rename_i hnil
              rw [hnil]
              exact List.forall_mem_cons.mpr ⟨hc, by simp [IPv6Char, hd]⟩
            · refine List.forall_mem_cons.mpr ⟨hc, List.forall_mem_cons.mpr ⟨?_, ih h⟩⟩
              exact .inr (.inl hd)
          · exact List.forall_mem_cons.mpr ⟨hc, ih h⟩

theorem parseIPv6Bytes_chars {s : GoString} {b : List UInt8} (h : parseIPv6Bytes s = some b) :
    ∀ c ∈ s, IPv6Char c := by
  have hcolon : IPv6Char 0x3A := .inr (.inl rfl)
  by_cases hlead : s.take 2 = [0x3A, 0x3A]
  · have hsplit : s = [0x3A, 0x3A] ++ s.drop 2 := by rw [← hlead, List.take_append_drop]
    have hrest : (∀ c ∈ s.drop 2, IPv6Char c) → ∀ c ∈ s, IPv6Char c := by
      intro hall c hc
      rw [hsplit] at hc
      simp only [List.cons_append, List.nil_append, List.mem_cons] at hc
      rcases hc with rfl | rfl | hc
      · exact hcolon
      · exact hcolon
      · exact hall c hc
    rw [hsplit, List.cons_append, List.cons_append, List.nil_append, parseIPv6Bytes_lead] at h
    split at h
    · rename_i hnil
      exact hrest (by rw [hnil]; simp)
    · obtain ⟨⟨ip, ell, rest⟩, hfields, h⟩ := Option.bind_eq_some_iff.mp h
      simp only at h
      split at h
      · cases h
      · rename_i hnil
        rw [not_not.mp hnil] at hfields
        exact hrest (parseIPv6Fields_chars hfields)
  · rw [parseIPv6Bytes_of_not_lead hlead] at h
    obtain ⟨⟨ip, ell, rest⟩, hfields, h⟩ := Option.bind_eq_some_iff.mp h
    simp only at h
    split at h
    · cases h
    · rename_i hnil
      rw [not_not.mp hnil] at hfields
      exact parseIPv6Fields_chars hfields

/-- A zone stands behind a percent sign and is not empty. -/
theorem parseIPv6_eq_some {s : GoString} {a : Addr} (h : parseIPv6 s = some a) :
    (0x25 ∉ s ∧ (∀ c ∈ s, IPv6Char c) ∧ a.zone = [])
      ∨ ∃ u, s = u ++ 0x25 :: a.zone ∧ 0x25 ∉ u ∧ (∀ c ∈ u, IPv6Char c) ∧ a.zone ≠ [] := by
  have hbefore : ∀ c ∈ s.takeWhile (· != 0x25), (c != 0x25) = true :=
    fun c hc => List.mem_takeWhile_imp (p := (· != 0x25)) hc
  unfold parseIPv6 at h
  split at h
  · rename_i hnil
    obtain ⟨b, hb, rfl⟩ := Option.map_eq_some_iff.mp h
    refine .inl ⟨fun hm => ?_, parseIPv6Bytes_chars hb, rfl⟩
    simpa using List.dropWhile_eq_nil_iff.mp hnil 0x25 hm
  · rename_i c zone hdrop
    split at h
    · cases h
    · rename_i hzone
      obtain ⟨b, hb, rfl⟩ := Option.map_eq_some_iff.mp h
      have hc : c = 0x25 := by
        have hhead := List.head_dropWhile_not (p := (· != 0x25)) (l := s) (by simp [hdrop])
        simpa [hdrop] using hhead
      refine .inr ⟨s.takeWhile (· != 0x25), ?_, fun hm => ?_, parseIPv6Bytes_chars hb, hzone⟩
      · have hsplit := (List.takeWhile_append_dropWhile (p := (· != 0x25)) (l := s)).symm
        rw [hdrop, hc] at hsplit
        exact hsplit
      · simpa using hbefore 0x25 hm

/-- What is before the zone of an address is written with digits, colons and dots. -/
theorem parseAddr_eq_some {s : GoString} {a : Addr} (h : parseAddr s = some a) :
    (0x25 ∉ s ∧ (∀ c ∈ s, IPv6Char c) ∧ a.zone = [])
      ∨ ∃ u, s = u ++ 0x25 :: a.zone ∧ 0x25 ∉ u ∧ (∀ c ∈ u, IPv6Char c) ∧ a.zone ≠ [] := by
  unfold parseAddr at h
  split at h
  · cases h
  split at h
  · obtain ⟨f, hf, rfl⟩ := Option.map_eq_some_iff.mp h
    have hchars := parseIPv4Fields_chars hf
    refine .inl ⟨fun hm => ?_, fun c hc => ipv6Char_of_isDigit (hchars c hc), rfl⟩
    exact absurd (hchars 0x25 hm) (by decide)
  split at h
  · exact parseIPv6_eq_some h
  · cases h

/-! ## Prefixes -/

/-- A text with a slash has a last one. -/
theorem exists_last {sep : UInt8} {s : GoString} (h : sep ∈ s) :
    ∃ x t, s = x ++ sep :: t ∧ sep ∉ t := by
  cases hcut : cut sep s.reverse with
  | mk t rest =>
      cases rest with
      | none => exact absurd (List.mem_reverse.mpr h) (cut_eq_none hcut)
      | some x =>
          obtain ⟨hs, hno⟩ := cut_eq_some hcut
          refine ⟨x.reverse, t.reverse, ?_, by simpa using hno⟩
          rw [← List.reverse_reverse s, hs]
          simp

/-- What is behind the last slash is taken for the bits. -/
theorem takeWhile_reverse_slash {bits : GoString} (h : 0x2F ∉ bits) (x : GoString) :
    ((x ++ 0x2F :: bits).reverse.takeWhile (· != 0x2F)).reverse = bits := by
  have hall : ∀ c ∈ bits.reverse, (c != 0x2F) = true := by
    intro c hc
    simp only [bne_iff_ne]
    rintro rfl
    exact h (List.mem_reverse.mp hc)
  rw [List.reverse_append, List.reverse_cons, List.append_assoc, List.takeWhile_append_of_pos hall]
  simp

theorem parsePrefix_append {x bits : GoString} (h : 0x2F ∉ bits) :
    parsePrefix (x ++ 0x2F :: bits) = (parseAddr x).bind fun ip => match ip with
      | .v4 a => (parseBits 32 bits).map fun n => ⟨.v4 a, n, rfl⟩
      | .v6 a zone =>
        if h : zone = [] then (parseBits 128 bits).map fun n => ⟨.v6 a zone, n, h⟩ else none := by
  have htake : (x ++ 0x2F :: bits).take ((x ++ 0x2F :: bits).length - bits.length - 1) = x := by
    have hlen : (x ++ 0x2F :: bits).length - bits.length - 1 = x.length := by
      simp only [List.length_append, List.length_cons]
      omega
    rw [hlen, List.take_left]
  have hne : bits.length ≠ (x ++ 0x2F :: bits).length := by
    simp only [List.length_append, List.length_cons]
    omega
  rw [parsePrefix]
  simp only [takeWhile_reverse_slash h]
  rw [if_neg hne, htake]
  rfl

/-- The bits stand behind the last slash, and are not more than the address has. -/
theorem parsePrefix_eq_some {s : GoString} {p : Prefix} :
    parsePrefix s = some p ↔ ∃ x bits, s = x ++ 0x2F :: bits ∧ 0x2F ∉ bits
      ∧ parseAddr x = some p.addr ∧ parseBits p.addr.bitLen bits = some p.bits := by
  have hsplit : ∀ {x bits : GoString}, 0x2F ∉ bits → (parsePrefix (x ++ 0x2F :: bits) = some p
      ↔ parseAddr x = some p.addr ∧ parseBits p.addr.bitLen bits = some p.bits) := by
    intro x bits hno
    obtain ⟨addr, n, hzone⟩ := p
    rw [parsePrefix_append hno, Option.bind_eq_some_iff]
    constructor
    · rintro ⟨ip, hip, h⟩
      cases ip with
      | v4 a =>
          obtain ⟨m, hm, heq⟩ := Option.map_eq_some_iff.mp h
          cases heq
          exact ⟨hip, hm⟩
      | v6 a zone =>
          simp only at h
          split at h
          · obtain ⟨m, hm, heq⟩ := Option.map_eq_some_iff.mp h
            cases heq
            exact ⟨hip, hm⟩
          · cases h
    · rintro ⟨hip, hbits⟩
      refine ⟨addr, hip, ?_⟩
      cases addr with
      | v4 a => exact Option.map_eq_some_iff.mpr ⟨n, hbits, rfl⟩
      | v6 a zone =>
          simp only [show zone = [] from hzone, dif_pos]
          exact Option.map_eq_some_iff.mpr ⟨n, hbits, by simp⟩
  constructor
  · intro h
    by_cases hmem : 0x2F ∈ s
    · obtain ⟨x, bits, rfl, hno⟩ := exists_last hmem
      exact ⟨x, bits, rfl, hno, (hsplit hno).mp h⟩
    · have hall : ∀ c ∈ s.reverse, (c != 0x2F) = true := by
        intro c hc
        simp only [bne_iff_ne]
        rintro rfl
        exact hmem (List.mem_reverse.mp hc)
      have htail : (s.reverse.takeWhile (· != 0x2F)).reverse = s := by
        rw [List.takeWhile_eq_self_iff.mpr hall, List.reverse_reverse]
      simp [parsePrefix, htail] at h
  · rintro ⟨x, bits, rfl, hno, h⟩
    exact (hsplit hno).mpr h

/-- The number of bits is in range. -/
theorem parseBits_le {max n : Nat} {s : GoString} (h : parseBits max s = some n) : n ≤ max := by
  unfold parseBits at h
  split at h
  · cases h
  · obtain ⟨m, -, h⟩ := Option.bind_eq_some_iff.mp h
    split at h
    · cases h
      assumption
    · cases h

/-- A number of two digits or more begins with another digit than zero. -/
theorem formatUint_ne_zero_cons (n : Nat) (c : UInt8) (t : GoString) :
    formatUint n ≠ 0x30 :: c :: t := by
  intro h
  unfold formatUint at h
  split at h
  · cases h
  · rename_i hn
    have hhead := congrArg List.head? h
    rw [List.head?_map, List.head?_reverse, List.head?_cons, Option.map_eq_some_iff] at hhead
    obtain ⟨d, hd, heq⟩ := hhead
    have hne : Nat.digits 10 n ≠ [] := Nat.digits_ne_nil_iff_ne_zero.mpr hn
    rw [List.getLast?_eq_some_getLast hne, Option.some.injEq] at hd
    subst hd
    have hlt := Nat.digits_lt_base (b := 10) (by omega) (List.getLast_mem hne)
    exact Nat.getLast_digit_ne_zero 10 hn
      ((by decide : ∀ d < 10, digit d = 0x30 → d = 0) _ hlt heq)

theorem parseBits_formatUint {max n : Nat} (h : n ≤ max) :
    parseBits max (formatUint n) = some n := by
  have hparse : (parseDigits (formatUint n)).bind (fun n => if n ≤ max then some n else none)
      = some n := by
    rw [parseDigits_formatUint, Option.bind_some, if_pos h]
  unfold parseBits
  split
  · rename_i c t heq
    exact absurd heq (formatUint_ne_zero_cons n _ _)
  · exact hparse

/-- **The text of a prefix reads back.** -/
theorem parsePrefix_string {p : Prefix} (h : p.bits ≤ p.addr.bitLen) :
    parsePrefix p.string = some p := by
  refine parsePrefix_eq_some.mpr ⟨p.addr.string, formatUint p.bits, rfl, fun hm => ?_,
    parseAddr_string p.addr, parseBits_formatUint h⟩
  obtain ⟨d, hd, heq⟩ := formatUint_digits p.bits _ hm
  exact absurd heq ((by decide : ∀ d < 10, (0x2F : UInt8) ≠ digit d) d hd)

/-! ## Groups of digits -/

/-- Every part between the colons is one to four digits. -/
def Grouped (s : GoString) : Prop :=
  ∀ p ∈ split 0x3A s, p ≠ [] ∧ p.length ≤ 4 ∧ ∀ c ∈ p, isHex c = true

theorem Grouped.chars {s : GoString} (h : Grouped s) : ∀ c ∈ s, isHex c = true ∨ c = 0x3A := by
  intro c hc
  rcases mem_of_mem_split 0x3A hc with hc | ⟨p, hp, hc⟩
  · exact .inr hc
  · exact .inl ((h p hp).2.2 c hc)

theorem Grouped.head {s : GoString} (h : Grouped s) : ∃ d u, s = d :: u ∧ isHex d = true := by
  rcases split_cases 0x3A s with ⟨-, hs⟩ | ⟨a, t, rfl, -, hs⟩
  · obtain ⟨hne, -, hhex⟩ := h s (by rw [hs]; simp)
    obtain ⟨d, u, rfl⟩ := List.exists_cons_of_ne_nil hne
    exact ⟨d, u, rfl, hhex d (by simp)⟩
  · obtain ⟨hne, -, hhex⟩ := h a (by rw [hs]; simp)
    obtain ⟨d, u, rfl⟩ := List.exists_cons_of_ne_nil hne
    exact ⟨d, u ++ 0x3A :: t, rfl, hhex d (by simp)⟩

/-- One group a round: without `::` the bytes count the groups. -/
theorem parseIPv6Fields_grouped {n : Nat} {ip : List UInt8} {s : GoString} (h : Grouped s)
    {ip' : List UInt8} {ell' : Option Nat}
    (hp : parseIPv6Fields n ip none s = some (ip', ell', [])) :
    ell' = none ∧ ip'.length = ip.length + 2 * (split 0x3A s).length
      ∧ (split 0x3A s).length ≤ n := by
  have hcolon : isHex 0x3A = false := by decide
  induction n generalizing ip s with
  | zero =>
      cases hp
      obtain ⟨d, u, hnil, -⟩ := h.head
      cases hnil
  | succ n ih =>
      rw [parseIPv6Fields] at hp
      rcases split_cases 0x3A s with ⟨-, hs⟩ | ⟨a, t, rfl, -, hs⟩
      · obtain ⟨hne, hlen, hhex⟩ := h s (by rw [hs]; simp)
        have htake : s.takeWhile isHex = s := List.takeWhile_eq_self_iff.mpr hhex
        have hdrop : s.dropWhile isHex = [] := List.dropWhile_eq_nil_iff.mpr hhex
        simp only [htake, hdrop] at hp
        rw [if_neg (not_or.mpr ⟨hne, by omega⟩)] at hp
        cases hp
        simp [hs, hexField]
      · obtain ⟨hne, hlen, hhex⟩ := h a (by rw [hs]; simp)
        have htake : (a ++ 0x3A :: t).takeWhile isHex = a := by
          rw [List.takeWhile_append_of_pos hhex]
          simp [hcolon]
        have hdrop : (a ++ 0x3A :: t).dropWhile isHex = 0x3A :: t := by
          rw [List.dropWhile_append_of_pos hhex]
          simp [hcolon]
        have ht : Grouped t := fun p hp => h p (by rw [hs]; exact List.mem_cons_of_mem _ hp)
        obtain ⟨d, u, rfl, hd⟩ := ht.head
        have hdc : d ≠ 0x3A := by
          rintro rfl
          rw [hcolon] at hd
          cases hd
        simp only [htake, hdrop] at hp
        rw [if_neg (not_or.mpr ⟨hne, by omega⟩), if_neg (by decide), if_neg (by decide),
          if_neg hdc] at hp
        obtain ⟨hell, hbytes, hle⟩ := ih ht hp
        refine ⟨hell, ?_, by rw [hs]; simpa using hle⟩
        rw [hbytes, hs]
        simp [hexField]
        omega

/-- **An IPv6 address without `::` has eight groups.** -/
theorem Grouped.eight {s : GoString} (h : Grouped s) {a : Addr} (ha : parseAddr s = some a) :
    (split 0x3A s).length = 8 := by
  have hchars := h.chars
  have hno : ∀ c, c = 0x2E ∨ c = 0x25 → c ∉ s := by
    rintro c hc hm
    rcases hc with rfl | rfl
    · exact absurd (hchars _ hm) (by decide)
    · exact absurd (hchars _ hm) (by decide)
  have hbytes : ∃ b, parseIPv6Bytes s = some b := by
    unfold parseAddr at ha
    split at ha
    · cases ha
    · rename_i c hfind
      have hc := List.mem_of_find?_eq_some hfind
      rw [if_neg fun heq => hno c (.inl heq) hc] at ha
      split at ha
      · unfold parseIPv6 at ha
        have hdrop : s.dropWhile (· != 0x25) = [] := by
          refine List.dropWhile_eq_nil_iff.mpr fun c hc => ?_
          simp only [bne_iff_ne]
          rintro rfl
          exact hno 0x25 (.inr rfl) hc
        rw [hdrop] at ha
        obtain ⟨b, hb, -⟩ := Option.map_eq_some_iff.mp ha
        exact ⟨b, hb⟩
      · cases ha
  obtain ⟨b, hb⟩ := hbytes
  have hlead : ¬ s.take 2 = [0x3A, 0x3A] := by
    obtain ⟨d, u, rfl, hd⟩ := h.head
    intro heq
    rw [List.take_succ_cons] at heq
    rw [(List.cons.inj heq).1] at hd
    exact absurd hd (by decide)
  rw [parseIPv6Bytes_of_not_lead hlead] at hb
  obtain ⟨⟨ip, ell, rest⟩, hfields, hb⟩ := Option.bind_eq_some_iff.mp hb
  simp only at hb
  split at hb
  · cases hb
  · rename_i hnil
    rw [not_not.mp hnil] at hfields
    obtain ⟨rfl, hlen, hle⟩ := parseIPv6Fields_grouped h hfields
    simp only [expandEllipsis] at hb
    split at hb
    · cases hb
    · rename_i hge
      rw [List.length_nil, Nat.zero_add] at hlen
      omega

/-- A digit that is read. -/
theorem parseIPv4Fields_hex {fields out : List UInt8} {val digLen : Nat} {c : UInt8} {t : GoString}
    (hc : isHex c = true) (h : parseIPv4Fields fields val digLen (c :: t) = some out) :
    ¬ (digLen = 1 ∧ val = 0) ∧ val * 10 + (c.toNat - 0x30) ≤ 255
      ∧ parseIPv4Fields fields (val * 10 + (c.toNat - 0x30)) (digLen + 1) t = some out := by
  rw [parseIPv4Fields] at h
  split at h
  · split at h
    · cases h
    rename_i hzero
    split at h
    · cases h
    · rename_i hbig
      exact ⟨hzero, by omega, h⟩
  · split at h
    · rename_i hdot
      rw [hdot] at hc
      exact absurd hc (by decide)
    · cases h

/-- Four digits are no octet: there is a zero in front, or they are too many. -/
theorem parseIPv4Fields_four {fields out : List UInt8} {a b c d : UInt8} {t : GoString}
    (ha : isHex a = true) (hb : isHex b = true) (hc : isHex c = true) (hd : isHex d = true) :
    parseIPv4Fields fields 0 0 (a :: b :: c :: d :: t) ≠ some out := by
  intro h
  obtain ⟨-, -, h⟩ := parseIPv4Fields_hex ha h
  obtain ⟨h1, -, h⟩ := parseIPv4Fields_hex hb h
  obtain ⟨-, -, h⟩ := parseIPv4Fields_hex hc h
  obtain ⟨-, h4, -⟩ := parseIPv4Fields_hex hd h
  omega

/-! ## Hardware addresses -/

/-- A pair of digits. -/
def IsPair (p : GoString) : Prop := p.length = 2 ∧ ∀ c ∈ p, isHex c = true

instance (p : GoString) : Decidable (IsPair p) := inferInstanceAs (Decidable (_ ∧ _))

theorem xtoi2_eq_some {s t : GoString} {b : UInt8} (h : xtoi2 s = some (b, t)) :
    ∃ p, s = p ++ t ∧ IsPair p := by
  unfold xtoi2 at h
  split at h
  · rename_i x y u
    split at h
    · rename_i hhex
      cases h
      rw [Bool.and_eq_true] at hhex
      refine ⟨[x, y], rfl, rfl, ?_⟩
      simpa using hhex
    · cases h
  · cases h

theorem IsPair.xtoi2 {p : GoString} (h : IsPair p) (t : GoString) :
    ∃ b, xtoi2 (p ++ t) = some (b, t) := by
  obtain ⟨hlen, hhex⟩ := h
  match p, hlen with
  | [x, y], _ =>
      have hx := hhex x (by simp)
      have hy := hhex y (by simp)
      refine ⟨UInt8.ofNat (hexDigitVal x * 16 + hexDigitVal y), ?_⟩
      simp only [List.cons_append, List.nil_append, Go.xtoi2, hx, hy, Bool.and_self, if_true]

/-- Octets with a separator between them are as many pairs. -/
theorem macOctets_eq_some {sep : UInt8} (hsep : isHex sep = false) {n : Nat} {s : GoString}
    {hw : HardwareAddr} (h : macOctets sep n s = some hw) :
    (∀ p ∈ split sep s, IsPair p) ∧ (split sep s).length = hw.length := by
  have hnot : ∀ {p : GoString}, IsPair p → sep ∉ p := by
    intro p hp hm
    rw [hp.2 sep hm] at hsep
    cases hsep
  induction n generalizing s hw with
  | zero => cases h
  | succ n ih =>
      rw [macOctets] at h
      obtain ⟨⟨b, t⟩, hx, hnext⟩ := Option.bind_eq_some_iff.mp h
      obtain ⟨p, rfl, hp⟩ := xtoi2_eq_some hx
      simp only at hnext
      split at hnext
      · cases hnext
        rw [List.append_nil, split_of_notMem (hnot hp)]
        simp [hp]
      · split at hnext
        · rename_i c u hc
          obtain ⟨rest, hrest, rfl⟩ := Option.map_eq_some_iff.mp hnext
          obtain ⟨hpairs, hlen⟩ := ih hrest
          rw [hc, split_append_sep, split_of_notMem (hnot hp), List.singleton_append]
          exact ⟨List.forall_mem_cons.mpr ⟨hp, hpairs⟩, by simp [hlen]⟩
        · cases hnext

/-- And such pairs are read. -/
theorem macOctets_of_pairs {sep : UInt8} {n : Nat} {s : GoString} (hn : s.length ≤ n)
    (h : ∀ p ∈ split sep s, IsPair p) :
    ∃ hw, macOctets sep n s = some hw ∧ hw.length = (split sep s).length := by
  induction n generalizing s with
  | zero =>
      rw [List.eq_nil_of_length_eq_zero (Nat.le_zero.mp hn)] at h
      have hpair := h [] (by simp [split])
      cases hpair.1
  | succ n ih =>
      rcases split_cases sep s with ⟨-, hs⟩ | ⟨a, t, rfl, -, hs⟩
      · have hpair : IsPair s := h s (by rw [hs]; simp)
        obtain ⟨b, hb⟩ := hpair.xtoi2 []
        rw [List.append_nil] at hb
        exact ⟨[b], by simp [macOctets, hb], by simp [hs]⟩
      · have hpair : IsPair a := h a (by rw [hs]; simp)
        obtain ⟨b, hb⟩ := hpair.xtoi2 (sep :: t)
        have hlen : t.length ≤ n := by
          have h2 := hpair.1
          simp only [List.length_append, List.length_cons] at hn
          omega
        obtain ⟨rest, hrest, hcount⟩ :=
          ih hlen fun p hp => h p (by rw [hs]; exact List.mem_cons_of_mem _ hp)
        exact ⟨b :: rest, by simp [macOctets, hb, hrest], by simp [hs, hcount]⟩

/-- Pairs of octets begin with four digits, and there are only digits and dots. -/
theorem macPairs_eq_some {n : Nat} {s : GoString} {hw : HardwareAddr} (h : macPairs n s = some hw) :
    (∃ a b c d t, s = a :: b :: c :: d :: t ∧ isHex a = true ∧ isHex b = true ∧ isHex c = true
        ∧ isHex d = true) ∧ ∀ c ∈ s, isHex c = true ∨ c = 0x2E := by
  induction n generalizing s hw with
  | zero => cases h
  | succ n ih =>
      rw [macPairs] at h
      obtain ⟨⟨b, t⟩, hx, hsecond⟩ := Option.bind_eq_some_iff.mp h
      obtain ⟨⟨b', u⟩, hx', hnext⟩ := Option.bind_eq_some_iff.mp hsecond
      obtain ⟨p, rfl, hp⟩ := xtoi2_eq_some hx
      obtain ⟨q, rfl, hq⟩ := xtoi2_eq_some hx'
      have hrest : ∀ c ∈ u, isHex c = true ∨ c = 0x2E := by
        simp only at hnext
        split at hnext
        · simp
        · split at hnext
          · rename_i d v hd
            obtain ⟨rest, hrest, -⟩ := Option.map_eq_some_iff.mp hnext
            exact List.forall_mem_cons.mpr ⟨.inr hd, (ih hrest).2⟩
          · cases hnext
      refine ⟨?_, ?_⟩
      · obtain ⟨hp2, hphex⟩ := hp
        obtain ⟨hq2, hqhex⟩ := hq
        match p, hp2, q, hq2 with
        | [a, b], _, [c, d], _ =>
            exact ⟨a, b, c, d, u, rfl, hphex a (by simp), hphex b (by simp), hqhex c (by simp),
              hqhex d (by simp)⟩
      · intro c hc
        rcases List.mem_append.mp hc with hc | hc
        · exact .inl (hp.2 c hc)
        · rcases List.mem_append.mp hc with hc | hc
          · exact .inl (hq.2 c hc)
          · exact hrest c hc

/-- **The spellings of a hardware address.** -/
theorem parseMAC_eq_some {s : GoString} {hw : HardwareAddr} (h : parseMAC s = some hw) :
    hw.length ∈ [6, 8, 20]
      ∧ ((∃ sep, (sep = 0x3A ∨ sep = 0x2D) ∧ (∀ p ∈ split sep s, IsPair p)
          ∧ (split sep s).length = hw.length)
        ∨ ∃ n, macPairs n s = some hw) := by
  unfold parseMAC at h
  obtain ⟨hw', hoctets, h⟩ := Option.bind_eq_some_iff.mp h
  split at h
  · rename_i hlen
    cases h
    refine ⟨hlen, ?_⟩
    split at hoctets
    · rename_i hsep
      rw [Option.any_eq_true] at hsep
      obtain ⟨c, hc, hsep⟩ := hsep
      have hhead : (s.drop 2).headD 0 = c := by
        rw [List.headD_eq_head?_getD, hc, Option.getD_some]
      rw [hhead] at hoctets
      have hkind : c = 0x3A ∨ c = 0x2D := by simpa using hsep
      have hhex : isHex c = false := by
        rcases hkind with rfl | rfl
        · decide
        · decide
      exact .inl ⟨c, hkind, macOctets_eq_some hhex hoctets⟩
    · split at hoctets
      · exact .inr ⟨_, hoctets⟩
      · cases hoctets
  · cases h

end Gsnet.Go
