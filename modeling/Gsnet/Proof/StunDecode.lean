import Gsnet.Go.NetipProof
import Gsnet.Proof.Stun

/-!
# What a Binding Response says

The other side of `parseResponse`: how RFC 5389 writes a response, attribute by
attribute, each padded to a multiple of four bytes. The walk passes over every
attribute of an unknown type and stops at the first one of the two that carry an
address, whichever it is. A lone XOR-MAPPED-ADDRESS is therefore found behind
anything, and read back; of two addresses it is the order that decides.
-/

namespace Gsnet.Stun

open Go Outcome

/-! ## The encoding -/

/-- An attribute, with the bytes it is padded with. -/
structure Attribute where
  typ : UInt16
  value : GoString
  pad : GoString
  fits : value.length < 65536
  padded : pad.length = padding value.length

def Attribute.encode (a : Attribute) : GoString :=
  beBytes 2 a.typ.toNat ++ (beBytes 2 a.value.length ++ (a.value ++ a.pad))

def encodeAttrs (l : List Attribute) : GoString := l.flatMap Attribute.encode

/-- A response with that attribute section, and its length in the header. -/
def response (txid body : GoString) : GoString :=
  beBytes 2 bindingResponse.toNat ++ (beBytes 2 body.length
    ++ (beBytes 4 magicCookie.toNat ++ (txid ++ body)))

/-- The value of a MAPPED-ADDRESS; the first byte is to be ignored. -/
def mappedValue (reserved : UInt8) (addr : BitVec 32) (port : UInt16) : GoString :=
  reserved :: 0x01 :: (beBytes 2 port.toNat ++ beBytes 4 addr.toNat)

/-- The same with the port and the address masked by the magic cookie. -/
def xorMappedValue (reserved : UInt8) (addr : BitVec 32) (port : UInt16) : GoString :=
  reserved :: 0x01 :: (beBytes 2 (port ^^^ (magicCookie >>> 16).toUInt16).toNat
    ++ List.zipWith (· ^^^ ·) (beBytes 4 addr.toNat) (beBytes 4 magicCookie.toNat))

/-- The attribute carries that address, in either of the two ways. -/
inductive Carries (a : Attribute) : AddrPort → Prop
  | mapped (reserved : UInt8) (addr : BitVec 32) (port : UInt16) :
      a.typ = attrMappedAddress → a.value = mappedValue reserved addr port →
      Carries a ⟨.v4 addr, port⟩
  | xorMapped (reserved : UInt8) (addr : BitVec 32) (port : UInt16) :
      a.typ = attrXorMappedAddress → a.value = xorMappedValue reserved addr port →
      Carries a ⟨.v4 addr, port⟩

/-! ### Numbers in network order -/

theorem beBytes_two (v : Nat) :
    beBytes 2 v = [UInt8.ofNat (v / 256 % 256), UInt8.ofNat (v % 256)] := by
  simp [beBytes]

theorem uint16At_beBytes {v : Nat} (h : v < 65536) (pre t : GoString) :
    uint16At (pre ++ (beBytes 2 v ++ t)) pre.length = UInt16.ofNat v := by
  have hhi : (pre ++ (beBytes 2 v ++ t)).getD pre.length 0 = UInt8.ofNat (v / 256 % 256) := by
    simp [beBytes_two]
  have hlo : (pre ++ (beBytes 2 v ++ t)).getD (pre.length + 1) 0 = UInt8.ofNat (v % 256) := by
    simp [beBytes_two]
  rw [uint16At, hhi, hlo, UInt8.toNat_ofNat', UInt8.toNat_ofNat']
  congr 1
  omega

theorem Attribute.length_encode (a : Attribute) :
    a.encode.length = 4 + a.value.length + padding a.value.length := by
  simp only [Attribute.encode, List.length_append, length_beBytes, a.padded]
  omega

theorem attrType_encode (a : Attribute) (rest : GoString) :
    attrType (a.encode ++ rest) = a.typ := by
  have h := uint16At_beBytes a.typ.toNat_lt []
    ((beBytes 2 a.value.length ++ (a.value ++ a.pad)) ++ rest)
  rw [UInt16.ofNat_toNat] at h
  simpa [attrType, Attribute.encode] using h

theorem attrLen_encode (a : Attribute) (rest : GoString) :
    attrLen (a.encode ++ rest) = a.value.length := by
  have h := uint16At_beBytes a.fits (beBytes 2 a.typ.toNat) ((a.value ++ a.pad) ++ rest)
  rw [length_beBytes] at h
  have hfits := a.fits
  simp only [attrLen, Attribute.encode, List.append_assoc] at h ⊢
  rw [h, UInt16.toNat_ofNat']
  omega

/-! ## One round -/

/-- **One round of the walk on an attribute that is all there.** -/
theorem readAttrs_encode {b : GoString} (hb : 8 ≤ b.length) (rounds : Nat) (a : Attribute)
    (rest : GoString) : readAttrs b (rounds + 1) (a.encode ++ rest) =
      if a.typ = attrXorMappedAddress then decodeXorMapped a.value ((b.drop 4).take 4)
      else if a.typ = attrMappedAddress then decodeMapped a.value
      else readAttrs b rounds rest := by
  have hlen : (a.encode ++ rest).length
      = 4 + a.value.length + padding a.value.length + rest.length := by
    rw [List.length_append, a.length_encode]
  have htyp : (slice (a.encode ++ rest) 0 2 >>= uint16) = .returned a.typ := by
    rw [uint16_slice (by omega : 0 + 2 ≤ (a.encode ++ rest).length)]
    exact congrArg _ (attrType_encode a rest)
  have hln : (slice (a.encode ++ rest) 2 4 >>= uint16)
      = .returned (uint16At (a.encode ++ rest) 2) := uint16_slice (by omega)
  have hlnat : (uint16At (a.encode ++ rest) 2).toNat = a.value.length := attrLen_encode a rest
  have hval : slice (a.encode ++ rest) 4 (4 + a.value.length) = .returned a.value := by
    rw [slice_returned (by omega) (by omega)]
    simp [Attribute.encode, beBytes_two]
  have hrest : sliceFrom (a.encode ++ rest) (4 + a.value.length + padding a.value.length)
      = .returned rest := by
    rw [sliceFrom_returned (by omega), ← a.length_encode]
    simp
  have hmagic : slice b 4 8 = .returned ((b.drop 4).take 4) := slice_returned (by omega) hb
  rw [readAttrs, if_neg (by omega), htyp, returned_bind, hln, returned_bind, hlnat,
    if_neg (by omega), hval, returned_bind, hmagic, returned_bind, hrest, returned_bind]

/-! ## The decoders -/

/-- Two bytes of family and four of port before the address. -/
theorem port_value (reserved : UInt8) (port : UInt16) (t : GoString) :
    uint16At (reserved :: 0x01 :: (beBytes 2 port.toNat ++ t)) 2 = port := by
  have h := uint16At_beBytes port.toNat_lt [reserved, 0x01] t
  rwa [UInt16.ofNat_toNat] at h

theorem addrFrom4_beBytes (addr : BitVec 32) :
    addrFrom4 (beBytes 4 addr.toNat) = .returned (.v4 addr) := by
  have hlen : (beBytes 4 addr.toNat).length = 4 := length_beBytes _ _
  rw [addrFrom4, if_neg (by omega), List.take_of_length_le (by omega), bigEndian_beBytes,
    show 256 ^ 4 = 2 ^ 32 by rfl, Nat.mod_eq_of_lt addr.isLt, BitVec.ofNat_toNat,
    BitVec.setWidth_eq]

theorem decodeMapped_mappedValue (reserved : UInt8) (addr : BitVec 32) (port : UInt16) :
    decodeMapped (mappedValue reserved addr port) = .returned (.ok ⟨.v4 addr, port⟩) := by
  have hlen : (mappedValue reserved addr port).length = 8 := by
    simp [mappedValue, length_beBytes]
  have hfam : index (mappedValue reserved addr port) 1 = .returned 0x01 := rfl
  have haddr : slice (mappedValue reserved addr port) 4 8 = .returned (beBytes 4 addr.toNat) := by
    rw [slice_returned (by omega) (by omega)]
    simp [mappedValue, beBytes_two, List.take_of_length_le, length_beBytes]
  rw [decodeMapped, if_neg (by omega), hfam, returned_bind, port_returned (by omega),
    returned_bind, if_pos rfl, haddr, returned_bind, addrFrom4_beBytes, returned_bind,
    mappedValue, port_value]
  rfl

/-- **Masking twice is reading back.** -/
theorem decodeXorMapped_xorMappedValue (reserved : UInt8) (addr : BitVec 32) (port : UInt16) :
    decodeXorMapped (xorMappedValue reserved addr port) (beBytes 4 magicCookie.toNat)
      = .returned (.ok ⟨.v4 addr, port⟩) := by
  have hlen : (xorMappedValue reserved addr port).length = 8 := by
    simp [xorMappedValue, length_beBytes]
  have hfam : index (xorMappedValue reserved addr port) 1 = .returned 0x01 := rfl
  have hip : (List.range 4).mapM (fun i => do
      let x ← index (xorMappedValue reserved addr port) (4 + i)
      let m ← index (beBytes 4 magicCookie.toNat) i
      return x ^^^ m) = .returned (beBytes 4 addr.toNat) := by
    rw [xorMappedValue, beBytes_two, beBytes_four addr.toNat, beBytes_four magicCookie.toNat]
    simp [List.range_succ, index]
  have hport : (port ^^^ (magicCookie >>> 16).toUInt16) ^^^ (magicCookie >>> 16).toUInt16
      = port := by
    rw [UInt16.xor_assoc, UInt16.xor_self, UInt16.xor_zero]
  rw [decodeXorMapped, if_neg (by omega), hfam, returned_bind, port_returned (by omega),
    returned_bind]
  simp only [if_pos, hip, returned_bind, addrFrom4_beBytes]
  rw [if_neg (by omega), xorMappedValue, port_value, hport]
  rfl

/-- An attribute that carries an address is decoded into it. -/
theorem readAttrs_carries {b : GoString} (hb : 8 ≤ b.length)
    (hmagic : (b.drop 4).take 4 = beBytes 4 magicCookie.toNat) (rounds : Nat) {a : Attribute}
    {ap : AddrPort} (h : Carries a ap) (rest : GoString) :
    readAttrs b (rounds + 1) (a.encode ++ rest) = .returned (.ok ap) := by
  rw [readAttrs_encode hb]
  cases h with
  | mapped reserved addr port ht hv =>
      rw [if_neg (by rw [ht]; decide), if_pos ht, hv, decodeMapped_mappedValue]
  | xorMapped reserved addr port ht hv =>
      rw [if_pos ht, hv, hmagic, decodeXorMapped_xorMappedValue]

/-! ## The walk -/

/-- The attribute ends the walk. -/
def Attribute.decisive (a : Attribute) : Bool :=
  a.typ = attrXorMappedAddress || a.typ = attrMappedAddress

theorem readAttrs_passed {b : GoString} (hb : 8 ≤ b.length) (rounds : Nat) {a : Attribute}
    (h : a.decisive = false) (rest : GoString) :
    readAttrs b (rounds + 1) (a.encode ++ rest) = readAttrs b rounds rest := by
  simp only [Attribute.decisive, Bool.or_eq_false_iff, decide_eq_false_iff_not] at h
  rw [readAttrs_encode hb, if_neg h.1, if_neg h.2]

theorem length_encodeAttrs (l : List Attribute) : l.length ≤ (encodeAttrs l).length := by
  induction l with
  | nil => simp [encodeAttrs]
  | cons a l ih =>
      have ha := a.length_encode
      simp only [encodeAttrs, List.flatMap_cons, List.length_append, List.length_cons] at ih ⊢
      omega

/-- **Attributes of other types are passed over**, whatever they hold. -/
theorem readAttrs_append {b : GoString} (hb : 8 ≤ b.length) {l : List Attribute}
    (h : ∀ a ∈ l, a.decisive = false) (rounds : Nat) (rest : GoString) :
    readAttrs b (rounds + l.length) (encodeAttrs l ++ rest) = readAttrs b rounds rest := by
  induction l with
  | nil => rfl
  | cons a l ih =>
      have hl := ih fun x hx => h x (List.mem_cons_of_mem a hx)
      simp only [encodeAttrs, List.flatMap_cons, List.append_assoc, List.length_cons] at hl ⊢
      rw [← Nat.add_assoc, readAttrs_passed hb _ (h a List.mem_cons_self), hl]

/-! ## The datagram -/

theorem response_eq (txid body : GoString) : response txid body =
    [0x01, 0x01] ++ (beBytes 2 body.length ++ ([0x21, 0x12, 0xA4, 0x42] ++ (txid ++ body))) := by
  have htype : beBytes 2 bindingResponse.toNat = [0x01, 0x01] := by decide
  have hcookie : beBytes 4 magicCookie.toNat = [0x21, 0x12, 0xA4, 0x42] := by decide
  rw [response, htype, hcookie]

theorem cookie_response (txid body : GoString) :
    ((response txid body).drop 4).take 4 = beBytes 4 magicCookie.toNat := by
  have hcookie : beBytes 4 magicCookie.toNat = [0x21, 0x12, 0xA4, 0x42] := by decide
  simp [response_eq, beBytes_two, hcookie]

theorem headerAccepted_response {txid body : GoString} (ht : txid.length = 12)
    (hbody : body.length < 65536) :
    HeaderAccepted (response txid body) txid ∧ attributes (response txid body) = body := by
  have hlen : msgLen (response txid body) = body.length := by
    have h := uint16At_beBytes hbody [0x01, 0x01] ([0x21, 0x12, 0xA4, 0x42] ++ (txid ++ body))
    rw [msgLen, response_eq]
    refine (congrArg UInt16.toNat h).trans ?_
    rw [UInt16.toNat_ofNat']
    omega
  have hlong : (response txid body).length = 20 + body.length := by
    simp [response, length_beBytes, ht]
    omega
  refine ⟨⟨by omega, ?_, ?_, ?_, by omega⟩, ?_⟩
  · simp [response_eq, uint16At, bindingResponse]
  · simp [response_eq, beBytes_two, uint32At, magicCookie]
  · simp [response_eq, beBytes_two, ← ht]
  · rw [attributes, hlen]
    simp [response_eq, beBytes_two, ht]

/-- The walk over the section of a response that was written this way. -/
theorem parseResponse_response {txid body : GoString} (ht : txid.length = 12)
    (hbody : body.length < 65536) :
    parseResponse (response txid body) txid
      = readAttrs (response txid body) (body.length + 1) body := by
  obtain ⟨hacc, hattrs⟩ := headerAccepted_response ht hbody
  rw [parseResponse_accepted ht hacc, hattrs]

theorem length_response (txid body : GoString) : 8 ≤ (response txid body).length := by
  simp [response, length_beBytes]
  omega

/-- Behind attributes that are passed over, one that carries an address is the answer. -/
theorem parseResponse_carries {txid : GoString} (ht : txid.length = 12) {l : List Attribute}
    (hl : ∀ a ∈ l, a.decisive = false) {a : Attribute} {ap : AddrPort} (ha : Carries a ap)
    (more : GoString) (hlen : (encodeAttrs l ++ (a.encode ++ more)).length < 65536) :
    parseResponse (response txid (encodeAttrs l ++ (a.encode ++ more))) txid
      = .returned (.ok ap) := by
  have hrounds : ∃ k, (encodeAttrs l ++ (a.encode ++ more)).length + 1 = k + 1 + l.length := by
    have := length_encodeAttrs l
    refine ⟨(encodeAttrs l ++ (a.encode ++ more)).length - l.length, ?_⟩
    rw [List.length_append] at *
    omega
  obtain ⟨k, hk⟩ := hrounds
  rw [parseResponse_response ht hlen, hk, readAttrs_append (length_response _ _) hl,
    readAttrs_carries (length_response _ _) (cookie_response _ _) _ ha]

/-- Where nothing ends the walk, there is no address. -/
theorem parseResponse_missing {txid : GoString} (ht : txid.length = 12) {l : List Attribute}
    (hl : ∀ a ∈ l, a.decisive = false) (hlen : (encodeAttrs l).length < 65536) :
    parseResponse (response txid (encodeAttrs l)) txid
      = .returned (.error .missingMappedAddress) := by
  have hrounds : ∃ k, (encodeAttrs l).length + 1 = k + 1 + l.length := by
    have := length_encodeAttrs l
    exact ⟨(encodeAttrs l).length - l.length, by omega⟩
  obtain ⟨k, hk⟩ := hrounds
  have h := @readAttrs_append (response txid (encodeAttrs l)) (length_response _ _) l hl (k + 1) []
  rw [List.append_nil] at h
  rw [parseResponse_response ht hlen, hk, h]
  rfl

/-- The attribute a server writes for a client it sees at that address. -/
def xorMappedAddress (reserved : UInt8) (addr : BitVec 32) (port : UInt16) : Attribute where
  typ := attrXorMappedAddress
  value := xorMappedValue reserved addr port
  pad := []
  fits := by simp [xorMappedValue, length_beBytes]
  padded := by simp [xorMappedValue, length_beBytes, padding]

/-- The attribute of older servers. -/
def mappedAddress (reserved : UInt8) (addr : BitVec 32) (port : UInt16) : Attribute where
  typ := attrMappedAddress
  value := mappedValue reserved addr port
  pad := []
  fits := by simp [mappedValue, length_beBytes]
  padded := by simp [mappedValue, length_beBytes, padding]

/--
**Decoding inverts the encoding.** Behind any attributes of other types, each
padded as it may be, and before any further bytes, the address and the port of
an XOR-MAPPED-ADDRESS are read back exactly.
-/
theorem parseResponse_xorMappedAddress (addr : BitVec 32) (port : UInt16) (reserved : UInt8)
    {txid : GoString} (ht : txid.length = 12) {attrs : List Attribute}
    (hattrs : ∀ a ∈ attrs, a.typ ≠ attrMappedAddress ∧ a.typ ≠ attrXorMappedAddress)
    (more : GoString)
    (hlen : (encodeAttrs attrs ++ ((xorMappedAddress reserved addr port).encode ++ more)).length
      < 65536) :
    parseResponse (response txid (encodeAttrs attrs
      ++ ((xorMappedAddress reserved addr port).encode ++ more))) txid
        = .returned (.ok ⟨.v4 addr, port⟩) := by
  refine parseResponse_carries ht (fun a ha => ?_) (.xorMapped reserved addr port rfl rfl) more hlen
  obtain ⟨hm, hx⟩ := hattrs a ha
  simp [Attribute.decisive, hm, hx]

/-- Behind one attribute of five bytes, padded with three others. -/
theorem parseResponse_xorMappedAddress_sample :
    parseResponse (response (List.replicate 12 7) (encodeAttrs
        [⟨0x8022, [0x67, 0x73, 0x6E, 0x65, 0x74], [1, 2, 3], by decide, by decide⟩]
      ++ ((xorMappedAddress 0 0xC0000201 51820).encode ++ [0xFF]))) (List.replicate 12 7)
        = .returned (.ok ⟨.v4 0xC0000201, 51820⟩) :=
  parseResponse_xorMappedAddress _ _ _ (by decide) (by simp; decide) _ (by decide)

/-! ## The order of the attributes -/

/-- What `parseResponse` makes of a response with these attributes. -/
def answer (txid : GoString) (l : List Attribute) : Outcome Result :=
  parseResponse (response txid (encodeAttrs l)) txid

/-- At most one of each kind of address, and each an IPv4 address. -/
structure WellFormed (l : List Attribute) : Prop where
  carries : ∀ a ∈ l, a.decisive = true → ∃ ap, Carries a ap
  oneXorMapped : (l.filter fun a => a.typ = attrXorMappedAddress).length ≤ 1
  oneMapped : (l.filter fun a => a.typ = attrMappedAddress).length ≤ 1

/-- No MAPPED-ADDRESS with another address stands before an XOR-MAPPED-ADDRESS. -/
def XorDecides (l : List Attribute) : Prop :=
  ∀ front x back, l = front ++ x :: back → x.typ = attrXorMappedAddress →
    ∀ m ∈ front, m.typ = attrMappedAddress → ∃ ap, Carries m ap ∧ Carries x ap

/-- The answer is the address of the XOR-MAPPED-ADDRESS, if there is one. -/
def AnswersXor (txid : GoString) (l : List Attribute) : Prop :=
  ∀ x ∈ l, x.typ = attrXorMappedAddress → ∀ ap, Carries x ap →
    answer txid l = .returned (.ok ap)

theorem WellFormed.perm {l₁ l₂ : List Attribute} (h : l₁.Perm l₂) (hwf : WellFormed l₁) :
    WellFormed l₂ where
  carries a ha := hwf.carries a (h.mem_iff.mpr ha)
  oneXorMapped := by rw [← (h.filter _).length_eq]; exact hwf.oneXorMapped
  oneMapped := by rw [← (h.filter _).length_eq]; exact hwf.oneMapped

/-- Two of a kind of which there is at most one. -/
theorem eq_of_filter_length_le_one {α : Type} {p : α → Bool} {l : List α}
    (h : (l.filter p).length ≤ 1) {a b : α} (ha : a ∈ l) (hb : b ∈ l) (hpa : p a = true)
    (hpb : p b = true) : a = b := by
  have ha' : a ∈ l.filter p := List.mem_filter.mpr ⟨ha, hpa⟩
  have hb' : b ∈ l.filter p := List.mem_filter.mpr ⟨hb, hpb⟩
  cases hl : l.filter p with
  | nil => rw [hl] at ha'; cases ha'
  | cons c t =>
      rw [hl] at h ha' hb'
      rw [List.length_cons] at h
      have ht : t = [] := List.eq_nil_of_length_eq_zero (by omega)
      rw [ht] at ha' hb'
      rw [List.mem_singleton.mp ha', List.mem_singleton.mp hb']

section Order

variable {txid : GoString} {l : List Attribute}

theorem answer_of_first (ht : txid.length = 12) (hlen : (encodeAttrs l).length < 65536)
    {front back : List Attribute} {a : Attribute} {ap : AddrPort} (hl : l = front ++ a :: back)
    (hfront : ∀ x ∈ front, x.decisive = false) (ha : Carries a ap) :
    answer txid l = .returned (.ok ap) := by
  have henc : encodeAttrs l = encodeAttrs front ++ (a.encode ++ encodeAttrs back) := by
    simp [hl, encodeAttrs]
  rw [henc] at hlen
  rw [answer, henc]
  exact parseResponse_carries ht hfront ha _ hlen

/-- The address an attribute carries is what it is decoded into, so there is one. -/
theorem Carries.unique {a : Attribute} {ap ap' : AddrPort} (h : Carries a ap)
    (h' : Carries a ap') : ap = ap' := by
  have hr := @readAttrs_carries (response [] []) (length_response _ _) (cookie_response _ _) 0
    _ _ h []
  rw [readAttrs_carries (length_response _ _) (cookie_response _ _) 0 h'] at hr
  cases hr
  rfl

/-- The walk ends at the first of the two kinds, if there is any. -/
theorem first_decisive (l : List Attribute) : (∀ a ∈ l, a.decisive = false)
    ∨ ∃ front a back, l = front ++ a :: back ∧ a.decisive = true
      ∧ ∀ x ∈ front, x.decisive = false := by
  cases hf : l.find? Attribute.decisive with
  | none => exact .inl fun a ha => by simpa using List.find?_eq_none.mp hf a ha
  | some a =>
      obtain ⟨ha, front, back, hl, hfront⟩ := List.find?_eq_some_iff_append.mp hf
      exact .inr ⟨front, a, back, hl, ha, fun x hx => by simpa using hfront x hx⟩

theorem decisive_cases {a : Attribute} (h : a.decisive = true) :
    a.typ = attrXorMappedAddress ∨ a.typ = attrMappedAddress := by
  simpa [Attribute.decisive] using h

/-- **With an XOR-MAPPED-ADDRESS in the list, it is the answer exactly if it decides.** -/
theorem answersXor_iff (ht : txid.length = 12) (hlen : (encodeAttrs l).length < 65536)
    (hwf : WellFormed l) : AnswersXor txid l ↔ XorDecides l := by
  constructor
  · intro h front x back hl hx m hm hmt
    have hxl : x ∈ l := by simp [hl]
    obtain ⟨ap, hap⟩ := hwf.carries x hxl (by simp [Attribute.decisive, hx])
    refine ⟨ap, ?_, hap⟩
    -- the walk ends in front of `x`, at `m` or before
    obtain hnone | ⟨f, d, t, hfd, hd, hf⟩ := first_decisive front
    · exact absurd (hnone m hm) (by simp [Attribute.decisive, hmt])
    have hdl : l = f ++ d :: (t ++ x :: back) := by simp [hl, hfd]
    obtain ⟨dp, hdp⟩ := hwf.carries d (by simp [hdl]) hd
    have hans := answer_of_first ht hlen hdl hf hdp
    rw [h x hxl hx ap hap] at hans
    cases hans
    rcases decisive_cases hd with hdx | hdm
    · -- then there would be two of them
      have hone := hwf.oneXorMapped
      rw [hdl] at hone
      simp [List.filter_append, hdx, hx] at hone
      omega
    · have hdm' := eq_of_filter_length_le_one hwf.oneMapped (a := d) (b := m) (by simp [hdl])
        (by simp [hl, hm]) (by simpa using hdm) (by simpa using hmt)
      rwa [← hdm']
  · intro h x hxl hx ap hap
    obtain hnone | ⟨f, d, t, hfd, hd, hf⟩ := first_decisive l
    · exact absurd (hnone x hxl) (by simp [Attribute.decisive, hx])
    rcases decisive_cases hd with hdx | hdm
    · have hdx' := eq_of_filter_length_le_one hwf.oneXorMapped (a := d) (b := x) (by simp [hfd])
        hxl (by simpa using hdx) (by simpa using hx)
      exact answer_of_first ht hlen hfd hf (hdx' ▸ hap)
    · -- `x` stands behind the MAPPED-ADDRESS the walk ends at
      have hxt : x ∈ t := by
        rw [hfd, List.mem_append, List.mem_cons] at hxl
        rcases hxl with hxf | rfl | hxt
        · exact absurd (hf x hxf) (by simp [Attribute.decisive, hx])
        · rw [hx] at hdm
          exact absurd hdm (by decide)
        · exact hxt
      obtain ⟨u, v, rfl⟩ := List.append_of_mem hxt
      obtain ⟨dp, hdp, hxp⟩ := h (f ++ d :: u) x v (by simp [hfd]) hx d (by simp) hdm
      rw [hap.unique hxp]
      exact answer_of_first ht hlen hfd hf hdp

/-- Without one, the only address there is does. -/
theorem answer_perm_of_no_xor {l' : List Attribute} (ht : txid.length = 12) (hp : l.Perm l')
    (hlen : (encodeAttrs l).length < 65536) (hwf : WellFormed l)
    (hno : ∀ a ∈ l, a.typ ≠ attrXorMappedAddress) : answer txid l = answer txid l' := by
  have hlen' : (encodeAttrs l').length < 65536 := by
    rw [encodeAttrs, ← (hp.flatMap_right _).length_eq]
    exact hlen
  obtain hnone | ⟨f, d, t, hfd, hd, hf⟩ := first_decisive l
  · rw [answer, answer, parseResponse_missing ht hnone hlen,
      parseResponse_missing ht (fun a ha => hnone a (hp.mem_iff.mpr ha)) hlen']
  · have hdl : d ∈ l := by simp [hfd]
    have hdm := (decisive_cases hd).resolve_left (hno d hdl)
    obtain ⟨dp, hdp⟩ := hwf.carries d hdl hd
    rw [answer_of_first ht hlen hfd hf hdp]
    obtain hnone | ⟨f', d', t', hfd', hd', hf'⟩ := first_decisive l'
    · exact absurd (hnone d (hp.mem_iff.mp hdl)) (by simp [hd])
    · have hdl' : d' ∈ l := hp.mem_iff.mpr (by simp [hfd'])
      have hdm' := (decisive_cases hd').resolve_left (hno d' hdl')
      have heq := eq_of_filter_length_le_one hwf.oneMapped hdl hdl' (by simpa using hdm)
        (by simpa using hdm')
      exact (answer_of_first ht hlen' hfd' hf' (heq ▸ hdp)).symm

/--
**Order matters exactly where a MAPPED-ADDRESS gets in front.** Two responses with
the same attributes give the same answer, and it is the XOR-MAPPED-ADDRESS where
there is one, just when in neither of them a MAPPED-ADDRESS with another address
stands before it.
-/
theorem order_independent_iff {l' : List Attribute} (ht : txid.length = 12) (hp : l.Perm l')
    (hlen : (encodeAttrs l).length < 65536) (hwf : WellFormed l) :
    answer txid l = answer txid l' ∧ AnswersXor txid l ↔ XorDecides l ∧ XorDecides l' := by
  have hlen' : (encodeAttrs l').length < 65536 := by
    rw [encodeAttrs, ← (hp.flatMap_right _).length_eq]
    exact hlen
  have hiff := answersXor_iff ht hlen hwf
  have hiff' := answersXor_iff ht hlen' (hwf.perm hp)
  constructor
  · rintro ⟨heq, hans⟩
    refine ⟨hiff.mp hans, hiff'.mp fun x hx hxt ap hap => ?_⟩
    rw [← heq]
    exact hans x (hp.mem_iff.mpr hx) hxt ap hap
  · rintro ⟨h, h'⟩
    refine ⟨?_, hiff.mpr h⟩
    by_cases hx : ∃ x ∈ l, x.typ = attrXorMappedAddress
    · obtain ⟨x, hxl, hxt⟩ := hx
      obtain ⟨ap, hap⟩ := hwf.carries x hxl (by simp [Attribute.decisive, hxt])
      rw [hiff.mpr h x hxl hxt ap hap, hiff'.mpr h' x (hp.mem_iff.mp hxl) hxt ap hap]
    · exact answer_perm_of_no_xor ht hp hlen hwf fun a ha hat => hx ⟨a, ha, hat⟩

end Order

/-! Two addresses in one response: a NAT has rewritten the one that is not masked. -/

/-- The address the server saw. -/
def sampleXor : Attribute := xorMappedAddress 0 0xC0000201 51820

/-- What became of it on the way. -/
def sampleMapped : Attribute := mappedAddress 0 0x0A000001 51820

def sampleSoftware : Attribute :=
  ⟨0x8022, [0x67, 0x73, 0x6E, 0x65, 0x74], [0, 0, 0], by decide, by decide⟩

theorem carries_sampleXor : Carries sampleXor ⟨.v4 0xC0000201, 51820⟩ := .xorMapped 0 _ _ rfl rfl

theorem carries_sampleMapped : Carries sampleMapped ⟨.v4 0x0A000001, 51820⟩ :=
  .mapped 0 _ _ rfl rfl

theorem wellFormed_sample : WellFormed [sampleXor, sampleMapped, sampleSoftware] where
  carries a ha hd := by
    simp only [List.mem_cons, List.not_mem_nil, or_false] at ha
    rcases ha with rfl | rfl | rfl
    · exact ⟨_, carries_sampleXor⟩
    · exact ⟨_, carries_sampleMapped⟩
    · exact absurd hd (by decide)
  oneXorMapped := by decide
  oneMapped := by decide

/-- Where the first attribute of all is the only masked one, it decides. -/
theorem xorDecides_cons {a : Attribute} {l : List Attribute}
    (h : ∀ x ∈ l, x.typ ≠ attrXorMappedAddress) : XorDecides (a :: l) := by
  intro front x back hl hx m hm
  cases front with
  | nil => cases hm
  | cons b front =>
      rw [List.cons_append, List.cons.injEq] at hl
      exact absurd hx (h x (by rw [hl.2]; simp))

theorem order_independent_sample :
    answer (List.replicate 12 7) [sampleXor, sampleMapped, sampleSoftware]
        = answer (List.replicate 12 7) [sampleXor, sampleSoftware, sampleMapped]
      ∧ AnswersXor (List.replicate 12 7) [sampleXor, sampleMapped, sampleSoftware] :=
  (order_independent_iff (by decide) (.cons _ (.swap _ _ _)) (by decide) wellFormed_sample).mpr
    ⟨xorDecides_cons (by decide), xorDecides_cons (by decide)⟩

/-- With the other address in front, it is the answer. -/
theorem order_decides :
    [sampleXor, sampleMapped, sampleSoftware].Perm [sampleMapped, sampleXor, sampleSoftware]
      ∧ WellFormed [sampleXor, sampleMapped, sampleSoftware]
      ∧ (encodeAttrs [sampleXor, sampleMapped, sampleSoftware]).length < 65536
      ∧ answer (List.replicate 12 7) [sampleXor, sampleMapped, sampleSoftware]
          = .returned (.ok ⟨.v4 0xC0000201, 51820⟩)
      ∧ answer (List.replicate 12 7) [sampleMapped, sampleXor, sampleSoftware]
          = .returned (.ok ⟨.v4 0x0A000001, 51820⟩) :=
  ⟨.swap _ _ _, wellFormed_sample, by decide,
    @answer_of_first _ _ (by decide) (by decide) [] _ _ _ rfl (by simp) carries_sampleXor,
    @answer_of_first _ _ (by decide) (by decide) [] _ _ _ rfl (by simp) carries_sampleMapped⟩

end Gsnet.Stun
