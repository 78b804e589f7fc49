import Gsnet.Stun

/-!
# Which datagrams crash the reader

Every index and slice of `parseResponse` and of the two decoders is guarded by a
comparison with the length, except one: after an attribute that is skipped, the
rest of the section is taken from behind the padding, and only the end of the
value has been compared with what is there. A last attribute whose padding was
left off is enough, and a datagram that declares a length that is no multiple of
four can have one.

The main result is an equivalence. `CutPadding` says of an attribute section what
the walk will run into; nothing else makes the call panic, and no input keeps it
running.
-/

namespace Gsnet.Stun

open Go Outcome

/-! ## The decoders -/

/-- The two bytes of the port are there as soon as the value has four. -/
theorem port_returned {val : GoString} (h : 4 ≤ val.length) :
    (slice val 2 4 >>= uint16) = .returned (uint16At val 2) := uint16_slice h

theorem decodeXorMapped_returns (val : GoString) {magic : GoString} (hm : 4 ≤ magic.length) :
    (decodeXorMapped val magic).Returns := by
  unfold decodeXorMapped
  split
  · exact returns_returned _
  rename_i h4
  rw [index_returned (by omega), returned_bind, port_returned (by omega), returned_bind]
  dsimp only
  split
  · split
    · exact returns_returned _
    · rename_i h8
      -- four bytes of the address against four of the cookie
      have hip := mapM_returned (l := List.range 4)
        (f := fun i => do
          let x ← index val (4 + i)
          let m ← index magic i
          return x ^^^ m)
        (g := fun i => val.getD (4 + i) 0 ^^^ magic.getD i 0) fun i hi => by
          have hi' := List.mem_range.mp hi
          rw [index_returned (by omega), returned_bind, index_returned (by omega), returned_bind]
          rfl
      rw [hip, returned_bind, addrFrom4, if_neg (by simp)]
      exact returns_returned _
  · split
    · split
      · exact returns_returned _
      · rename_i h20
        rw [slice_returned (by omega) (by omega), returned_bind]
        exact returns_returned _
    · exact returns_returned _

theorem decodeMapped_returns (val : GoString) : (decodeMapped val).Returns := by
  unfold decodeMapped
  split
  · exact returns_returned _
  rename_i h8
  rw [index_returned (by omega), returned_bind, port_returned (by omega), returned_bind]
  split
  · rw [slice_returned (by omega) (by omega), returned_bind, addrFrom4,
      if_neg (by simp; omega)]
    exact returns_returned _
  · exact returns_returned _

/-! ## The walk over the attributes -/

/-- The type of the attribute in front. -/
def attrType (attrs : GoString) : UInt16 := uint16At attrs 0

/-- The length of its value. -/
def attrLen (attrs : GoString) : Nat := (uint16At attrs 2).toNat

/-- There is an attribute in front, its value is complete, and it is passed over. -/
structure Skipped (attrs : GoString) : Prop where
  head : 4 ≤ attrs.length
  value : 4 + attrLen attrs ≤ attrs.length
  notXorMapped : attrType attrs ≠ attrXorMappedAddress
  notMapped : attrType attrs ≠ attrMappedAddress

/-- Where the next attribute begins. -/
def attrEnd (attrs : GoString) : Nat := 4 + attrLen attrs + padding (attrLen attrs)

/--
Behind attributes that are passed over, each with its padding, there is one more
of them whose padding is not all there.
-/
inductive CutPadding : GoString → Prop
  | here {attrs : GoString} : Skipped attrs → attrs.length < attrEnd attrs → CutPadding attrs
  | later {attrs : GoString} : Skipped attrs → attrEnd attrs ≤ attrs.length →
      CutPadding (attrs.drop (attrEnd attrs)) → CutPadding attrs

/-- One round on an attribute that is passed over. -/
theorem readAttrs_skipped {b attrs : GoString} (h : Skipped attrs) (rounds : Nat) :
    readAttrs b (rounds + 1) attrs = (sliceFrom attrs (attrEnd attrs) >>= readAttrs b rounds) := by
  have hhead := h.head
  have htyp : (slice attrs 0 2 >>= uint16) = .returned (attrType attrs) := uint16_slice (by omega)
  have hlen : (slice attrs 2 4 >>= uint16) = .returned (uint16At attrs 2) := uint16_slice h.head
  have hvalue : 4 + (uint16At attrs 2).toNat ≤ attrs.length := h.value
  rw [readAttrs, if_neg (by omega), htyp, returned_bind, hlen, returned_bind,
    if_neg (Nat.not_lt.mpr hvalue), slice_returned (by omega) hvalue, returned_bind,
    if_neg h.notXorMapped, if_neg h.notMapped]
  rfl

/-- Any other round is the last one, and returns. -/
theorem readAttrs_returns {b attrs : GoString} (hb : 8 ≤ b.length) (h : ¬ Skipped attrs)
    (rounds : Nat) : (readAttrs b (rounds + 1) attrs).Returns := by
  rw [readAttrs]
  split
  · exact returns_returned _
  rename_i hhead
  have htyp : (slice attrs 0 2 >>= uint16) = .returned (attrType attrs) := uint16_slice (by omega)
  have hlen : (slice attrs 2 4 >>= uint16) = .returned (uint16At attrs 2) :=
    uint16_slice (by omega)
  rw [htyp, returned_bind, hlen, returned_bind]
  split
  · exact returns_returned _
  rename_i hvalue
  rw [slice_returned (by omega) (by omega), returned_bind]
  split
  · rw [slice_returned (by omega) hb, returned_bind]
    exact decodeXorMapped_returns _ (by simp; omega)
  rename_i hxor
  split
  · exact decodeMapped_returns _
  rename_i hmapped
  exact absurd ⟨by omega, by unfold attrLen; omega, hxor, hmapped⟩ h

/-- **The walk panics on a section with a cut padding.** -/
theorem readAttrs_panicked {b attrs : GoString} (h : CutPadding attrs) {rounds : Nat}
    (hr : attrs.length < rounds) : readAttrs b rounds attrs = .panicked := by
  induction h generalizing rounds with
  | here hs hcut =>
      obtain ⟨rounds, rfl⟩ := Nat.exists_eq_succ_of_ne_zero (by omega : rounds ≠ 0)
      rw [readAttrs_skipped hs, sliceFrom_panicked hcut, panicked_bind]
  | @later attrs hs hle _ ih =>
      obtain ⟨rounds, rfl⟩ := Nat.exists_eq_succ_of_ne_zero (by omega : rounds ≠ 0)
      rw [readAttrs_skipped hs, sliceFrom_returned hle, returned_bind]
      refine ih ?_
      have hend : 4 ≤ attrEnd attrs := by unfold attrEnd; omega
      simp only [List.length_drop]
      omega

/-- **The walk returns on every other**, and a round for every byte is more than it needs. -/
theorem readAttrs_returned {b : GoString} (hb : 8 ≤ b.length) :
    ∀ {rounds : Nat} {attrs : GoString}, ¬ CutPadding attrs → attrs.length < rounds →
      (readAttrs b rounds attrs).Returns
  | 0, _, _, hr => absurd hr (Nat.not_lt_zero _)
  | rounds + 1, attrs, hcut, hr => by
      by_cases hs : Skipped attrs
      · have hle : attrEnd attrs ≤ attrs.length := by
          by_contra hlt
          exact hcut (.here hs (by omega))
        have hend : 4 ≤ attrEnd attrs := by unfold attrEnd; omega
        rw [readAttrs_skipped hs, sliceFrom_returned hle, returned_bind]
        refine readAttrs_returned hb (fun h => hcut (.later hs hle h)) ?_
        simp only [List.length_drop]
        omega
      · exact readAttrs_returns hb hs rounds

/-- A section of whole words has no cut padding: what is skipped is whole words too. -/
theorem not_cutPadding {attrs : GoString} (h4 : attrs.length % 4 = 0) : ¬ CutPadding attrs := by
  intro h
  induction h with
  | @here attrs hs hcut =>
      have hvalue := hs.value
      unfold attrEnd padding at hcut
      omega
  | @later attrs hs hle _ ih =>
      refine ih ?_
      have hend : attrEnd attrs % 4 = 0 := by unfold attrEnd padding; omega
      simp only [List.length_drop]
      omega

/-! ## The datagram -/

/-- The transaction IDs are compared without a panic, byte by byte. -/
theorem sameTxID_returned {b txid : GoString} :
    ∀ is : List Nat, (∀ i ∈ is, 8 + i < b.length ∧ i < txid.length) →
      sameTxID b txid is = .returned (is.all fun i => b.getD (8 + i) 0 = txid.getD i 0)
  | [], _ => rfl
  | i :: is, h => by
      obtain ⟨hb, ht⟩ := h i List.mem_cons_self
      rw [sameTxID, index_returned hb, returned_bind, index_returned ht, returned_bind,
        sameTxID_returned is fun j hj => h j (List.mem_cons_of_mem i hj), List.all_cons]
      by_cases heq : b.getD (8 + i) 0 = txid.getD i 0
      · rw [if_neg (not_not.mpr heq), decide_eq_true heq, Bool.true_and]
      · rw [if_pos heq, decide_eq_false heq, Bool.false_and]
        rfl

/-- The comparison asks whether the header carries the transaction ID of the request. -/
theorem sameTxID_eq {b txid : GoString} (hb : 20 ≤ b.length) (ht : txid.length = 12) :
    sameTxID b txid (List.range 12) = .returned (decide ((b.drop 8).take 12 = txid)) := by
  rw [sameTxID_returned _ fun i hi => by have hi' := List.mem_range.mp hi; omega]
  congr 1
  rw [Bool.eq_iff_iff, List.all_eq_true, decide_eq_true_eq]
  have hlen : ((b.drop 8).take 12).length = txid.length := by simp; omega
  constructor
  · intro h
    refine List.ext_getElem hlen fun i hi hi' => ?_
    have hbyte := of_decide_eq_true (h i (List.mem_range.mpr (by omega)))
    rw [List.getD_eq_getElem _ _ (by omega), List.getD_eq_getElem _ _ hi'] at hbyte
    simpa using hbyte
  · rintro rfl i hi
    have hi' := List.mem_range.mp hi
    refine decide_eq_true ?_
    rw [List.getD_eq_getElem _ _ (by omega), List.getD_eq_getElem _ _ (by omega)]
    simp

/-- The length the header declares for the attribute section. -/
def msgLen (b : GoString) : Nat := (uint16At b 2).toNat

/-- The attribute section. -/
def attributes (b : GoString) : GoString := (b.drop 20).take (msgLen b)

/-- The header passes every check that stands before the attributes. -/
structure HeaderAccepted (b txid : GoString) : Prop where
  long : 20 ≤ b.length
  response : uint16At b 0 = bindingResponse
  magic : uint32At b 4 = magicCookie
  transaction : (b.drop 8).take 12 = txid
  declared : 20 + msgLen b ≤ b.length

/-- Behind an accepted header comes the walk. -/
theorem parseResponse_accepted {b txid : GoString} (ht : txid.length = 12)
    (h : HeaderAccepted b txid) :
    parseResponse b txid = readAttrs b ((attributes b).length + 1) (attributes b) := by
  have hlong := h.long
  have hdeclared : 20 + (uint16At b 2).toNat ≤ b.length := h.declared
  have hattrs : slice b 20 (20 + (uint16At b 2).toNat) = .returned (attributes b) := by
    rw [slice_returned (by omega) hdeclared, Nat.add_sub_cancel_left]
    rfl
  rw [parseResponse, if_neg (by omega), uint16_slice (by omega : 0 + 2 ≤ b.length), returned_bind,
    if_neg (not_not.mpr h.response), uint32_slice (by omega : 4 + 4 ≤ b.length), returned_bind,
    if_neg (not_not.mpr h.magic), sameTxID_eq h.long ht, returned_bind,
    if_neg (by simp [h.transaction]),
    uint16_slice (by omega : 2 + 2 ≤ b.length), returned_bind,
    if_neg (Nat.not_lt.mpr hdeclared), hattrs, returned_bind]

/-- A header that is not accepted is refused with an error. -/
theorem parseResponse_refused {b txid : GoString} (ht : txid.length = 12)
    (h : ¬ HeaderAccepted b txid) : (parseResponse b txid).Returns := by
  rw [parseResponse]
  split
  · exact returns_returned _
  rename_i hlong
  rw [uint16_slice (by omega : 0 + 2 ≤ b.length), returned_bind]
  split
  · exact returns_returned _
  rename_i hresponse
  rw [uint32_slice (by omega : 4 + 4 ≤ b.length), returned_bind]
  split
  · exact returns_returned _
  rename_i hmagic
  rw [sameTxID_eq (by omega) ht, returned_bind]
  split
  · exact returns_returned _
  rename_i htx
  rw [uint16_slice (by omega : 2 + 2 ≤ b.length), returned_bind]
  split
  · exact returns_returned _
  rename_i hdeclared
  have htx' : (b.drop 8).take 12 = txid := by simpa using htx
  exact absurd ⟨by omega, not_not.mp hresponse, not_not.mp hmagic, htx', Nat.not_lt.mp hdeclared⟩ h

/--
**`parseResponse` returns, with an address or an error, exactly on the datagrams
without a cut padding behind an accepted header**; on the others it panics, and
it always ends.
-/
theorem parseResponse_returns_iff (b txid : GoString) (ht : txid.length = 12) :
    ((parseResponse b txid).Returns ↔ ¬ (HeaderAccepted b txid ∧ CutPadding (attributes b)))
      ∧ parseResponse b txid ≠ .running := by
  by_cases hacc : HeaderAccepted b txid
  · have hlong := hacc.long
    by_cases hcut : CutPadding (attributes b)
    · have hpanic : parseResponse b txid = .panicked := by
        rw [parseResponse_accepted ht hacc]
        exact readAttrs_panicked hcut (Nat.lt_succ_self _)
      rw [hpanic]
      exact ⟨iff_of_false not_returns_panicked (not_not.mpr ⟨hacc, hcut⟩), by simp⟩
    · have hret : (parseResponse b txid).Returns := by
        rw [parseResponse_accepted ht hacc]
        exact readAttrs_returned (by omega) hcut (Nat.lt_succ_self _)
      refine ⟨iff_of_true hret fun h => hcut h.2, ?_⟩
      obtain ⟨r, hr⟩ := hret
      simp [hr]
  · have hret := parseResponse_refused ht hacc
    refine ⟨iff_of_true hret fun h => hacc h.1, ?_⟩
    obtain ⟨r, hr⟩ := hret
    simp [hr]

/-- A datagram with an attribute section of that length. -/
def sampleDatagram (len : UInt8) (attrs : GoString) : GoString :=
  [0x01, 0x01, 0x00, len, 0x21, 0x12, 0xA4, 0x42] ++ List.replicate 12 7 ++ attrs

/-- A mapped address behind a skipped attribute with its padding. -/
theorem parseResponse_returns_sample :
    (parseResponse (sampleDatagram 20 ([0x80, 0x22, 0, 1, 0x41, 0, 0, 0]
      ++ [0, 1, 0, 8, 0, 1, 0x12, 0xB5, 192, 0, 2, 1])) (List.replicate 12 7)).Returns :=
  (parseResponse_returns_iff _ _ rfl).1.mpr fun h => not_cutPadding (by decide) h.2

/-- One byte of value, and its three bytes of padding left off. -/
theorem parseResponse_panics :
    parseResponse (sampleDatagram 5 [0x80, 0x22, 0, 1, 0x41]) (List.replicate 12 7)
      = .panicked := rfl

end Gsnet.Stun
