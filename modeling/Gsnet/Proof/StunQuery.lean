import Gsnet.Proof.Stun

/-!
# Strays

`Query` waits on a socket the caller may be using for something else, and goes on
waiting when it has read the answer to another request. That is all it goes on
for: `parseResponse` looks at the length, the type and the cookie before the
transaction ID, and each of those is an error that ends the query. So one stray
datagram of any other kind takes the place of the answer.
-/

namespace Gsnet.Stun

open Go Outcome

/-- A Binding Response, by its first eight bytes. -/
structure IsResponse (b : GoString) : Prop where
  long : 20 ≤ b.length
  response : uint16At b 0 = bindingResponse
  magic : uint32At b 4 = magicCookie

/-- The transaction ID a datagram carries. -/
def transaction (b : GoString) : GoString := (b.drop 8).take 12

/-- It answers this request. -/
def Answers (txid b : GoString) : Prop := IsResponse b ∧ transaction b = txid

/-- It answers another request. -/
def AnswersOther (txid b : GoString) : Prop := IsResponse b ∧ transaction b ≠ txid

/-- What the query returns, if it returns what `parseResponse` does. -/
def asResult (o : Outcome Result) : Outcome (Except QueryError AddrPort) :=
  o >>= fun r => match r with
    | .ok ap => return .ok ap
    | .error e => return .error (.response e)

/-- The buffer does not cut off attributes the datagram has. -/
def FitsBuffer (b : GoString) : Prop := 20 + msgLen b ≤ b.length → 20 + msgLen b ≤ bufSize

/-! ## A datagram in the buffer -/

theorem getD_take {b : GoString} {n i : Nat} (h : i < n) : (b.take n).getD i 0 = b.getD i 0 := by
  simp [List.getD_eq_getElem?_getD, h]

theorem isResponse_take {b : GoString} : IsResponse (b.take bufSize) ↔ IsResponse b := by
  have hlen : 20 ≤ (b.take bufSize).length ↔ 20 ≤ b.length := by
    rw [List.length_take, bufSize]
    omega
  have h16 : uint16At (b.take bufSize) 0 = uint16At b 0 := by
    simp only [uint16At, bufSize, getD_take (by omega : 0 < 1500),
      getD_take (by omega : 0 + 1 < 1500)]
  have h32 : uint32At (b.take bufSize) 4 = uint32At b 4 := by
    simp only [uint32At, bufSize, getD_take (by omega : 4 < 1500),
      getD_take (by omega : 4 + 1 < 1500), getD_take (by omega : 4 + 2 < 1500),
      getD_take (by omega : 4 + 3 < 1500)]
  constructor
  · exact fun h => ⟨hlen.mp h.long, h16 ▸ h.response, h32 ▸ h.magic⟩
  · exact fun h => ⟨hlen.mpr h.long, h16.trans h.response, h32.trans h.magic⟩

theorem transaction_take (b : GoString) : transaction (b.take bufSize) = transaction b := by
  simp [transaction, bufSize, List.drop_take, List.take_take]

theorem msgLen_take (b : GoString) : msgLen (b.take bufSize) = msgLen b := by
  simp only [msgLen, uint16At, bufSize, getD_take (by omega : 2 < 1500),
    getD_take (by omega : 2 + 1 < 1500)]

/-! ## What `parseResponse` makes of it -/

/-- The three checks before the transaction ID. -/
theorem parseResponse_stray {b txid : GoString} (h : ¬ IsResponse b) :
    ∃ e, parseResponse b txid = .returned (.error e)
      ∧ (e = .shortResponse b.length ∧ b.length < 20 ∨ e = .notBindingResponse
        ∨ e = .badMagicCookie) := by
  rw [parseResponse]
  split
  · rename_i hlong
    exact ⟨_, rfl, .inl ⟨rfl, hlong⟩⟩
  rename_i hlong
  rw [uint16_slice (by omega : 0 + 2 ≤ b.length), returned_bind]
  split
  · exact ⟨_, rfl, .inr (.inl rfl)⟩
  rename_i hresponse
  rw [uint32_slice (by omega : 4 + 4 ≤ b.length), returned_bind]
  split
  · exact ⟨_, rfl, .inr (.inr rfl)⟩
  rename_i hmagic
  exact absurd ⟨by omega, not_not.mp hresponse, not_not.mp hmagic⟩ h

/-- Past the three checks: the transaction ID, the declared length, the attributes. -/
theorem parseResponse_isResponse {b txid : GoString} (ht : txid.length = 12)
    (h : IsResponse b) : parseResponse b txid =
      if transaction b ≠ txid then .returned (.error .wrongTxID)
      else if b.length < 20 + msgLen b then .returned (.error .declaredLength)
      else readAttrs b ((attributes b).length + 1) (attributes b) := by
  have hlong := h.long
  have hsame : sameTxID b txid (List.range 12) = .returned (decide (transaction b = txid)) :=
    sameTxID_eq h.long ht
  have hpast : parseResponse b txid = (if transaction b = txid then do
        let ml ← slice b 2 4 >>= uint16
        if b.length < 20 + ml.toNat then return .error .declaredLength
        else do
          let attrs ← slice b 20 (20 + ml.toNat)
          readAttrs b (attrs.length + 1) attrs
      else return .error .wrongTxID) := by
    rw [parseResponse, if_neg (by omega), uint16_slice (by omega : 0 + 2 ≤ b.length),
      returned_bind, if_neg (not_not.mpr h.response), uint32_slice (by omega : 4 + 4 ≤ b.length),
      returned_bind, if_neg (not_not.mpr h.magic), hsame, returned_bind]
    by_cases htx : transaction b = txid
    · rw [if_pos htx, if_neg (by simp [htx])]
    · rw [if_neg htx, if_pos (decide_eq_false htx)]
  rw [hpast]
  by_cases htx : transaction b = txid
  · rw [if_pos htx, if_neg (not_not.mpr htx), uint16_slice (by omega : 2 + 2 ≤ b.length),
      returned_bind]
    by_cases hdecl : b.length < 20 + msgLen b
    · rw [if_pos hdecl]
      exact if_pos hdecl
    · rw [if_neg hdecl, ← parseResponse_accepted ht
        ⟨h.long, h.response, h.magic, htx, Nat.not_lt.mp hdecl⟩, hpast, if_pos htx,
        uint16_slice (by omega : 2 + 2 ≤ b.length), returned_bind]
  · rw [if_neg htx, if_pos htx]
    rfl

/-- The errors `parseResponse` has for a header. -/
def Error.ofHeader : Error → Bool
  | .shortResponse _ | .notBindingResponse | .badMagicCookie | .wrongTxID | .declaredLength => true
  | _ => false

theorem decodeXorMapped_error {val magic : GoString} {e : Error}
    (h : decodeXorMapped val magic = .returned (.error e)) : e.ofHeader = false := by
  unfold decodeXorMapped at h
  split at h
  · cases h; rfl
  obtain ⟨family, -, h⟩ := bind_eq_returned.mp h
  obtain ⟨xport, -, h⟩ := bind_eq_returned.mp h
  dsimp only at h
  split at h
  · split at h
    · cases h; rfl
    · obtain ⟨ip4, -, h⟩ := bind_eq_returned.mp h
      obtain ⟨addr, -, h⟩ := bind_eq_returned.mp h
      cases h
  split at h
  · split at h
    · cases h; rfl
    · obtain ⟨ip6, -, h⟩ := bind_eq_returned.mp h
      cases h; rfl
  · cases h; rfl

theorem decodeMapped_error {val : GoString} {e : Error}
    (h : decodeMapped val = .returned (.error e)) : e.ofHeader = false := by
  unfold decodeMapped at h
  split at h
  · cases h; rfl
  obtain ⟨family, -, h⟩ := bind_eq_returned.mp h
  obtain ⟨port, -, h⟩ := bind_eq_returned.mp h
  split at h
  · obtain ⟨addr, -, h⟩ := bind_eq_returned.mp h
    cases h
  · cases h; rfl

/-- The walk over the attributes has errors of its own. -/
theorem readAttrs_error {b : GoString} {rounds : Nat} {attrs : GoString} {e : Error}
    (h : readAttrs b rounds attrs = .returned (.error e)) : e.ofHeader = false := by
  induction rounds generalizing attrs with
  | zero => cases h
  | succ rounds ih =>
      rw [readAttrs] at h
      split at h
      · cases h; rfl
      obtain ⟨typ, -, h⟩ := bind_eq_returned.mp h
      obtain ⟨ln, -, h⟩ := bind_eq_returned.mp h
      split at h
      · cases h; rfl
      obtain ⟨val, -, h⟩ := bind_eq_returned.mp h
      split at h
      · obtain ⟨magic, -, h⟩ := bind_eq_returned.mp h
        exact decodeXorMapped_error h
      split at h
      · exact decodeMapped_error h
      · obtain ⟨rest, -, h⟩ := bind_eq_returned.mp h
        exact ih h

/-- Of the header, the walk reads the cookie only. -/
theorem readAttrs_congr {b b' : GoString} (h : slice b 4 8 = slice b' 4 8) (rounds : Nat)
    (attrs : GoString) : readAttrs b rounds attrs = readAttrs b' rounds attrs := by
  induction rounds generalizing attrs with
  | zero => rfl
  | succ rounds ih => simp only [readAttrs, h, ih]

/-- **What the buffer cuts off is missed exactly if it was declared.** -/
theorem parseResponse_take_iff {b txid : GoString} (ht : txid.length = 12) (h : Answers txid b) :
    parseResponse (b.take bufSize) txid = parseResponse b txid ↔ FitsBuffer b := by
  have hlong := h.1.long
  have hlen : (b.take bufSize).length = min 1500 b.length := List.length_take ..
  rw [parseResponse_isResponse ht (isResponse_take.mpr h.1), parseResponse_isResponse ht h.1,
    transaction_take, msgLen_take, if_neg (not_not.mpr h.2), if_neg (not_not.mpr h.2), FitsBuffer]
  by_cases hdecl : 20 + msgLen b ≤ b.length
  · rw [if_neg (Nat.not_lt.mpr hdecl)]
    by_cases hfit : 20 + msgLen b ≤ bufSize
    · have hattrs : attributes (b.take bufSize) = attributes b := by
        rw [attributes, msgLen_take, attributes, List.drop_take, List.take_take,
          Nat.min_eq_left (by omega)]
      have hcookie : slice (b.take bufSize) 4 8 = slice b 4 8 := by
        rw [slice_returned (by omega) (by omega), slice_returned (by omega) (by omega)]
        simp [bufSize, List.drop_take, List.take_take]
      unfold bufSize at hfit
      rw [if_neg (by omega), hattrs, readAttrs_congr hcookie]
      exact iff_of_true rfl fun _ => hfit
    · unfold bufSize at hfit
      rw [if_pos (by omega)]
      refine iff_of_false (fun heq => ?_) fun hf => hfit (hf hdecl)
      exact absurd (readAttrs_error heq.symm) (by decide)
  · rw [if_pos (by omega), if_pos (by omega)]
    exact iff_of_true rfl fun hle => absurd hle hdecl

/-! ## The loop -/

theorem asResult_injective : Function.Injective asResult := by
  have hres : ∀ r r' : Result, asResult (.returned r) = asResult (.returned r') → r = r' := by
    rintro (e | ap) (e' | ap') h <;> cases h <;> rfl
  have hret : ∀ r : Result, (asResult (.returned r)).Returns := by
    rintro (e | ap) <;> exact returns_returned _
  rintro (r | _ | _) (r' | _ | _) h
  · rw [hres r r' h]
  · obtain ⟨x, hx⟩ := hret r
    cases hx.symm.trans h
  · obtain ⟨x, hx⟩ := hret r
    cases hx.symm.trans h
  · obtain ⟨x, hx⟩ := hret r'
    cases hx.symm.trans h.symm
  · rfl
  · cases h
  · obtain ⟨x, hx⟩ := hret r'
    cases hx.symm.trans h.symm
  · cases h
  · rfl

/-- An answer to another request is read and forgotten. -/
theorem receiveLoop_other {txid b : GoString} (ht : txid.length = 12) (h : AnswersOther txid b)
    (later : List GoString) : receiveLoop txid (b :: later) = receiveLoop txid later := by
  have hp : parseResponse (b.take bufSize) txid = .returned (.error .wrongTxID) := by
    rw [parseResponse_isResponse ht (isResponse_take.mpr h.1), transaction_take, if_pos h.2]
  rw [receiveLoop, hp, returned_bind]
  exact if_pos rfl

/-- A datagram that is no response ends the query, with an error no answer has. -/
theorem receiveLoop_stray {txid b : GoString} (h : ¬ IsResponse b) (later : List GoString) :
    ∃ e, receiveLoop txid (b :: later) = .returned (.error (.response e))
      ∧ e.ofHeader = true ∧ e ≠ .declaredLength := by
  obtain ⟨e, hp, he⟩ := @parseResponse_stray (b.take bufSize) txid
    fun hr => h (isResponse_take.mp hr)
  have hkind : e.ofHeader = true ∧ e ≠ .declaredLength ∧ e ≠ .wrongTxID := by
    rcases he with ⟨rfl, -⟩ | rfl | rfl <;> exact ⟨rfl, by simp, by simp⟩
  refine ⟨e, ?_, hkind.1, hkind.2.1⟩
  rw [receiveLoop, hp, returned_bind]
  exact if_neg hkind.2.2

/-- The answer to this request is what the query returns. -/
theorem receiveLoop_answers {txid b : GoString} (ht : txid.length = 12) (h : Answers txid b)
    (later : List GoString) :
    receiveLoop txid (b :: later) = asResult (parseResponse (b.take bufSize) txid) := by
  have hwrong : parseResponse (b.take bufSize) txid ≠ .returned (.error .wrongTxID) := by
    rw [parseResponse_isResponse ht (isResponse_take.mpr h.1), transaction_take,
      if_neg (not_not.mpr h.2)]
    split
    · simp
    · exact fun heq => absurd (readAttrs_error heq) (by decide)
  rw [receiveLoop]
  cases hp : parseResponse (b.take bufSize) txid with
  | returned r =>
      cases r with
      | ok ap => rfl
      | error e =>
          have he : e ≠ .wrongTxID := by
            rintro rfl
            exact hwrong hp
          exact if_neg he
  | panicked => rfl
  | running => rfl

/-- No answer is refused for its header alone, but for the length it declares. -/
theorem parseResponse_answers_error {txid b : GoString} (ht : txid.length = 12)
    (h : Answers txid b) {e : Error} (he : parseResponse b txid = .returned (.error e)) :
    e.ofHeader = false ∨ e = .declaredLength := by
  rw [parseResponse_isResponse ht h.1, if_neg (not_not.mpr h.2)] at he
  split at he
  · cases he
    exact .inr rfl
  · exact .inl (readAttrs_error he)

/--
**Strays do not decide a query exactly if they are answers to other requests.**
Of whatever arrives before the deadline, the query returns what `parseResponse`
makes of the first answer just when every datagram before it is a response with
another transaction ID, and the buffer cuts off nothing the answer declares.
-/
theorem receiveLoop_first_iff {txid b : GoString} {before : List GoString}
    (ht : txid.length = 12) (hfirst : ∀ x ∈ before, ¬ Answers txid x) (h : Answers txid b)
    (later : List GoString) :
    receiveLoop txid (before ++ b :: later) = asResult (parseResponse b txid)
      ↔ (∀ x ∈ before, AnswersOther txid x) ∧ FitsBuffer b := by
  induction before with
  | nil =>
      rw [List.nil_append, receiveLoop_answers ht h, asResult_injective.eq_iff,
        parseResponse_take_iff ht h]
      simp
  | cons x before ih =>
      have ih := ih fun y hy => hfirst y (List.mem_cons_of_mem x hy)
      rw [List.cons_append, List.forall_mem_cons, and_assoc]
      by_cases hx : IsResponse x
      · -- its transaction ID is another, as it is not the answer
        have hother : AnswersOther txid x :=
          ⟨hx, fun htx => hfirst x List.mem_cons_self ⟨hx, htx⟩⟩
        rw [receiveLoop_other ht hother, ih]
        exact ⟨fun hr => ⟨hother, hr⟩, fun hr => hr.2⟩
      · refine iff_of_false (fun heq => ?_) fun hr => hx hr.1.1
        obtain ⟨e, hloop, hheader, hdecl⟩ := @receiveLoop_stray txid x hx (before ++ b :: later)
        have hans : parseResponse b txid = .returned (.error e) :=
          asResult_injective (heq.symm.trans hloop)
        rcases parseResponse_answers_error ht h hans with he | he
        · rw [hheader] at he
          cases he
        · exact hdecl he

/-- A response to the request with that byte throughout as its transaction ID. -/
def sampleAnswer (tx : UInt8) : GoString :=
  [0x01, 0x01, 0x00, 12, 0x21, 0x12, 0xA4, 0x42] ++ List.replicate 12 tx
    ++ [0, 1, 0, 8, 0, 1, 0x12, 0xB5, 192, 0, 2, 1]

theorem answers_sample : Answers (List.replicate 12 7) (sampleAnswer 7) :=
  ⟨⟨by decide, by decide, by decide⟩, by decide⟩

/-- The answer to another request comes first. -/
theorem receiveLoop_first_sample :
    receiveLoop (List.replicate 12 7) ([sampleAnswer 8] ++ sampleAnswer 7 :: [])
      = asResult (parseResponse (sampleAnswer 7) (List.replicate 12 7)) := by
  have hother : AnswersOther (List.replicate 12 7) (sampleAnswer 8) :=
    ⟨⟨by decide, by decide, by decide⟩, by decide⟩
  refine (receiveLoop_first_iff rfl ?_ answers_sample []).mpr ⟨?_, fun _ => by decide⟩
  · exact fun x hx => by rw [List.mem_singleton.mp hx]; exact fun h => hother.2 h.2
  · exact fun x hx => by rw [List.mem_singleton.mp hx]; exact hother

/-- One byte from anywhere is the end of the query. -/
theorem stray_ends_query :
    Answers (List.replicate 12 7) (sampleAnswer 7)
      ∧ parseResponse (sampleAnswer 7) (List.replicate 12 7)
          = .returned (.ok ⟨.v4 0xC0000201, 4789⟩)
      ∧ receiveLoop (List.replicate 12 7) ([[0]] ++ sampleAnswer 7 :: [])
          = .returned (.error (.response (.shortResponse 1))) :=
  ⟨answers_sample, rfl, rfl⟩

end Gsnet.Stun
