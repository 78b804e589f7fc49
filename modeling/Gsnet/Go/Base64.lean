import Gsnet.Go.Bytes

/-!
# Base64

`base64.StdEncoding`: the alphabet with `+` and `/`, padding required, carriage
returns and line feeds ignored on input, unused trailing bits ignored too.
-/

namespace Gsnet.Go

/-- The alphabet character of a six-bit value. -/
def base64Char (n : Nat) : UInt8 :=
  if n < 26 then UInt8.ofNat (0x41 + n)
  else if n < 52 then UInt8.ofNat (0x61 + (n - 26))
  else if n < 62 then UInt8.ofNat (0x30 + (n - 52))
  else if n = 62 then 0x2B else 0x2F

/-- The six-bit value of an alphabet character. -/
def base64Val (c : UInt8) : Option Nat :=
  if 0x41 ≤ c && c ≤ 0x5A then some (c.toNat - 0x41)
  else if 0x61 ≤ c && c ≤ 0x7A then some (c.toNat - 0x61 + 26)
  else if 0x30 ≤ c && c ≤ 0x39 then some (c.toNat - 0x30 + 52)
  else if c = 0x2B then some 62
  else if c = 0x2F then some 63
  else none

/-- `base64.StdEncoding.EncodeToString`. -/
def base64Encode : GoString → GoString
  | [] => []
  | [a] => [base64Char (a.toNat / 4), base64Char (a.toNat % 4 * 16), 0x3D, 0x3D]
  | [a, b] =>
    [base64Char (a.toNat / 4), base64Char (a.toNat % 4 * 16 + b.toNat / 16),
      base64Char (b.toNat % 16 * 4), 0x3D]
  | a :: b :: c :: t =>
    base64Char (a.toNat / 4) :: base64Char (a.toNat % 4 * 16 + b.toNat / 16)
      :: base64Char (b.toNat % 16 * 4 + c.toNat / 64) :: base64Char (c.toNat % 64)
      :: base64Encode t

/-- Groups of four characters; only the last may be padded. -/
def base64Quanta : GoString → Option GoString
  | [] => some []
  | a :: b :: c :: d :: t => do
    let va ← base64Val a
    let vb ← base64Val b
    let x := UInt8.ofNat (va * 4 + vb / 16)
    if d = 0x3D then
      if t ≠ [] then none
      else if c = 0x3D then some [x]
      else do
        let vc ← base64Val c
        some [x, UInt8.ofNat (vb % 16 * 16 + vc / 4)]
    else do
      let vc ← base64Val c
      let vd ← base64Val d
      let rest ← base64Quanta t
      some (x :: UInt8.ofNat (vb % 16 * 16 + vc / 4) :: UInt8.ofNat (vc % 4 * 64 + vd) :: rest)
  | _ => none

/-- `base64.StdEncoding.DecodeString`. -/
def base64Decode (s : GoString) : Option GoString :=
  base64Quanta (s.filter (fun c => c != 0x0A && c != 0x0D))

/-- `base64.RawURLEncoding.EncodeToString`: `-` and `_` in place of `+` and `/`, no padding. -/
def base64RawURLEncode (s : GoString) : GoString :=
  (base64Encode s).filterMap fun c =>
    if c = 0x3D then none else some (if c = 0x2B then 0x2D else if c = 0x2F then 0x5F else c)

/-! ## Decoding what was encoded -/

/-- A character of the alphabet has the value it stands for; it is no padding, and visible. -/
theorem base64Char_spec : ∀ n < 64, base64Val (base64Char n) = some n ∧ base64Char n ≠ 0x3D
    ∧ 0x21 ≤ base64Char n ∧ base64Char n < 0x80 := by
  decide +kernel

theorem base64Quanta_encode (s : GoString) : base64Quanta (base64Encode s) = some s := by
  induction s using base64Encode.induct with
  | case1 => rfl
  | case2 a =>
      have ha := a.toNat_lt
      obtain ⟨h1, -⟩ := base64Char_spec (a.toNat / 4) (by omega)
      obtain ⟨h2, -⟩ := base64Char_spec (a.toNat % 4 * 16) (by omega)
      have hx : a.toNat / 4 * 4 + a.toNat % 4 * 16 / 16 = a.toNat := by omega
      simp only [base64Encode, base64Quanta, h1, h2, hx, Option.bind_eq_bind, Option.bind_some,
        if_true, if_false, ne_eq, not_true_eq_false, UInt8.ofNat_toNat]
  | case3 a b =>
      have ha := a.toNat_lt
      have hb := b.toNat_lt
      obtain ⟨h1, -⟩ := base64Char_spec (a.toNat / 4) (by omega)
      obtain ⟨h2, -⟩ := base64Char_spec (a.toNat % 4 * 16 + b.toNat / 16) (by omega)
      obtain ⟨h3, h3', -⟩ := base64Char_spec (b.toNat % 16 * 4) (by omega)
      have hx : a.toNat / 4 * 4 + (a.toNat % 4 * 16 + b.toNat / 16) / 16 = a.toNat := by omega
      have hy : (a.toNat % 4 * 16 + b.toNat / 16) % 16 * 16 + b.toNat % 16 * 4 / 4 = b.toNat := by
        omega
      simp only [base64Encode, base64Quanta, h1, h2, h3, h3', hx, hy, Option.bind_eq_bind,
        Option.bind_some, if_true, if_false, ne_eq, not_true_eq_false, UInt8.ofNat_toNat]
  | case4 a b c t ih =>
      have ha := a.toNat_lt
      have hb := b.toNat_lt
      have hc := c.toNat_lt
      obtain ⟨h1, -⟩ := base64Char_spec (a.toNat / 4) (by omega)
      obtain ⟨h2, -⟩ := base64Char_spec (a.toNat % 4 * 16 + b.toNat / 16) (by omega)
      obtain ⟨h3, -⟩ := base64Char_spec (b.toNat % 16 * 4 + c.toNat / 64) (by omega)
      obtain ⟨h4, h4', -⟩ := base64Char_spec (c.toNat % 64) (by omega)
      have hx : a.toNat / 4 * 4 + (a.toNat % 4 * 16 + b.toNat / 16) / 16 = a.toNat := by omega
      have hy : (a.toNat % 4 * 16 + b.toNat / 16) % 16 * 16
          + (b.toNat % 16 * 4 + c.toNat / 64) / 4 = b.toNat := by omega
      have hz : (b.toNat % 16 * 4 + c.toNat / 64) % 4 * 64 + c.toNat % 64 = c.toNat := by omega
      simp only [base64Encode, base64Quanta, h1, h2, h3, h4, h4', hx, hy, hz, ih,
        Option.bind_eq_bind, Option.bind_some, if_false, UInt8.ofNat_toNat]

example : base64Quanta (base64Encode (str "ab")) = some (str "ab") := by decide +kernel

/-- Encoded text is visible ASCII. -/
theorem base64Encode_chars (s : GoString) : ∀ c ∈ base64Encode s, 0x21 ≤ c ∧ c < 0x80 := by
  have hpad : (0x21 : UInt8) ≤ 0x3D ∧ (0x3D : UInt8) < 0x80 := by decide
  induction s using base64Encode.induct with
  | case1 => simp [base64Encode]
  | case2 a =>
      have ha := a.toNat_lt
      rw [base64Encode, List.forall_mem_cons, List.forall_mem_cons, List.forall_mem_cons]
      exact ⟨(base64Char_spec _ (by omega)).2.2, (base64Char_spec _ (by omega)).2.2, hpad,
        by simp⟩
  | case3 a b =>
      have ha := a.toNat_lt
      have hb := b.toNat_lt
      rw [base64Encode, List.forall_mem_cons, List.forall_mem_cons, List.forall_mem_cons]
      exact ⟨(base64Char_spec _ (by omega)).2.2, (base64Char_spec _ (by omega)).2.2,
        (base64Char_spec _ (by omega)).2.2, by simp⟩
  | case4 a b c t ih =>
      have ha := a.toNat_lt
      have hb := b.toNat_lt
      have hc := c.toNat_lt
      rw [base64Encode, List.forall_mem_cons, List.forall_mem_cons, List.forall_mem_cons,
        List.forall_mem_cons]
      exact ⟨(base64Char_spec _ (by omega)).2.2, (base64Char_spec _ (by omega)).2.2,
        (base64Char_spec _ (by omega)).2.2, (base64Char_spec _ (by omega)).2.2, ih⟩

/-- **Decoding inverts encoding.** -/
theorem base64Decode_encode (s : GoString) : base64Decode (base64Encode s) = some s := by
  have hkeep : (base64Encode s).filter (fun c => c != 0x0A && c != 0x0D) = base64Encode s := by
    refine List.filter_eq_self.mpr fun c hc => ?_
    have hc := (base64Encode_chars s c hc).1
    have h1 : c ≠ 0x0A := by rintro rfl; exact absurd hc (by decide)
    have h2 : c ≠ 0x0D := by rintro rfl; exact absurd hc (by decide)
    simp [h1, h2]
  rw [base64Decode, hkeep, base64Quanta_encode]

theorem length_base64Encode_le (s : GoString) : (base64Encode s).length ≤ 4 * s.length := by
  induction s using base64Encode.induct with
  | case1 => simp [base64Encode]
  | case2 a => simp [base64Encode]
  | case3 a b => simp [base64Encode]
  | case4 a b c t ih =>
      simp only [base64Encode, List.length_cons]
      omega

theorem base64Encode_ne_nil {s : GoString} (h : s ≠ []) : base64Encode s ≠ [] := by
  cases s using base64Encode.fun_cases with
  | case1 => exact absurd rfl h
  | case2 a => simp [base64Encode]
  | case3 a b => simp [base64Encode]
  | case4 a b c t => simp [base64Encode]

/-! ## What the encoding for URLs keeps -/

/-- The character `base64.RawURLEncoding` has for a six-bit value. -/
def base64URLChar (n : Nat) : UInt8 :=
  let c := base64Char n
  if c = 0x2B then 0x2D else if c = 0x2F then 0x5F else c

/-- A character of the alphabet is not the padding, and is kept. -/
theorem filterMap_base64Char {n : Nat} (h : n < 64) (t : GoString) :
    (base64Char n :: t).filterMap (fun c =>
        if c = 0x3D then none else some (if c = 0x2B then 0x2D else if c = 0x2F then 0x5F else c))
      = base64URLChar n :: t.filterMap (fun c =>
        if c = 0x3D then none
        else some (if c = 0x2B then 0x2D else if c = 0x2F then 0x5F else c)) := by
  exact List.filterMap_cons_some (if_neg (base64Char_spec n h).2.1)

theorem base64URLChar_inj {m n : Nat} (hm : m < 64) (hn : n < 64)
    (h : base64URLChar m = base64URLChar n) : m = n := by
  have hinj : ∀ m < 64, ∀ n < 64, base64URLChar m = base64URLChar n → m = n := by decide +kernel
  exact hinj m hm n hn h

/-- Three bytes are four characters. -/
theorem base64RawURLEncode_cons (a b c : UInt8) (t : GoString) :
    base64RawURLEncode (a :: b :: c :: t)
      = base64URLChar (a.toNat / 4) :: base64URLChar (a.toNat % 4 * 16 + b.toNat / 16)
        :: base64URLChar (b.toNat % 16 * 4 + c.toNat / 64) :: base64URLChar (c.toNat % 64)
        :: base64RawURLEncode t := by
  have ha := a.toNat_lt
  have hb := b.toNat_lt
  have hc := c.toNat_lt
  unfold base64RawURLEncode
  rw [base64Encode, filterMap_base64Char (by omega),
    filterMap_base64Char (by omega),
    filterMap_base64Char (by omega),
    filterMap_base64Char (by omega)]

theorem base64RawURLEncode_two (a b : UInt8) :
    base64RawURLEncode [a, b]
      = [base64URLChar (a.toNat / 4), base64URLChar (a.toNat % 4 * 16 + b.toNat / 16),
        base64URLChar (b.toNat % 16 * 4)] := by
  have ha := a.toNat_lt
  have hb := b.toNat_lt
  unfold base64RawURLEncode
  rw [base64Encode, filterMap_base64Char (by omega),
    filterMap_base64Char (by omega),
    filterMap_base64Char (by omega)]
  rfl

theorem base64RawURLEncode_one (a : UInt8) :
    base64RawURLEncode [a] = [base64URLChar (a.toNat / 4), base64URLChar (a.toNat % 4 * 16)] := by
  have ha := a.toNat_lt
  unfold base64RawURLEncode
  rw [base64Encode, filterMap_base64Char (by omega),
    filterMap_base64Char (by omega)]
  rfl

/-- **Texts of equal length are told apart by their encodings.** -/
theorem base64RawURLEncode_inj {s t : GoString} (hlen : s.length = t.length)
    (h : base64RawURLEncode s = base64RawURLEncode t) : s = t := by
  -- three bytes at a time, as they are encoded
  induction s using base64Encode.induct generalizing t with
  | case1 => exact (List.eq_nil_of_length_eq_zero hlen.symm).symm
  | case2 a =>
      obtain ⟨b, rfl⟩ := List.length_eq_one_iff.mp hlen.symm
      rw [base64RawURLEncode_one, base64RawURLEncode_one] at h
      have ha := a.toNat_lt
      have hb := b.toNat_lt
      have h1 := base64URLChar_inj (by omega) (by omega) (List.cons.inj h).1
      have h2 := base64URLChar_inj (by omega) (by omega) (List.cons.inj (List.cons.inj h).2).1
      rw [UInt8.toNat_inj.mp (show a.toNat = b.toNat by omega)]
  | case3 a b =>
      obtain ⟨a', b', rfl⟩ := List.length_eq_two.mp hlen.symm
      rw [base64RawURLEncode_two, base64RawURLEncode_two] at h
      have ha := a.toNat_lt
      have hb := b.toNat_lt
      have ha' := a'.toNat_lt
      have hb' := b'.toNat_lt
      simp only [List.cons.injEq, and_true] at h
      have h1 := base64URLChar_inj (by omega) (by omega) h.1
      have h2 := base64URLChar_inj (by omega) (by omega) h.2.1
      have h3 := base64URLChar_inj (by omega) (by omega) h.2.2
      rw [UInt8.toNat_inj.mp (show a.toNat = a'.toNat by omega),
        UInt8.toNat_inj.mp (show b.toNat = b'.toNat by omega)]
  | case4 a b c t' ih =>
      match t, hlen with
      | a' :: b' :: c' :: u, hlen =>
        rw [base64RawURLEncode_cons, base64RawURLEncode_cons] at h
        have ha := a.toNat_lt
        have hb := b.toNat_lt
        have hc := c.toNat_lt
        have ha' := a'.toNat_lt
        have hb' := b'.toNat_lt
        have hc' := c'.toNat_lt
        simp only [List.cons.injEq] at h
        have h1 := base64URLChar_inj (by omega) (by omega) h.1
        have h2 := base64URLChar_inj (by omega) (by omega) h.2.1
        have h3 := base64URLChar_inj (by omega) (by omega) h.2.2.1
        have h4 := base64URLChar_inj (by omega) (by omega) h.2.2.2.1
        rw [UInt8.toNat_inj.mp (show a.toNat = a'.toNat by omega),
          UInt8.toNat_inj.mp (show b.toNat = b'.toNat by omega),
          UInt8.toNat_inj.mp (show c.toNat = c'.toNat by omega),
          ih (by simpa using hlen) h.2.2.2.2]

theorem length_base64RawURLEncode (s : GoString) :
    (base64RawURLEncode s).length = (4 * s.length + 2) / 3 := by
  induction s using base64Encode.induct with
  | case1 => rfl
  | case2 a => simp [base64RawURLEncode_one]
  | case3 a b => simp [base64RawURLEncode_two]
  | case4 a b c t ih =>
      rw [base64RawURLEncode_cons]
      simp only [List.length_cons, ih]
      omega

theorem base64RawURLEncode_ne_nil {s : GoString} (h : s ≠ []) : base64RawURLEncode s ≠ [] := by
  match s, h with
  | [a], _ => rw [base64RawURLEncode_one]; exact List.cons_ne_nil _ _
  | [a, b], _ => rw [base64RawURLEncode_two]; exact List.cons_ne_nil _ _
  | a :: b :: c :: t, _ => rw [base64RawURLEncode_cons]; exact List.cons_ne_nil _ _

end Gsnet.Go
