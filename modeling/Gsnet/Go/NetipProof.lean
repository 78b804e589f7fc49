import Gsnet.Go.Net

/-!
# Addresses read back

`String` and `ParseAddr` are inverse, for IPv4, for IPv6 with its longest run of
zero fields left out, for IPv4 in IPv6 and with a zone; and so are the two
functions on hardware addresses. The forwarding table is compared by text and
written from the text, so this is what its rows rest on.
-/

namespace Gsnet.Go

/-! ## Bytes in network order -/

theorem bigEndian_concat (a : List UInt8) (b : UInt8) :
    bigEndian (a ++ [b]) = bigEndian a * 256 + b.toNat := by
  unfold bigEndian
  rw [List.foldl_append]
  rfl

theorem bigEndian_append (a b : List UInt8) :
    bigEndian (a ++ b) = bigEndian a * 256 ^ b.length + bigEndian b := by
  induction b using List.reverseRecOn with
  | nil => simp [bigEndian]
  | append_singleton b c ih =>
      rw [← List.append_assoc, bigEndian_concat, bigEndian_concat, ih, List.length_append,
        List.length_singleton, Nat.pow_succ]
      ring

theorem length_beBytes (n v : Nat) : (beBytes n v).length = n := by
  induction n generalizing v with
  | zero => rfl
  | succ n ih => rw [beBytes, List.length_append, ih]; rfl

/-- Bytes in network order read back. -/
theorem bigEndian_beBytes (n v : Nat) : bigEndian (beBytes n v) = v % 256 ^ n := by
  induction n generalizing v with
  | zero => simp [beBytes, bigEndian, Nat.mod_one]
  | succ n ih =>
      have hsplit : v % 256 ^ (n + 1) = v % 256 + 256 * (v / 256 % 256 ^ n) := by
        rw [Nat.pow_succ', Nat.mod_mul]
      rw [beBytes, bigEndian_concat, ih, UInt8.toNat_ofNat', hsplit]
      omega

theorem beBytes_four (v : Nat) : beBytes 4 v =
    [UInt8.ofNat (v / 2 ^ 24 % 256), UInt8.ofNat (v / 2 ^ 16 % 256), UInt8.ofNat (v / 2 ^ 8 % 256),
      UInt8.ofNat (v % 256)] := by
  simp [beBytes, Nat.div_div_eq_div_mul]

/-! ## IPv4 -/

theorem formatUint_octet : ∀ n, n < 256 → formatUint n =
    if n < 10 then [digit n]
    else if n < 100 then [digit (n / 10), digit (n % 10)]
    else [digit (n / 100), digit (n / 10 % 10), digit (n % 10)] := by
  decide +kernel

theorem parseIPv4Fields_digit (fields : List UInt8) {val digLen d : Nat} (t : GoString)
    (hd : d < 10)
    (hz : ¬ (digLen = 1 ∧ val = 0)) (hle : val * 10 + d ≤ 255) :
    parseIPv4Fields fields val digLen (digit d :: t)
      = parseIPv4Fields fields (val * 10 + d) (digLen + 1) t := by
  obtain ⟨h1, h2, _, _⟩ := digit_facts d hd
  rw [parseIPv4Fields, if_pos h1, if_neg hz, h2, if_neg (by omega)]

theorem parseIPv4Fields_octet (fields : List UInt8) {n : Nat} (hn : n < 256) (t : GoString) :
    parseIPv4Fields fields 0 0 (formatUint n ++ t)
      = parseIPv4Fields fields n (formatUint n).length t := by
  rw [formatUint_octet n hn]
  split
  · rw [List.singleton_append, parseIPv4Fields_digit _ _ (by omega) (by omega) (by omega)]
    simp
  · split
    · rw [List.cons_append, List.cons_append, List.nil_append,
        parseIPv4Fields_digit _ _ (by omega) (by omega) (by omega),
        parseIPv4Fields_digit _ _ (by omega) (by omega) (by omega)]
      congr 1
      omega
    · rw [List.cons_append, List.cons_append, List.cons_append, List.nil_append,
        parseIPv4Fields_digit _ _ (by omega) (by omega) (by omega),
        parseIPv4Fields_digit _ _ (by omega) (by omega) (by omega),
        parseIPv4Fields_digit _ _ (by omega) (by omega) (by omega)]
      congr 1
      omega

theorem parseIPv4Fields_dot (fields : List UInt8) {n k : Nat} {t : GoString} (hk : k ≠ 0)
    (hf : fields.length ≠ 3) (ht : t ≠ []) :
    parseIPv4Fields fields n k (0x2E :: t)
      = parseIPv4Fields (fields ++ [UInt8.ofNat n]) 0 0 t := by
  rw [parseIPv4Fields, if_neg (by decide), if_pos rfl, if_neg (by simp [hk, ht]), if_neg hf]

theorem parseIPv4Fields_appendTo4 (ip : Nat) :
    parseIPv4Fields [] 0 0 (appendTo4 ip) = some (beBytes 4 ip) := by
  have hlen : ∀ n, (formatUint n).length ≠ 0 := fun n h =>
    formatUint_ne_nil n (List.length_eq_zero_iff.mp h)
  -- an octet, and a dot when another follows
  have hstep : ∀ (fields : List UInt8) (n m : Nat) (t : GoString), n < 256 → fields.length < 3 →
      parseIPv4Fields fields 0 0 (formatUint n ++ 0x2E :: (formatUint m ++ t))
        = parseIPv4Fields (fields ++ [UInt8.ofNat n]) 0 0 (formatUint m ++ t) := by
    intro fields n m t hn hf
    rw [parseIPv4Fields_octet _ hn, parseIPv4Fields_dot _ (hlen n) (by omega)
      (by simp [formatUint_ne_nil])]
  have hlast := parseIPv4Fields_octet [UInt8.ofNat (ip / 2 ^ 24 % 256),
    UInt8.ofNat (ip / 2 ^ 16 % 256), UInt8.ofNat (ip / 2 ^ 8 % 256)]
    (n := ip % 256) (by omega) []
  unfold appendTo4
  rw [← List.append_nil (formatUint (ip % 256))]
  simp only [List.append_assoc, List.cons_append]
  rw [hstep _ _ _ _ (by omega) (by simp), hstep _ _ _ _ (by omega) (by simp),
    hstep _ _ _ _ (by omega) (by simp)]
  simp only [List.nil_append, List.cons_append]
  rw [hlast, parseIPv4Fields, if_neg (by simp), beBytes_four]
  rfl

theorem find?_appendTo4 (ip : Nat) :
    (appendTo4 ip).find? (fun c => c = 0x2E || c = 0x3A || c = 0x25) = some 0x2E := by
  have hnone : ∀ n t, List.find? (fun c : UInt8 => c = 0x2E || c = 0x3A || c = 0x25)
      (formatUint n ++ 0x2E :: t) = some 0x2E := by
    intro n t
    rw [List.find?_append, List.find?_eq_none.mpr, Option.none_or,
      List.find?_cons_of_pos (by decide)]
    intro c hc
    obtain ⟨d, hd, rfl⟩ := formatUint_digits n c hc
    exact (by decide : ∀ d < 10, ¬ (decide (digit d = 0x2E) || decide (digit d = 0x3A)
      || decide (digit d = 0x25)) = true) d hd
  unfold appendTo4
  simp only [List.append_assoc, List.cons_append]
  exact hnone _ _

theorem parseAddr_v4 (ip : BitVec 32) : parseAddr (Addr.v4 ip).string = some (.v4 ip) := by
  show parseAddr (appendTo4 ip.toNat) = _
  unfold parseAddr
  rw [find?_appendTo4]
  have hip : ip.toNat % 256 ^ 4 = ip.toNat := Nat.mod_eq_of_lt ip.isLt
  simp only [if_true, parseIPv4, parseIPv4Fields_appendTo4, Option.map_some, bigEndian_beBytes, hip,
    BitVec.ofNat_toNat, BitVec.setWidth_eq]

/-! ## IPv6 -/

theorem hexChar_facts : ∀ d, d < 16 →
    isHex (hexChar d) = true ∧ hexDigitVal (hexChar d) = d := by
  decide

theorem appendHex_digits {x : Nat} (hx : x < 65536) :
    ∀ c ∈ appendHex x, ∃ d, d < 16 ∧ c = hexChar d := by
  intro c hc
  unfold appendHex at hc
  simp only [List.mem_append, List.mem_singleton] at hc
  rcases hc with ((hc | hc) | hc) | hc
  · split at hc
    · exact ⟨x / 0x1000, by omega, by simpa using hc⟩
    · cases hc
  · split at hc
    · exact ⟨_, Nat.mod_lt _ (by omega), by simpa using hc⟩
    · cases hc
  · split at hc
    · exact ⟨_, Nat.mod_lt _ (by omega), by simpa using hc⟩
    · cases hc
  · exact ⟨_, Nat.mod_lt _ (by omega), hc⟩

theorem appendHex_length (x : Nat) : 1 ≤ (appendHex x).length ∧ (appendHex x).length ≤ 4 := by
  unfold appendHex
  simp only [List.length_append, List.length_singleton]
  constructor
  · omega
  · split <;> split <;> split <;> simp

theorem appendHex_ne_nil (x : Nat) : appendHex x ≠ [] := by
  intro h
  have := (appendHex_length x).1
  rw [h] at this
  simp at this

/-- A field reads back. -/
theorem hexField_appendHex {x : Nat} (hx : x < 65536) :
    hexField (appendHex x) = [UInt8.ofNat (x / 256), UInt8.ofNat (x % 256)] := by
  have hval : (appendHex x).foldl (fun n c => n * 16 + hexDigitVal c) 0 = x := by
    have h1 := fun d hd => (hexChar_facts d hd).2
    unfold appendHex
    by_cases ha : 0x1000 ≤ x
    · rw [if_pos ha, if_pos (by omega), if_pos (by omega)]
      simp only [List.cons_append, List.nil_append, List.foldl_cons, List.foldl_nil]
      rw [h1 _ (by omega), h1 _ (by omega), h1 _ (by omega), h1 _ (by omega)]
      omega
    · rw [if_neg ha]
      by_cases hb : 0x100 ≤ x
      · rw [if_pos hb, if_pos (by omega)]
        simp only [List.cons_append, List.nil_append, List.foldl_cons, List.foldl_nil]
        rw [h1 _ (by omega), h1 _ (by omega), h1 _ (by omega)]
        omega
      · rw [if_neg hb]
        by_cases hc : 0x10 ≤ x
        · rw [if_pos hc]
          simp only [List.cons_append, List.nil_append, List.foldl_cons, List.foldl_nil]
          rw [h1 _ (by omega), h1 _ (by omega)]
          omega
        · rw [if_neg hc]
          simp only [List.nil_append, List.foldl_cons, List.foldl_nil]
          rw [h1 _ (by omega)]
          omega
  unfold hexField
  simp only [hval]

/-- The bytes of a list of fields. -/
def fieldBytes (fields : List Nat) : List UInt8 :=
  fields.flatMap fun x => [UInt8.ofNat (x / 256), UInt8.ofNat (x % 256)]

theorem length_fieldBytes (fields : List Nat) : (fieldBytes fields).length = 2 * fields.length := by
  induction fields with
  | nil => rfl
  | cons x t ih =>
      simp only [fieldBytes, List.flatMap_cons, List.length_append] at ih ⊢
      rw [ih]
      simp; omega

theorem fieldBytes_append (a b : List Nat) : fieldBytes (a ++ b) = fieldBytes a ++ fieldBytes b :=
  List.flatMap_append

theorem fieldBytes_zeros (k : Nat) :
    fieldBytes (List.replicate k 0) = List.replicate (2 * k) 0 := by
  induction k with
  | zero => rfl
  | succ k ih =>
      rw [List.replicate_succ, ← List.singleton_append, fieldBytes_append, ih, Nat.mul_succ,
        Nat.add_comm, List.replicate_add]
      rfl

theorem takeWhile_appendHex {x : Nat} (hx : x < 65536) {t : GoString}
    (ht : ∀ c ∈ t.head?, isHex c = false) :
    (appendHex x ++ t).takeWhile isHex = appendHex x ∧ (appendHex x ++ t).dropWhile isHex = t := by
  have hall : ∀ c ∈ appendHex x, isHex c = true := by
    intro c hc
    obtain ⟨d, hd, rfl⟩ := appendHex_digits hx c hc
    exact (hexChar_facts d hd).1
  have htail : t.takeWhile isHex = [] ∧ t.dropWhile isHex = t := by
    cases t with
    | nil => exact ⟨rfl, rfl⟩
    | cons c u =>
        have hc : isHex c = false := ht c (by simp)
        exact ⟨by simp [hc], by simp [hc]⟩
  rw [List.takeWhile_append_of_pos hall, List.dropWhile_append_of_pos hall, htail.1, htail.2]
  exact ⟨List.append_nil _, rfl⟩

section Fields

variable {x : Nat} (hx : x < 65536) (n : Nat) (ip : List UInt8)
include hx

theorem parseIPv6Fields_last (ell : Option Nat) :
    parseIPv6Fields (n + 1) ip ell (appendHex x) = some (ip ++ fieldBytes [x], ell, []) := by
  obtain ⟨h1, h2⟩ := takeWhile_appendHex hx (t := []) (by simp)
  rw [List.append_nil] at h1 h2
  have hlen := appendHex_length x
  simp only [parseIPv6Fields, h1, h2]
  rw [if_neg (by simp [appendHex_ne_nil]; omega), hexField_appendHex hx]
  rfl

theorem parseIPv6Fields_colon (ell : Option Nat) {d : UInt8} (hd : d ≠ 0x3A) (u : GoString) :
    parseIPv6Fields (n + 1) ip ell (appendHex x ++ 0x3A :: d :: u)
      = parseIPv6Fields n (ip ++ fieldBytes [x]) ell (d :: u) := by
  obtain ⟨h1, h2⟩ := takeWhile_appendHex hx (t := 0x3A :: d :: u) (by simp; decide)
  have hlen := appendHex_length x
  rw [parseIPv6Fields]
  simp only [h1, h2]
  rw [if_neg (by simp [appendHex_ne_nil]; omega), if_neg (by decide), if_neg (by decide),
    if_neg hd, hexField_appendHex hx]
  rfl

theorem parseIPv6Fields_ellipsis (u : GoString) :
    parseIPv6Fields (n + 1) ip none (appendHex x ++ 0x3A :: 0x3A :: u)
      = if u = [] then some (ip ++ fieldBytes [x], some (ip.length + 2), [])
        else parseIPv6Fields n (ip ++ fieldBytes [x]) (some (ip.length + 2)) u := by
  obtain ⟨h1, h2⟩ := takeWhile_appendHex hx (t := 0x3A :: 0x3A :: u) (by simp; decide)
  have hlen := appendHex_length x
  rw [parseIPv6Fields]
  simp only [h1, h2]
  rw [if_neg (by simp [appendHex_ne_nil]; omega), if_neg (by decide), if_neg (by decide),
    if_pos trivial, if_neg (by simp), hexField_appendHex hx]
  rfl

end Fields

theorem joinFields_cons (x : Nat) {t : List Nat} (ht : t ≠ []) :
    joinFields (x :: t) = appendHex x ++ 0x3A :: joinFields t := by
  cases t with
  | nil => exact absurd rfl ht
  | cons y t => rfl

/-- Text of fields begins with a hexadecimal digit. -/
theorem joinFields_head {fields : List Nat} (hne : fields ≠ []) (hlt : ∀ x ∈ fields, x < 65536) :
    ∃ d u, joinFields fields = d :: u ∧ d ≠ 0x3A := by
  have hhex : ∀ x, x < 65536 → ∃ d u, appendHex x = d :: u ∧ d ≠ 0x3A := by
    intro x hx
    cases h : appendHex x with
    | nil => exact absurd h (appendHex_ne_nil x)
    | cons d u =>
        refine ⟨d, u, rfl, ?_⟩
        obtain ⟨k, hk, rfl⟩ := appendHex_digits hx d (by rw [h]; simp)
        exact (by decide : ∀ k < 16, hexChar k ≠ 0x3A) k hk
  cases fields with
  | nil => exact absurd rfl hne
  | cons x t =>
      obtain ⟨d, u, hxu, hd⟩ := hhex x (hlt x (by simp))
      cases t with
      | nil => exact ⟨d, u, hxu, hd⟩
      | cons y t => exact ⟨d, u ++ 0x3A :: joinFields (y :: t), by
          rw [joinFields_cons x (by simp), hxu]; rfl, hd⟩

/-- Fields to the end of the text. -/
theorem parseIPv6Fields_join {fields : List Nat} (hne : fields ≠ [])
    (hlt : ∀ x ∈ fields, x < 65536) {n : Nat} (hn : fields.length ≤ n) (ip : List UInt8)
    (ell : Option Nat) :
    parseIPv6Fields n ip ell (joinFields fields) = some (ip ++ fieldBytes fields, ell, []) := by
  induction fields generalizing n ip with
  | nil => exact absurd rfl hne
  | cons x t ih =>
      obtain ⟨n, rfl⟩ : ∃ m, n = m + 1 := ⟨n - 1, by simp at hn; omega⟩
      have hx := hlt x (by simp)
      by_cases ht : t = []
      · subst ht
        exact parseIPv6Fields_last hx n ip ell
      · obtain ⟨d, u, hdu, hd⟩ := joinFields_head ht (fun y hy => hlt y (by simp [hy]))
        rw [joinFields_cons x ht, hdu, parseIPv6Fields_colon hx n ip ell hd u, ← hdu,
          ih ht (fun y hy => hlt y (by simp [hy])) (by simpa using hn), List.append_assoc,
          ← fieldBytes_append]
        rfl

/-- Fields up to a double colon. -/
theorem parseIPv6Fields_join_ellipsis {fields : List Nat} (hne : fields ≠ [])
    (hlt : ∀ x ∈ fields, x < 65536) {n : Nat} (hn : fields.length ≤ n) (ip : List UInt8)
    (u : GoString) :
    parseIPv6Fields n ip none (joinFields fields ++ 0x3A :: 0x3A :: u)
      = if u = [] then some (ip ++ fieldBytes fields, some (ip ++ fieldBytes fields).length, [])
        else parseIPv6Fields (n - fields.length) (ip ++ fieldBytes fields)
          (some (ip ++ fieldBytes fields).length) u := by
  induction fields generalizing n ip with
  | nil => exact absurd rfl hne
  | cons x t ih =>
      obtain ⟨n, rfl⟩ : ∃ m, n = m + 1 := ⟨n - 1, by simp at hn; omega⟩
      have hx := hlt x (by simp)
      by_cases ht : t = []
      · subst ht
        rw [joinFields, parseIPv6Fields_ellipsis hx n ip u, List.length_append, length_fieldBytes]
        simp
      · obtain ⟨d, v, hdv, hd⟩ := joinFields_head ht (fun y hy => hlt y (by simp [hy]))
        have hassoc : ip ++ fieldBytes [x] ++ fieldBytes t = ip ++ fieldBytes (x :: t) := by
          rw [List.append_assoc, ← fieldBytes_append]; rfl
        have hrec := ih ht (fun y hy => hlt y (by simp [hy])) (n := n) (by simpa using hn)
          (ip ++ fieldBytes [x])
        rw [hassoc, hdv, List.cons_append] at hrec
        rw [joinFields_cons x ht, hdv, List.append_assoc, List.cons_append, List.cons_append,
          parseIPv6Fields_colon hx n ip none hd _, hrec]
        simp

/-- What stands between the two ends of the run is zero. -/
theorem zeroRun_spec {fields : List Nat} {i j : Nat} (h : zeroRun fields = some (i, j)) :
    i + 2 ≤ j ∧ j ≤ fields.length
      ∧ fields = fields.take i ++ List.replicate (j - i) 0 ++ fields.drop j := by
  let Zero : Option (Nat × Nat) → Prop := fun best => ∀ i j, best = some (i, j) →
    i + 2 ≤ j ∧ j ≤ fields.length
      ∧ fields = fields.take i ++ List.replicate (j - i) 0 ++ fields.drop j
  suffices hkeep : ∀ (l : List Nat) (best : Option (Nat × Nat)), Zero best →
      Zero (l.foldl (fun best i =>
        let j := i + ((fields.drop i).takeWhile (· == 0)).length
        if 2 ≤ j - i ∧ runLength best < j - i then some (i, j) else best) best) from
    hkeep _ none (by intro i j h; cases h) i j h
  intro l
  induction l with
  | nil => intro best hb; exact hb
  | cons k l ih =>
      intro best hb
      refine ih _ ?_
      simp only
      split
      · rename_i hk
        intro i j hij
        obtain ⟨rfl, rfl⟩ : k = i ∧ k + ((fields.drop k).takeWhile (· == 0)).length = j := by
          simpa using hij
        generalize hrun : (fields.drop k).takeWhile (· == 0) = run at hk ⊢
        have hzero : run = List.replicate run.length 0 := by
          refine List.eq_replicate_iff.mpr ⟨rfl, fun b hb => ?_⟩
          rw [← hrun] at hb
          simpa using List.mem_takeWhile_imp hb
        have hdrop : fields.drop k = run ++ fields.drop (k + run.length) := by
          have hsplit := List.takeWhile_append_dropWhile (p := (· == 0)) (l := fields.drop k)
          rw [hrun] at hsplit
          have hrest : (fields.drop k).dropWhile (· == 0) = (fields.drop k).drop run.length := by
            conv_rhs => rw [← hsplit]
            rw [List.drop_left]
          rw [hrest, List.drop_drop] at hsplit
          exact hsplit.symm
        refine ⟨by omega, ?_, ?_⟩
        · have := congrArg List.length hdrop
          simp only [List.length_drop, List.length_append] at this
          omega
        · rw [Nat.add_sub_cancel_left, ← hzero, List.append_assoc, ← hdrop, List.take_append_drop]
      · exact hb

theorem v6Fields_lt (ip : Nat) : ∀ x ∈ v6Fields ip, x < 65536 := by
  intro x hx
  simp only [v6Fields, List.mem_cons, List.not_mem_nil, or_false] at hx
  omega

theorem bigEndian_field (a : List UInt8) {x : Nat} (hx : x < 65536) :
    bigEndian (a ++ [UInt8.ofNat (x / 256), UInt8.ofNat (x % 256)]) = bigEndian a * 65536 + x := by
  rw [show a ++ [UInt8.ofNat (x / 256), UInt8.ofNat (x % 256)]
    = a ++ [UInt8.ofNat (x / 256)] ++ [UInt8.ofNat (x % 256)] by simp, bigEndian_concat,
    bigEndian_concat, UInt8.toNat_ofNat', UInt8.toNat_ofNat']
  omega

theorem bigEndian_fieldBytes {fields : List Nat} (h : ∀ x ∈ fields, x < 65536) (a : List UInt8) :
    bigEndian (a ++ fieldBytes fields)
      = fields.foldl (fun n x => n * 65536 + x) (bigEndian a) := by
  induction fields generalizing a with
  | nil => simp [fieldBytes]
  | cons x t ih =>
      have hcons : fieldBytes (x :: t)
          = [UInt8.ofNat (x / 256), UInt8.ofNat (x % 256)] ++ fieldBytes t := rfl
      rw [hcons, ← List.append_assoc, ih (fun y hy => h y (by simp [hy])),
        bigEndian_field a (h x (by simp))]
      rfl

theorem bigEndian_v6Fields {ip : Nat} (h : ip < 2 ^ 128) :
    bigEndian (fieldBytes (v6Fields ip)) = ip := by
  have := bigEndian_fieldBytes (v6Fields_lt ip) []
  rw [List.nil_append] at this
  rw [this]
  simp only [v6Fields, List.foldl_cons, List.foldl_nil, bigEndian]
  omega

/-- Text without a leading double colon. -/
theorem parseIPv6Bytes_of_not_lead {s : GoString} (h : ¬ s.take 2 = [0x3A, 0x3A]) :
    parseIPv6Bytes s = (parseIPv6Fields 8 [] none s).bind fun r =>
      if r.2.2 ≠ [] then none else expandEllipsis r.1 r.2.1 := by
  simp only [parseIPv6Bytes, h, false_and, if_false]
  rfl

/-- Text after a leading double colon. -/
theorem parseIPv6Bytes_lead (t : GoString) :
    parseIPv6Bytes (0x3A :: 0x3A :: t) = if t = [] then some (List.replicate 16 0)
      else (parseIPv6Fields 8 [] (some 0) t).bind fun r =>
        if r.2.2 ≠ [] then none else expandEllipsis r.1 r.2.1 := by
  cases t with
  | nil => rfl
  | cons c t =>
      simp only [parseIPv6Bytes, List.take_succ_cons, List.take_zero, true_and, List.length_cons,
        List.drop_succ_cons, List.drop_zero, if_true]
      rw [if_neg (by omega), if_neg (by simp)]
      rfl

/-- **The text of an IPv6 address reads back.** -/
theorem parseIPv6Bytes_appendTo6 (ip : Nat) :
    parseIPv6Bytes (appendTo6 ip) = some (fieldBytes (v6Fields ip)) := by
  have hlt := v6Fields_lt ip
  have hlen : (v6Fields ip).length = 8 := rfl
  -- the fields are made opaque first, or Lean looks for the run of zeros in them
  delta appendTo6
  generalize v6Fields ip = fields at hlt hlen
  dsimp only
  -- text that begins with a field does not begin with a double colon
  have hlead : ∀ (fs : List Nat) (t : GoString), fs ≠ [] → (∀ x ∈ fs, x < 65536) →
      ¬ (joinFields fs ++ t).take 2 = [0x3A, 0x3A] := by
    intro fs t hne hl h
    obtain ⟨d, u, hdu, hd⟩ := joinFields_head hne hl
    rw [hdu, List.cons_append, List.take_succ_cons] at h
    exact hd (List.cons.inj h).1
  have hjoin : ∀ fs, joinFields fs = [] → fs = [] := by
    intro fs h
    by_contra hne
    cases fs with
    | nil => exact hne rfl
    | cons x t =>
      cases t with
      | nil => exact appendHex_ne_nil x h
      | cons y t => rw [joinFields_cons x (by simp)] at h; simp at h
  cases hz : zeroRun fields with
  | none =>
      have hne : fields ≠ [] := by intro h; rw [h] at hlen; cases hlen
      have hl := hlead fields [] hne hlt
      rw [List.append_nil] at hl
      rw [parseIPv6Bytes_of_not_lead hl, parseIPv6Fields_join hne hlt (by omega)]
      simp [expandEllipsis, length_fieldBytes, hlen]
  | some r =>
      obtain ⟨i, j⟩ := r
      obtain ⟨hij, hj, hsplit⟩ := zeroRun_spec hz
      have hbytes : fieldBytes fields = fieldBytes (fields.take i)
          ++ List.replicate (2 * (j - i)) 0 ++ fieldBytes (fields.drop j) := by
        conv_lhs => rw [hsplit]
        rw [fieldBytes_append, fieldBytes_append, fieldBytes_zeros]
      have hti : (fields.take i).length = i := by rw [List.length_take]; omega
      have hdj : (fields.drop j).length = 8 - j := by rw [List.length_drop]; omega
      have hdlt : ∀ x ∈ fields.drop j, x < 65536 := fun x hx => hlt x (List.mem_of_mem_drop hx)
      -- what `::` stands for is what is missing to sixteen bytes
      have hexpand : expandEllipsis (fieldBytes (fields.take i) ++ fieldBytes (fields.drop j))
          (some (fieldBytes (fields.take i)).length) = some (fieldBytes fields) := by
        have hl16 : (fieldBytes (fields.take i) ++ fieldBytes (fields.drop j)).length
            = 16 - 2 * (j - i) := by
          rw [List.length_append, length_fieldBytes, length_fieldBytes, hti, hdj]; omega
        rw [expandEllipsis, if_pos (by omega), List.take_left, List.drop_left, hbytes, hl16,
          show 16 - (16 - 2 * (j - i)) = 2 * (j - i) by omega]
      show parseIPv6Bytes
        (joinFields (fields.take i) ++ [0x3A, 0x3A] ++ joinFields (fields.drop j)) = _
      rw [List.append_assoc]
      by_cases hi : fields.take i = []
      · rw [hi] at hexpand ⊢
        show parseIPv6Bytes (0x3A :: 0x3A :: joinFields (fields.drop j)) = _
        rw [parseIPv6Bytes_lead]
        by_cases hd : fields.drop j = []
        · have hij8 : j - i = 8 := by
            rw [hi] at hti; rw [hd] at hdj; simp at hti hdj; omega
          rw [if_pos (by rw [hd]; rfl), hbytes, hi, hd, hij8]
          rfl
        · rw [if_neg (fun h => hd (hjoin _ h)), parseIPv6Fields_join hd hdlt (by omega)]
          simpa [fieldBytes] using hexpand
      · have htlt : ∀ x ∈ fields.take i, x < 65536 := fun x hx => hlt x (List.mem_of_mem_take hx)
        show parseIPv6Bytes (joinFields (fields.take i)
          ++ 0x3A :: 0x3A :: joinFields (fields.drop j)) = _
        rw [parseIPv6Bytes_of_not_lead (hlead _ _ hi htlt),
          parseIPv6Fields_join_ellipsis hi htlt (by omega)]
        by_cases hd : fields.drop j = []
        · rw [if_pos (by rw [hd]; rfl)]
          rw [hd] at hexpand
          simpa [fieldBytes] using hexpand
        · rw [if_neg (fun h => hd (hjoin _ h)), parseIPv6Fields_join hd hdlt (by omega)]
          simpa using hexpand

/-- The fields of an IPv6 address are written with digits and colons. -/
theorem joinFields_chars {fields : List Nat} (hlt : ∀ x ∈ fields, x < 65536) :
    ∀ c ∈ joinFields fields, c = 0x3A ∨ ∃ d, d < 16 ∧ c = hexChar d := by
  induction fields with
  | nil => intro c hc; cases hc
  | cons x t ih =>
      have hx := appendHex_digits (hlt x (by simp))
      by_cases ht : t = []
      · subst ht
        intro c hc
        exact Or.inr (hx c hc)
      · intro c hc
        rw [joinFields_cons x ht, List.mem_append, List.mem_cons] at hc
        rcases hc with hc | rfl | hc
        · exact Or.inr (hx c hc)
        · exact Or.inl rfl
        · exact ih (fun y hy => hlt y (by simp [hy])) c hc

theorem appendTo6_chars (ip : Nat) :
    0x3A ∈ appendTo6 ip ∧ ∀ c ∈ appendTo6 ip, c = 0x3A ∨ ∃ d, d < 16 ∧ c = hexChar d := by
  have hlt := v6Fields_lt ip
  have htwo : ∃ x y t, v6Fields ip = x :: y :: t := ⟨_, _, _, rfl⟩
  delta appendTo6
  generalize v6Fields ip = fields at hlt htwo
  dsimp only
  cases zeroRun fields with
  | none =>
      refine ⟨?_, joinFields_chars hlt⟩
      obtain ⟨x, y, t, rfl⟩ := htwo
      show 0x3A ∈ joinFields (x :: y :: t)
      rw [joinFields_cons x (by simp)]
      simp
  | some r =>
      refine ⟨by simp, fun c hc => ?_⟩
      rw [List.mem_append, List.mem_append] at hc
      rcases hc with (hc | hc) | hc
      · exact joinFields_chars (fun x hx => hlt x (List.mem_of_mem_take hx)) c hc
      · exact Or.inl (by simpa using hc)
      · exact joinFields_chars (fun x hx => hlt x (List.mem_of_mem_drop hx)) c hc

/-- An octet has one to three digits, all hexadecimal. -/
theorem formatUint_octet_length {n : Nat} (hn : n < 256) : (formatUint n).length ≤ 3 := by
  rw [formatUint_octet n hn]
  split
  · simp
  · split <;> simp

/-- An embedded IPv4 address, where `::` has already stood. -/
theorem parseIPv6Fields_appendTo4 (n k v : Nat) {ip : List UInt8} (hip : ip.length + 4 ≤ 16) :
    parseIPv6Fields (n + 1) ip (some k) (appendTo4 v) = some (ip ++ beBytes 4 v, some k, []) := by
  have hv4 := parseIPv4Fields_appendTo4 v
  obtain ⟨o, t, ho, htext⟩ : ∃ o t, o < 256 ∧ appendTo4 v = formatUint o ++ 0x2E :: t :=
    ⟨v / 2 ^ 24 % 256, _, by omega,
      by simp only [appendTo4, List.append_assoc, List.cons_append]; rfl⟩
  rw [htext] at hv4 ⊢
  have hall : ∀ c ∈ formatUint o, isHex c = true := by
    intro c hc
    obtain ⟨d, hd, rfl⟩ := formatUint_digits o c hc
    simp [isHex, (digit_facts d hd).1]
  have h1 : (formatUint o ++ 0x2E :: t).takeWhile isHex = formatUint o := by
    rw [List.takeWhile_append_of_pos hall]; simp [show isHex 0x2E = false by decide]
  have h2 : (formatUint o ++ 0x2E :: t).dropWhile isHex = 0x2E :: t := by
    rw [List.dropWhile_append_of_pos hall]; simp [show isHex 0x2E = false by decide]
  have hlen := formatUint_octet_length ho
  rw [parseIPv6Fields]
  simp only [h1, h2]
  rw [if_neg (by simp [formatUint_ne_nil]; omega), if_pos trivial, if_neg (by simp),
    if_neg (by omega), hv4]
  rfl

/-- An IPv4 address in IPv6 reads back. -/
theorem parseIPv6Bytes_mapped (ip : Nat) :
    parseIPv6Bytes (str "::ffff:" ++ appendTo4 ip)
      = some (List.replicate 10 0 ++ [0xFF, 0xFF] ++ beBytes 4 ip) := by
  obtain ⟨d, u, hdu, hd⟩ : ∃ d u, appendTo4 ip = d :: u ∧ d ≠ 0x3A := by
    obtain ⟨c, t, hct, hc, _, _⟩ := formatUint_head (ip / 2 ^ 24 % 256)
    refine ⟨c, t ++ 0x2E :: formatUint (ip / 2 ^ 16 % 256) ++ 0x2E :: formatUint (ip / 2 ^ 8 % 256)
      ++ 0x2E :: formatUint (ip % 256), ?_, ?_⟩
    · simp only [appendTo4, hct, List.cons_append]
    · rintro rfl; exact absurd hc (by decide)
  show parseIPv6Bytes (0x3A :: 0x3A :: (appendHex 0xFFFF ++ 0x3A :: appendTo4 ip)) = _
  rw [parseIPv6Bytes_lead, if_neg (by simp), hdu,
    parseIPv6Fields_colon (by omega) 7 [] (some 0) hd u, ← hdu,
    parseIPv6Fields_appendTo4 6 0 ip (by decide)]
  simp only [Option.bind_some, ne_eq, not_true_eq_false, if_false, expandEllipsis,
    List.length_append, length_beBytes, List.nil_append]
  rfl

/-- Among text of which only colons count, a colon is found first. -/
theorem find?_colon {s t : GoString} (hmem : 0x3A ∈ s)
    (hs : ∀ c ∈ s, c = 0x3A ∨ ¬ (c = 0x2E ∨ c = 0x3A ∨ c = 0x25)) :
    (s ++ t).find? (fun c => c = 0x2E || c = 0x3A || c = 0x25) = some 0x3A := by
  induction s with
  | nil => cases hmem
  | cons c s ih =>
      rcases hs c (by simp) with rfl | hc
      · rfl
      · rw [List.cons_append, List.find?_cons_of_neg (by simpa [not_or, and_assoc] using hc)]
        refine ih ?_ (fun b hb => hs b (by simp [hb]))
        rcases List.mem_cons.mp hmem with rfl | hm
        · exact absurd (Or.inr (Or.inl rfl)) hc
        · exact hm

/-- A zone is cut off at the first percent sign. -/
theorem parseIPv6_zone {s : GoString} {b : List UInt8} (hs : (0x25 : UInt8) ∉ s)
    (hb : parseIPv6Bytes s = some b) (zone : GoString) :
    parseIPv6 (s ++ if zone = [] then [] else 0x25 :: zone)
      = some (.v6 (BitVec.ofNat 128 (bigEndian b)) zone) := by
  have hall : ∀ c ∈ s, (c != 0x25) = true := by
    intro c hc
    simp only [bne_iff_ne]
    rintro rfl
    exact hs hc
  unfold parseIPv6
  by_cases hz : zone = []
  · rw [if_pos hz, List.dropWhile_append_of_pos hall, hz]
    simp [hb]
  · rw [if_neg hz, List.dropWhile_append_of_pos hall, List.takeWhile_append_of_pos hall]
    simp [hz, hb]

/-- **The text of an address reads back as the address.** -/
theorem parseAddr_string (a : Addr) : parseAddr a.string = some a := by
  cases a with
  | v4 ip => exact parseAddr_v4 ip
  | v6 ip zone =>
      have hhex : ∀ d, d < 16 → ¬ (hexChar d = 0x2E ∨ hexChar d = 0x3A ∨ hexChar d = 0x25) := by
        decide
      by_cases hm : (Addr.v6 ip zone).is4In6 = true
      · have hstring : (Addr.v6 ip zone).string = (str "::ffff:" ++ appendTo4 (ip.toNat % 2 ^ 32))
            ++ if zone = [] then [] else 0x25 :: zone := by
          simp only [Addr.string, if_pos hm]
        have hno : (0x25 : UInt8) ∉ str "::ffff:" ++ appendTo4 (ip.toNat % 2 ^ 32) := by
          have hdigit : ∀ n, (0x25 : UInt8) ∉ formatUint n := by
            intro n hmem
            obtain ⟨d, hd, he⟩ := formatUint_digits n _ hmem
            exact (by decide : ∀ d < 10, (0x25 : UInt8) ≠ digit d) d hd he
          simp [appendTo4, hdigit, str]
          decide
        -- the upper half of the address is what the text leaves out
        have hvalue :
            bigEndian (List.replicate 10 0 ++ [0xFF, 0xFF] ++ beBytes 4 (ip.toNat % 2 ^ 32))
            = ip.toNat := by
          have hhigh : ip.toNat / 2 ^ 32 = 0xFFFF := by simpa [Addr.is4In6] using hm
          have hones : bigEndian (List.replicate 10 0 ++ [0xFF, 0xFF]) = 0xFFFF := by decide
          rw [bigEndian_append, hones, bigEndian_beBytes, length_beBytes]
          omega
        have hfind : parseAddr (Addr.v6 ip zone).string = parseIPv6 (Addr.v6 ip zone).string := by
          rw [hstring]; rfl
        rw [hfind, hstring, parseIPv6_zone hno (parseIPv6Bytes_mapped _), hvalue]
        simp
      · obtain ⟨hcolon, hchars⟩ := appendTo6_chars ip.toNat
        have hstring : (Addr.v6 ip zone).string = appendTo6 ip.toNat
            ++ if zone = [] then [] else 0x25 :: zone := by
          simp only [Addr.string, if_neg hm]
        have hplain : ∀ c ∈ appendTo6 ip.toNat,
            c = 0x3A ∨ ¬ (c = 0x2E ∨ c = 0x3A ∨ c = 0x25) := by
          intro c hc
          rcases hchars c hc with rfl | ⟨d, hd, rfl⟩
          · exact Or.inl rfl
          · exact Or.inr (hhex d hd)
        have hno : (0x25 : UInt8) ∉ appendTo6 ip.toNat := by
          intro hmem
          rcases hplain _ hmem with h | h
          · exact absurd h (by decide)
          · exact h (by decide)
        have hfind : parseAddr (Addr.v6 ip zone).string = parseIPv6 (Addr.v6 ip zone).string := by
          rw [hstring, parseAddr, find?_colon hcolon hplain]
          rfl
        rw [hfind, hstring, parseIPv6_zone hno (parseIPv6Bytes_appendTo6 _),
          bigEndian_v6Fields ip.isLt]
        simp

/-! ## Slices and hardware addresses -/

theorem addrFromSlice_asSlice (a : Addr) : addrFromSlice a.asSlice = some a.withoutZone := by
  cases a with
  | v4 ip =>
      have hvalue : bigEndian (beBytes 4 ip.toNat) = ip.toNat := by
        rw [bigEndian_beBytes]; exact Nat.mod_eq_of_lt ip.isLt
      simp [addrFromSlice, Addr.asSlice, length_beBytes, hvalue, Addr.withoutZone]
  | v6 ip zone =>
      have hvalue : bigEndian (beBytes 16 ip.toNat) = ip.toNat := by
        rw [bigEndian_beBytes]; exact Nat.mod_eq_of_lt ip.isLt
      simp [addrFromSlice, Addr.asSlice, length_beBytes, hvalue, Addr.withoutZone]

/-- What an address is written as once it has been through the kernel. -/
theorem IP.string_asSlice (a : Addr) : IP.string a.asSlice = a.withoutZone.unmap.string := by
  have hne : a.asSlice ≠ [] := by
    intro h
    have := congrArg List.length h
    cases a <;> simp [Addr.asSlice, length_beBytes] at this
  rw [IP.string, if_neg hne, addrFromSlice_asSlice]

theorem xtoi2_hexByte (b : UInt8) (t : GoString) : xtoi2 (hexByte b ++ t) = some (b, t) := by
  have hb : b.toNat < 256 := b.toNat_lt
  obtain ⟨h1, h2⟩ := hexChar_facts (b.toNat / 16) (by omega)
  obtain ⟨h3, h4⟩ := hexChar_facts (b.toNat % 16) (by omega)
  simp only [hexByte, List.cons_append, List.nil_append, xtoi2, h1, h3, h2, h4, Bool.and_self,
    if_true]
  rw [show b.toNat / 16 * 16 + b.toNat % 16 = b.toNat by omega, UInt8.ofNat_toNat]

theorem macOctets_string {m : HardwareAddr} (hne : m ≠ []) {n : Nat} (hn : m.length ≤ n) :
    macOctets 0x3A n m.string = some m := by
  induction m generalizing n with
  | nil => exact absurd rfl hne
  | cons b t ih =>
      obtain ⟨n, rfl⟩ : ∃ k, n = k + 1 := ⟨n - 1, by simp at hn; omega⟩
      cases t with
      | nil =>
          have hx := xtoi2_hexByte b []
          rw [List.append_nil] at hx
          simp [macOctets, HardwareAddr.string, hx]
      | cons c t =>
          have hrec := ih (by simp) (n := n) (by simpa using hn)
          simp [macOctets, HardwareAddr.string, xtoi2_hexByte, hrec]

/-- **The text of a hardware address reads back.** -/
theorem parseMAC_string {m : HardwareAddr} (h : m.length ∈ [6, 8, 20]) :
    parseMAC m.string = some m := by
  obtain ⟨b, c, t, rfl⟩ : ∃ b c t, m = b :: c :: t := by
    match m, h with
    | [], h => simp at h
    | [_], h => simp at h
    | b :: c :: t, _ => exact ⟨b, c, t, rfl⟩
  have hdrop : (HardwareAddr.string (b :: c :: t)).drop 2
      = 0x3A :: HardwareAddr.string (c :: t) := rfl
  have hlen : (b :: c :: t).length ≤ (HardwareAddr.string (b :: c :: t)).length := by
    clear h hdrop
    generalize b :: c :: t = m
    induction m with
    | nil => simp
    | cons b t ih =>
        cases t with
        | nil => simp [HardwareAddr.string, hexByte]
        | cons c t => simp [HardwareAddr.string, hexByte] at ih ⊢; omega
  simp only [parseMAC, hdrop, List.head?_cons, Option.any_some, List.headD_cons]
  rw [if_pos (by decide), macOctets_string (by simp) hlen, Option.bind_some, if_pos h]

/-! ## Text forms are ASCII -/

theorem formatUint_ascii (n : Nat) : ∀ c ∈ formatUint n, c < 0x80 := by
  intro c hc
  obtain ⟨d, hd, rfl⟩ := formatUint_digits n c hc
  exact (by decide : ∀ d < 10, digit d < 0x80) d hd

theorem hexChar_ascii {d : Nat} (hd : d < 16) : hexChar d < 0x80 :=
  (by decide : ∀ d < 16, hexChar d < 0x80) d hd

theorem formatInt_ascii (i : Int64) : ∀ c ∈ formatInt i, c < 0x80 := by
  intro c hc
  unfold formatInt at hc
  split at hc
  · rcases List.mem_cons.mp hc with rfl | hc
    · decide
    · exact formatUint_ascii _ c hc
  · exact formatUint_ascii _ c hc

theorem appendTo4_ascii (ip : Nat) : ∀ c ∈ appendTo4 ip, c < 0x80 := by
  intro c hc
  unfold appendTo4 at hc
  simp only [List.mem_append, List.mem_cons] at hc
  rcases hc with ((hc | rfl | hc) | rfl | hc) | rfl | hc
  · exact formatUint_ascii _ c hc
  · decide
  · exact formatUint_ascii _ c hc
  · decide
  · exact formatUint_ascii _ c hc
  · decide
  · exact formatUint_ascii _ c hc

theorem Prefix.string_ascii (p : Prefix) : ∀ c ∈ p.string, c < 0x80 := by
  have haddr : ∀ c ∈ p.addr.string, c < 0x80 := by
    have hz := p.unzoned
    intro c hc
    cases ha : p.addr with
    | v4 ip =>
        rw [ha] at hc
        exact appendTo4_ascii _ c hc
    | v6 ip zone =>
        rw [ha] at hc hz
        have hzone : zone = [] := hz
        simp only [Addr.string, hzone, if_true, List.append_nil] at hc
        split at hc
        · rcases List.mem_append.mp hc with hc | hc
          · exact (by decide +kernel : ∀ c ∈ str "::ffff:", c < 0x80) c hc
          · exact appendTo4_ascii _ c hc
        · rcases (appendTo6_chars ip.toNat).2 c hc with rfl | ⟨d, hd, rfl⟩
          · decide
          · exact hexChar_ascii hd
  intro c hc
  rcases List.mem_append.mp hc with hc | hc
  · exact haddr c hc
  · rcases List.mem_cons.mp hc with rfl | hc
    · decide
    · exact formatUint_ascii _ c hc

theorem HardwareAddr.string_ascii (m : HardwareAddr) : ∀ c ∈ m.string, c < 0x80 := by
  have hbyte : ∀ b : UInt8, ∀ c ∈ hexByte b, c < 0x80 := by
    intro b c hc
    have hb := b.toNat_lt
    simp only [hexByte, List.mem_cons, List.not_mem_nil, or_false] at hc
    rcases hc with rfl | rfl
    · exact hexChar_ascii (by omega)
    · exact hexChar_ascii (by omega)
  induction m with
  | nil => intro c hc; cases hc
  | cons b t ih =>
      cases t with
      | nil => exact hbyte b
      | cons b' t =>
          intro c hc
          rw [HardwareAddr.string, List.mem_append, List.mem_cons] at hc
          · rcases hc with hc | rfl | hc
            · exact hbyte b c hc
            · decide
            · exact ih c hc
          · simp

end Gsnet.Go
