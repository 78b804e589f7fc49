import Gsnet.Go.Json

/-!
# Reading back what was written

`Unmarshal` inverts `Marshal` on flat objects, up to the one loss the writer
makes: a byte that begins no rune has become U+FFFD. The statement is therefore
about `toValidUTF8` of every string, and it is an identity exactly for strings
that were valid to begin with.
-/

namespace Gsnet.Go

/-! ## Strings -/

theorem getu4_byte : ∀ n, n < 128 →
    getu4 0x30 0x30 (hexDigit (n / 16)) (hexDigit (n % 16)) = some n := by
  decide

theorem unquote_quote (t : GoString) : unquote (0x22 :: t) = some ([], t) := by
  rw [unquote.eq_def]
  rfl

example : unquote [0x22, 0x78] = some ([], [0x78]) := by decide +kernel

theorem unquote_hex {a b c d : UInt8} {n : Nat} (t : GoString)
    (hn : getu4 a b c d = some n) (hs : isSurrogate n = false) :
    unquote (0x5C :: 0x75 :: a :: b :: c :: d :: t) = push (encodeRune n) (unquote t) := by
  rw [unquote.eq_def]
  simp [hn, hs]

theorem unquote_escaped {e c : UInt8} (t : GoString) (he : unescape e = some c) (hu : e ≠ 0x75) :
    unquote (0x5C :: e :: t) = push [c] (unquote t) := by
  rw [unquote.eq_def]
  simp [he, hu]

/-- A single-byte rune is read back from however it was written. -/
theorem unquote_escapeByte {a : UInt8} (t : GoString) (ha : a < 0x80) :
    unquote (escapeByte a ++ t) = push [a] (unquote t) := by
  unfold escapeByte
  split
  · rename_i h
    rcases h with h | h <;> subst h <;> exact unquote_escaped t rfl (by decide)
  split
  · subst_vars; exact unquote_escaped t rfl (by decide)
  split
  · subst_vars; exact unquote_escaped t rfl (by decide)
  split
  · subst_vars; exact unquote_escaped t rfl (by decide)
  split
  · subst_vars; exact unquote_escaped t rfl (by decide)
  split
  · subst_vars; exact unquote_escaped t rfl (by decide)
  have hlt : a.toNat < 128 := by simpa [UInt8.lt_iff_toNat_lt] using ha
  split
  · -- written as `\u00xx`
    have henc : encodeRune a.toNat = [a] := by
      unfold encodeRune
      rw [if_pos hlt, UInt8.ofNat_toNat]
    have := unquote_hex t (getu4_byte a.toNat hlt)
      (by simp only [isSurrogate, Bool.and_eq_false_imp, decide_eq_true_eq]; omega)
    rw [henc] at this
    exact this
  · -- copied: none of the bytes that stop a literal
    rename_i hq _ _ _ _ _ hctl
    simp only [not_or] at hq hctl
    rw [List.singleton_append, unquote.eq_def]
    simp only [if_neg hq.1, if_neg hq.2, if_neg hctl.1, runeLen_one ha]

/-- A byte past ASCII neither ends a literal nor starts an escape. -/
theorem unquote_high {a : UInt8} (t : GoString) (ha : ¬ a < 0x80) :
    unquote (a :: t) =
      match runeLen a t, t with
      | 1, t => push [a] (unquote t)
      | 2, b :: t => push [a, b] (unquote t)
      | 3, b :: c :: t => push [a, b, c] (unquote t)
      | 4, b :: c :: d :: t => push [a, b, c, d] (unquote t)
      | _, t => push runeError (unquote t) := by
  have h1 : a ≠ 0x22 := by rintro rfl; exact ha (by decide)
  have h2 : a ≠ 0x5C := by rintro rfl; exact ha (by decide)
  have h3 : ¬ a < 0x20 := fun h => ha (UInt8.lt_trans h (by decide : (0x20 : UInt8) < 0x80))
  rw [unquote.eq_def]
  simp only [if_neg h1, if_neg h2, if_neg h3]
  rfl

/-- **A string literal denotes what was written into it**, made valid. -/
theorem unquote_escape (s rest : GoString) :
    unquote (escape s ++ 0x22 :: rest) = some (toValidUTF8 s, rest) := by
  induction s using runes_induct with
  | nil => exact unquote_quote rest
  | one a t ha ih =>
      simp only [escape, toValidUTF8, runeLen_one ha, List.append_assoc]
      rw [unquote_escapeByte _ ha, ih]
      rfl
  | two a b t ha h2 ih =>
      simp only [escape, toValidUTF8, runeLen_two _ ha h2, List.cons_append]
      rw [unquote_high _ ha]
      simp only [runeLen_two _ ha h2, ih]
      rfl
  | three a b c t ha h2 h3 ih =>
      simp only [escape, toValidUTF8, runeLen_three _ ha h2 h3, List.append_assoc]
      unfold escape3
      split
      · -- the two separators, written as escapes
        rename_i hsep
        obtain ⟨rfl, rfl, hc⟩ := hsep
        rcases hc with rfl | rfl
        · have := unquote_hex (escape t ++ 0x22 :: rest)
            (by decide : getu4 0x32 0x30 0x32 0x38 = some 0x2028) (by decide)
          rw [ih] at this
          exact this
        · have := unquote_hex (escape t ++ 0x22 :: rest)
            (by decide : getu4 0x32 0x30 0x32 0x39 = some 0x2029) (by decide)
          rw [ih] at this
          exact this
      · simp only [List.cons_append, List.nil_append]
        rw [unquote_high _ ha]
        simp only [runeLen_three _ ha h2 h3, ih]
        rfl
  | four a b c d t ha h2 h3 h4 ih =>
      simp only [escape, toValidUTF8, runeLen_four _ ha h2 h3 h4, List.cons_append]
      rw [unquote_high _ ha]
      simp only [runeLen_four _ ha h2 h3 h4, ih]
      rfl
  | bad a t ha h0 ih =>
      have hx := unquote_hex (escape t ++ 0x22 :: rest)
        (by decide : getu4 0x66 0x66 0x66 0x64 = some 0xFFFD) (by decide)
      rw [escape.eq_def, toValidUTF8.eq_def]
      simp only [h0]
      rw [ih] at hx
      exact hx

/-! ## Numbers -/

/-- A positive number is printed without a leading zero. -/
theorem formatUint_head_ne_zero {n : Nat} (hn : n ≠ 0) :
    ∃ c t, formatUint n = c :: t ∧ isDigit c = true ∧ c ≠ 0x30 := by
  have hne : Nat.digits 10 n ≠ [] := by simpa [Nat.digits_eq_nil_iff_eq_zero] using hn
  obtain ⟨l, d, hl⟩ := List.eq_nil_or_concat (Nat.digits 10 n) |>.resolve_left hne
  have hd0 : d ≠ 0 := by
    have h1 := Nat.getLast_digit_ne_zero 10 hn
    simpa [hl] using h1
  have hd10 : d < 10 := Nat.digits_lt_base (m := n) (by omega) (by rw [hl]; simp)
  have hdig : ∀ e, e < 10 → e ≠ 0 → digit e ≠ 0x30 := by decide
  refine ⟨digit d, l.reverse.map digit, ?_, (digit_facts d hd10).1, hdig d hd10 hd0⟩
  unfold formatUint
  rw [if_neg hn, hl]
  simp

theorem scanInt_formatUint (n : Nat) {c : UInt8} (rest : GoString) (hc : isDigit c = false) :
    scanInt (formatUint n ++ c :: rest) = some (formatUint n, c :: rest) := by
  by_cases hn : n = 0
  · subst hn
    rfl
  · obtain ⟨h, t, ht, hd, h0⟩ := formatUint_head_ne_zero hn
    have hall : ∀ x ∈ t, isDigit x = true := by
      intro x hx
      have := formatUint_all n
      rw [ht, List.all_cons, Bool.and_eq_true, List.all_eq_true] at this
      exact this.2 x hx
    rw [ht, List.cons_append, scanInt, if_neg h0, if_pos hd,
      List.takeWhile_append_of_pos hall, List.dropWhile_append_of_pos hall]
    simp [hc]

/-- A printed integer is scanned whole, up to the delimiter after it. -/
theorem scanNumber_formatInt (i : Int64) {c : UInt8} (rest : GoString)
    (hc : c = 0x2C ∨ c = 0x7D) :
    scanNumber (formatInt i ++ c :: rest) = some (formatInt i, c :: rest) := by
  have hcd : isDigit c = false := by rcases hc with rfl | rfl <;> rfl
  have hu : ∀ n, scanUnsigned (formatUint n ++ c :: rest) = some (formatUint n, c :: rest) := by
    intro n
    unfold scanUnsigned
    rw [scanInt_formatUint n rest hcd]
    rcases hc with rfl | rfl <;> simp [scanFrac, scanExp]
  unfold formatInt
  split
  · rw [List.cons_append, scanNumber, if_pos rfl, hu]
    rfl
  · obtain ⟨h, t, ht, _, h1, _⟩ := formatUint_head i.toInt.natAbs
    have := hu i.toInt.natAbs
    rw [ht, List.cons_append] at this ⊢
    rw [scanNumber, if_neg h1, this]

/-- The first character of a printed integer is a digit or a minus sign. -/
theorem formatInt_head (i : Int64) :
    ∃ c t, formatInt i = c :: t ∧ (isDigit c = true ∨ c = 0x2D) := by
  unfold formatInt
  split
  · exact ⟨_, _, rfl, Or.inr rfl⟩
  · obtain ⟨c, t, h, hd, _⟩ := formatUint_head i.toInt.natAbs
    exact ⟨c, t, h, Or.inl hd⟩

/-! ## Members and objects -/

/-- A value's text, read wherever a member of an object may stand. -/
def Reads (txt : GoString) (v : Json) : Prop :=
  ∀ (fuel depth : Nat) (c : UInt8) (rest : GoString), c = 0x2C ∨ c = 0x7D →
    parseValue (fuel + 1) depth (txt ++ c :: rest) = some (v, c :: rest)

theorem skipSpace_cons {c : UInt8} (t : GoString) (h : isJsonSpace c = false) :
    skipSpace (c :: t) = c :: t := by
  simp [skipSpace, h]

theorem expect_cons {c : UInt8} (t : GoString) (h : isJsonSpace c = false) :
    expect c (c :: t) = some t := by
  unfold expect
  rw [skipSpace_cons t h]
  simp

theorem expect_ne {c a : UInt8} (t : GoString) (h : isJsonSpace a = false) (hne : a ≠ c) :
    expect c (a :: t) = none := by
  unfold expect
  rw [skipSpace_cons t h]
  simp [hne]

theorem reads_quote (s : GoString) : Reads (quote s) (.str (toValidUTF8 s)) := by
  intro fuel depth c rest _
  unfold quote
  rw [List.cons_append, List.append_assoc, parseValue, skipSpace_cons _ (by rfl)]
  simp only [if_pos, List.singleton_append, unquote_escape]
  rfl

theorem reads_formatInt (i : Int64) : Reads (formatInt i) (.num (formatInt i)) := by
  intro fuel depth c rest hc
  have hscan := scanNumber_formatInt i rest hc
  obtain ⟨a, t, ht, ha⟩ := formatInt_head i
  rw [ht, List.cons_append] at hscan ⊢
  have hchar : ∀ a : UInt8, isDigit a = true ∨ a = 0x2D →
      isJsonSpace a = false ∧ a ≠ 0x22 ∧ a ≠ 0x7B ∧ a ≠ 0x5B ∧ a ≠ 0x74 ∧ a ≠ 0x66 ∧ a ≠ 0x6E := by
    intro a ha
    rcases ha with ha | rfl
    · unfold isDigit at ha
      simp only [Bool.and_eq_true, decide_eq_true_eq] at ha
      refine ⟨?_, ?_, ?_, ?_, ?_, ?_, ?_⟩
      · simp only [isJsonSpace, Bool.or_eq_false_iff, decide_eq_false_iff_not]
        refine ⟨⟨⟨?_, ?_⟩, ?_⟩, ?_⟩ <;> (rintro rfl; exact absurd ha (by decide))
      all_goals (rintro rfl; exact absurd ha (by decide))
    · decide
  obtain ⟨hsp, h1, h2, h3, h4, h5, h6⟩ := hchar a ha
  rw [parseValue, skipSpace_cons _ hsp]
  simp only [if_neg h1, if_neg h2, if_neg h3, if_neg h4, if_neg h5, if_neg h6, hscan]
  rfl

/-- What a `[]byte` field is written as. -/
def bytesValue (b : GoString) : Json := if b = [] then .null else .str (base64Encode b)

theorem reads_writeBytes (b : GoString) : Reads (writeBytes b) (bytesValue b) := by
  unfold writeBytes bytesValue
  split
  · intro fuel depth c rest _
    rw [parseValue.eq_def]
    rfl
  · have hascii : toValidUTF8 (base64Encode b) = base64Encode b :=
      toValidUTF8_of_valid (validUTF8_ascii fun c hc => (base64Encode_chars b c hc).2)
    have hq := reads_quote (base64Encode b)
    rwa [hascii] at hq

theorem decodeBytes_bytesValue (old b : GoString) : decodeBytes old (bytesValue b) = some b := by
  unfold bytesValue
  split
  · rename_i h
    rw [h]
    rfl
  · exact base64Decode_encode b

/-- One member, up to the delimiter after its value. -/
theorem parseMembers_member {k txt : GoString} {v : Json} (hv : Reads txt v)
    (fuel depth : Nat) {c : UInt8} (rest : GoString) (hc : c = 0x2C ∨ c = 0x7D) :
    parseMembers (fuel + 2) depth (quote k ++ 0x3A :: (txt ++ c :: rest))
      = (match expect 0x7D (c :: rest) with
        | some r => some ([(toValidUTF8 k, v)], r)
        | none => (do
          let s ← expect 0x2C (c :: rest)
          let (fs, r) ← parseMembers (fuel + 1) depth s
          some ((toValidUTF8 k, v) :: fs, r))) := by
  have hq : quote k ++ 0x3A :: (txt ++ c :: rest)
      = 0x22 :: (escape k ++ 0x22 :: 0x3A :: (txt ++ c :: rest)) := by
    simp [quote]
  rw [hq, parseMembers, expect_cons _ (by rfl)]
  simp only [Option.bind_eq_bind, Option.bind_some, unquote_escape]
  rewrite [expect_cons _ (by rfl), Option.bind_some, hv fuel depth c rest hc, Option.bind_some]
  rfl

/-- **The members of an object are read back in order.** -/
theorem parseMembers_writeMembers {fs : List (GoString × GoString)} {vs : List Json}
    (h : List.Forall₂ (fun f v => Reads f.2 v) fs vs) (hne : fs ≠ [])
    (fuel depth : Nat) (hfuel : fs.length < fuel) (rest : GoString) :
    parseMembers fuel depth (writeMembers fs ++ rest)
      = some ((fs.zip vs).map (fun p => (toValidUTF8 p.1.1, p.2)), rest) := by
  induction h generalizing fuel with
  | nil => exact absurd rfl hne
  | @cons f v fs vs hf hrest ih =>
      obtain ⟨k, txt⟩ := f
      obtain ⟨fuel, rfl⟩ : ∃ m, fuel = m + 2 := ⟨fuel - 2, by simp at hfuel; omega⟩
      -- the last member is followed by the brace, every other by a comma
      cases fs with
      | nil =>
          cases hrest
          simp only [writeMembers, List.append_assoc, List.cons_append, List.nil_append]
          rw [parseMembers_member hf fuel depth rest (Or.inr rfl), expect_cons _ (by rfl)]
          rfl
      | cons g fs =>
          have hrec := ih (by simp) (fuel + 1) (by simp at hfuel ⊢; omega)
          simp only [writeMembers, List.append_assoc, List.cons_append]
          rw [parseMembers_member hf fuel depth _ (Or.inl rfl),
            expect_ne _ (by rfl) (by decide), expect_cons _ (by rfl)]
          simp only [Option.bind_eq_bind, Option.bind_some, hrec]
          simp

theorem length_writeMembers (fs : List (GoString × GoString)) :
    fs.length ≤ (writeMembers fs).length := by
  induction fs using writeMembers.induct with
  | case1 => simp
  | case2 k v => simp [writeMembers, quote]
  | case3 k v fs hne ih =>
      rw [writeMembers.eq_3 k v fs hne]
      simp only [List.length_cons, List.length_append]
      omega

/-- **`Unmarshal` sees the members `Marshal` wrote.** -/
theorem parse_writeObject {fs : List (GoString × GoString)} {vs : List Json}
    (h : List.Forall₂ (fun f v => Reads f.2 v) fs vs) (hne : fs ≠ []) :
    parse (writeObject fs)
      = some (.obj ((fs.zip vs).map (fun p => (toValidUTF8 p.1.1, p.2)))) := by
  have hlen := length_writeMembers fs
  -- the reader looks for an empty object first
  have hhead : expect 0x7D (writeMembers fs) = none := by
    cases fs with
    | nil => exact absurd rfl hne
    | cons f fs =>
        obtain ⟨k, txt⟩ := f
        cases fs with
        | nil => exact expect_ne _ (by rfl) (by decide)
        | cons g fs => exact expect_ne _ (by rfl) (by decide)
  have hm := parseMembers_writeMembers h hne (writeMembers fs).length.succ 9999 (by omega) []
  rw [List.append_nil] at hm
  unfold parse writeObject maxNestingDepth
  rw [List.length_cons, parseValue, skipSpace_cons _ (by rfl)]
  simp only [if_neg (by decide : ¬ (0x7B : UInt8) = 0x22), if_pos, hhead]
  rw [if_neg (by decide), hm]
  rfl

/-- What is decoded from an object that was written: each member goes to its field, in order. -/
theorem decodeStruct_writeObject {σ : Type} (set : GoString → Json → σ → Option σ) (init : σ)
    {fs : List (GoString × GoString)} {vs : List Json}
    (h : List.Forall₂ (fun f v => Reads f.2 v) fs vs) (hne : fs ≠ []) :
    (parse (writeObject fs)).bind (decodeStruct set init)
      = (fs.zip vs).foldlM (fun s p => set (foldName (toValidUTF8 p.1.1)) p.2 s) init := by
  rw [parse_writeObject h hne, Option.bind_some, decodeStruct, List.foldlM_map]

/-! ## No control characters

Whatever is written stays on one line and holds no NUL: both are escaped inside
strings and occur nowhere else. -/

/-- No byte is an ASCII control character. -/
def Printable (s : GoString) : Prop := ∀ b ∈ s, 0x20 ≤ b

theorem Printable.notMem {s : GoString} (h : Printable s) {b : UInt8} (hb : b < 0x20) : b ∉ s :=
  fun hm => absurd (h b hm) (UInt8.not_le.mpr hb)

@[simp] theorem printable_nil : Printable [] := fun _ hb => absurd hb List.not_mem_nil

@[simp] theorem printable_cons {a : UInt8} {s : GoString} :
    Printable (a :: s) ↔ 0x20 ≤ a ∧ Printable s := List.forall_mem_cons

@[simp] theorem printable_append {s t : GoString} :
    Printable (s ++ t) ↔ Printable s ∧ Printable t := List.forall_mem_append

theorem printable_of_high {a : UInt8} (ha : ¬ a < 0x80) : 0x20 ≤ a :=
  UInt8.le_trans (by decide : (0x20 : UInt8) ≤ 0x80) (UInt8.not_lt.mp ha)

theorem isTail_printable {b : UInt8} (h : isTail b = true) : 0x20 ≤ b := by
  simp only [isTail, Bool.and_eq_true, decide_eq_true_eq] at h
  exact UInt8.le_trans (by decide : (0x20 : UInt8) ≤ 0x80) h.1

theorem printable_escapeByte (a : UInt8) : Printable (escapeByte a) := by
  have hall : ∀ n < 256, (escapeByte (UInt8.ofNat n)).all (0x20 ≤ ·) = true := by decide +kernel
  have ha := hall a.toNat a.toNat_lt
  rw [UInt8.ofNat_toNat, List.all_eq_true] at ha
  exact fun b hb => of_decide_eq_true (ha b hb)

theorem printable_escape (s : GoString) : Printable (escape s) := by
  induction s using runes_induct with
  | nil => exact printable_nil
  | one a t ha ih =>
      simp only [escape, runeLen_one ha]
      exact printable_append.mpr ⟨printable_escapeByte a, ih⟩
  | two a b t ha h2 ih =>
      have hb : isTail b = true := by simp only [rune2, Bool.and_eq_true] at h2; exact h2.2
      simp only [escape, runeLen_two _ ha h2]
      exact printable_cons.mpr ⟨printable_of_high ha, printable_cons.mpr ⟨isTail_printable hb, ih⟩⟩
  | three a b c t ha h2 h3 ih =>
      have hbc : isTail b = true ∧ isTail c = true := by
        simp only [rune3, Bool.and_eq_true] at h3
        exact ⟨h3.1.1.1.2, h3.1.1.2⟩
      simp only [escape, runeLen_three _ ha h2 h3]
      refine printable_append.mpr ⟨?_, ih⟩
      unfold escape3
      split
      · rename_i hsep
        rcases hsep.2.2 with rfl | rfl <;> simp <;> decide
      · simp [printable_of_high ha, isTail_printable hbc.1, isTail_printable hbc.2]
  | four a b c d t ha h2 h3 h4 ih =>
      have hbcd : isTail b = true ∧ isTail c = true ∧ isTail d = true := by
        simp only [rune4, Bool.and_eq_true] at h4
        exact ⟨h4.1.1.1.1.2, h4.1.1.1.2, h4.1.1.2⟩
      simp only [escape, runeLen_four _ ha h2 h3 h4]
      simp [printable_of_high ha, isTail_printable hbcd.1, isTail_printable hbcd.2.1,
        isTail_printable hbcd.2.2, ih]
  | bad a t _ h0 ih =>
      rw [escape.eq_def]
      simp only [h0]
      exact printable_append.mpr ⟨by simp, ih⟩

theorem printable_quote (s : GoString) : Printable (quote s) := by
  unfold quote
  simp [printable_escape]

theorem printable_writeBytes (b : GoString) : Printable (writeBytes b) := by
  unfold writeBytes
  split
  · unfold Printable
    decide +kernel
  · exact printable_quote _

theorem printable_formatInt (i : Int64) : Printable (formatInt i) := by
  have hd : ∀ d < 10, (0x20 : UInt8) ≤ digit d := by decide
  have hu : ∀ n, Printable (formatUint n) := by
    intro n b hb
    obtain ⟨d, hlt, rfl⟩ := formatUint_digits n b hb
    exact hd d hlt
  unfold formatInt
  split
  · exact printable_cons.mpr ⟨by decide, hu _⟩
  · exact hu _

/-- **An object is printable when the texts of its values are.** -/
theorem printable_writeObject {fs : List (GoString × GoString)}
    (h : ∀ f ∈ fs, Printable f.2) : Printable (writeObject fs) := by
  refine printable_cons.mpr ⟨by decide, ?_⟩
  induction fs using writeMembers.induct with
  | case1 => simp [writeMembers]
  | case2 k v =>
      have hv : Printable v := h _ List.mem_cons_self
      simp [writeMembers, printable_quote, hv]
  | case3 k v fs hne ih =>
      have hv : Printable v := h _ List.mem_cons_self
      rw [writeMembers.eq_3 k v fs hne]
      simp [printable_quote, hv, ih fun f hf => h f (List.mem_cons_of_mem _ hf)]

end Gsnet.Go
