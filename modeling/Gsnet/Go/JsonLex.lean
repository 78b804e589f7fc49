import Gsnet.Go.JsonProof

/-!
# Tokens, and how they are compacted

`Marshal` does not re-encode a `json.RawMessage`: it copies the text through
`appendCompact`, which drops the white space between tokens and escapes what
HTML would trip over. This module has that loop, and for the two tokens with an
inner structure, strings and numbers, which texts the reader accepts: it accepts
them again wherever they stand, and a compacted string is still one.
-/

namespace Gsnet.Go

/-- A fact about every byte, checked at its 256 values. -/
theorem forall_byte {P : UInt8 → Prop} (h : ∀ m < 256, P (UInt8.ofNat m)) (c : UInt8) : P c := by
  have hc := h c.toNat c.toNat_lt
  rwa [UInt8.ofNat_toNat] at hc

/-! ## Compaction -/

/-- Where the scanner stands, as far as `appendCompact` can tell. -/
inductive ScanState where
  | between
  | inString
  | escaped
  deriving DecidableEq

def ScanState.next (st : ScanState) (c : UInt8) : ScanState :=
  match st with
  | .between => if c = 0x22 then .inString else .between
  | .inString => if c = 0x5C then .escaped else if c = 0x22 then .between else .inString
  | .escaped => .inString

/-- One byte: three are escaped wherever they stand, white space is dropped between tokens. -/
def compactByte (st : ScanState) (c : UInt8) : GoString :=
  if c = 0x3C ∨ c = 0x3E ∨ c = 0x26 then
    [0x5C, 0x75, 0x30, 0x30, hexDigit (c.toNat / 16), hexDigit (c.toNat % 16)]
  else if st = .between ∧ isJsonSpace c then []
  else [c]

/-- The loop of `appendCompact` with `escape` set, from a state of the scanner on. -/
def compactFrom : ScanState → GoString → GoString
  | _, [] => []
  | st, c :: t =>
    match t with
    | a :: b :: u =>
      -- U+2028 and U+2029
      if c = 0xE2 ∧ a = 0x80 ∧ (b = 0xA8 ∨ b = 0xA9) then
        [0x5C, 0x75, 0x32, 0x30, 0x32, hexDigit (b.toNat % 16)] ++ compactFrom (st.next c) u
      else compactByte st c ++ compactFrom (st.next c) (a :: b :: u)
    | t => compactByte st c ++ compactFrom (st.next c) t

/-- `appendCompact`: an error unless the source is one value. -/
def compact (src : GoString) : Option GoString :=
  if (parse src).isSome then some (compactFrom .between src) else none

theorem compactFrom_cons {st : ScanState} {c : UInt8} (t : GoString) (hc : c ≠ 0xE2) :
    compactFrom st (c :: t) = compactByte st c ++ compactFrom (st.next c) t := by
  rw [compactFrom.eq_def]
  split
  · rename_i heq
    cases heq
  · rename_i heq
    cases heq
    split
    · rw [if_neg fun h => hc h.1]
    · rfl

theorem compactFrom_separator {st : ScanState} {b : UInt8} (t : GoString)
    (hb : b = 0xA8 ∨ b = 0xA9) :
    compactFrom st (0xE2 :: 0x80 :: b :: t)
      = [0x5C, 0x75, 0x32, 0x30, 0x32, hexDigit (b.toNat % 16)]
        ++ compactFrom (st.next 0xE2) t := by
  rw [compactFrom]
  exact if_pos ⟨rfl, rfl, hb⟩

theorem compactFrom_high {st : ScanState} {c : UInt8} {t : GoString}
    (h : ∀ b u, c = 0xE2 → t = 0x80 :: b :: u → ¬ (b = 0xA8 ∨ b = 0xA9)) :
    compactFrom st (c :: t) = compactByte st c ++ compactFrom (st.next c) t := by
  rw [compactFrom.eq_def]
  split
  · rename_i heq
    cases heq
  · rename_i heq
    cases heq
    split
    · rw [if_neg]
      rintro ⟨hc, rfl, hb⟩
      exact h _ _ hc rfl hb
    · rfl

/-! ### Texts that are compact already -/

/-- U+2028 or U+2029 begins here. -/
def startsSeparator (c : UInt8) : GoString → Bool
  | a :: b :: _ => c = 0xE2 && a = 0x80 && (b = 0xA8 || b = 0xA9)
  | _ => false

/-- No white space between tokens, and nothing that would be escaped. -/
def tight : ScanState → GoString → Bool
  | _, [] => true
  | st, c :: t =>
    !(c = 0x3C || c = 0x3E || c = 0x26) && !startsSeparator c t
      && !(st = .between && isJsonSpace c) && tight (st.next c) t

/-- Between tokens white space is dropped, so what comes out does not begin with any. -/
theorem compactFrom_head {t u : GoString} {c : UInt8} (h : compactFrom .between t = c :: u) :
    isJsonSpace c = false := by
  induction t with
  | nil => cases h
  | cons a t ih =>
      by_cases hsep : startsSeparator a t = true
      · unfold startsSeparator at hsep
        split at hsep
        · simp only [Bool.and_eq_true, Bool.or_eq_true, decide_eq_true_eq] at hsep
          obtain ⟨⟨rfl, rfl⟩, hb⟩ := hsep
          rw [compactFrom_separator _ hb] at h
          cases h
          rfl
        · cases hsep
      · rw [compactFrom_high (by
          rintro b v rfl rfl hb
          exact hsep (by simpa [startsSeparator] using hb))] at h
        unfold compactByte at h
        split at h
        · cases h
          rfl
        split at h
        · rename_i hsp
          have hnext : ScanState.next .between a = .between :=
            if_neg (by rintro rfl; exact absurd hsp.2 (by decide))
          rw [hnext] at h
          exact ih h
        · rename_i hsp
          cases h
          simpa using hsp

/-- **Compaction leaves exactly these texts as they are.** -/
theorem compactFrom_eq_self_iff {st : ScanState} {s : GoString} :
    compactFrom st s = s ↔ tight st s = true := by
  induction s generalizing st with
  | nil => simp [compactFrom, tight]
  | cons c t ih =>
      by_cases hsep : startsSeparator c t = true
      · -- an escape comes out, and it begins with a backslash
        have hne : compactFrom st (c :: t) ≠ c :: t := by
          unfold startsSeparator at hsep
          split at hsep
          · simp only [Bool.and_eq_true, Bool.or_eq_true, decide_eq_true_eq] at hsep
            obtain ⟨⟨rfl, rfl⟩, hb⟩ := hsep
            rw [compactFrom_separator _ hb]
            simp
          · cases hsep
        simp [tight, hsep, hne]
      · rw [compactFrom_high (by
          rintro b v rfl rfl hb
          exact hsep (by simpa [startsSeparator] using hb))]
        unfold compactByte
        split
        · rename_i hesc
          have : tight st (c :: t) = false := by
            rcases hesc with rfl | rfl | rfl <;> simp [tight]
          rw [this]
          rcases hesc with rfl | rfl | rfl <;> simp
        · rename_i hesc
          split
          · rename_i hsp
            have : tight st (c :: t) = false := by simp [tight, hsp]
            rw [this, List.nil_append]
            refine iff_of_false (fun h => ?_) (by simp)
            obtain ⟨rfl, hc⟩ := hsp
            have hnext : ScanState.next .between c = .between :=
              if_neg (by rintro rfl; exact absurd hc (by decide))
            rw [hnext] at h
            exact absurd (compactFrom_head h) (by simp [hc])
          · rename_i hsp
            rw [List.singleton_append, List.cons.injEq, ih]
            have hkeep : (st = .between && isJsonSpace c) = false := by
              simpa using hsp
            simp only [not_or] at hesc
            simp [tight, hesc, hsep, hkeep]

/-! ## Bodies of string literals -/

/-- What may stand between the quotes. -/
inductive StringBody : GoString → Prop where
  | nil : StringBody []
  | byte {a : UInt8} {t : GoString} : a ≠ 0x22 → a ≠ 0x5C → ¬ a < 0x20 → StringBody t →
      StringBody (a :: t)
  | escape {e c : UInt8} {t : GoString} : unescape e = some c → StringBody t →
      StringBody (0x5C :: e :: t)
  | hex {h₁ h₂ h₃ h₄ : UInt8} {r : Nat} {t : GoString} : getu4 h₁ h₂ h₃ h₄ = some r →
      StringBody t → StringBody (0x5C :: 0x75 :: h₁ :: h₂ :: h₃ :: h₄ :: t)

theorem StringBody.high {a : UInt8} {t : GoString} (ha : ¬ a < 0x80) (ht : StringBody t) :
    StringBody (a :: t) := by
  refine .byte ?_ ?_ ?_ ht
  · rintro rfl; exact ha (by decide)
  · rintro rfl; exact ha (by decide)
  · exact fun h => ha (UInt8.lt_trans h (by decide : (0x20 : UInt8) < 0x80))

theorem high_of_isTail {b : UInt8} (h : isTail b = true) : ¬ b < 0x80 := by
  simp only [isTail, Bool.and_eq_true, decide_eq_true_eq] at h
  exact UInt8.not_lt.mpr h.1

/-- A tail byte at the head of a body is a byte of it. -/
theorem StringBody.of_high {a : UInt8} {t : GoString} (ha : ¬ a < 0x80)
    (h : StringBody (a :: t)) : StringBody t := by
  cases h with
  | byte _ _ _ ht => exact ht
  | escape _ _ => exact absurd (by decide) ha
  | hex _ _ => exact absurd (by decide) ha

/-- A byte outside ASCII that follows lies inside the body: it is no quote. -/
theorem StringBody.of_append {t r u : GoString} {b : UInt8} (ht : StringBody t)
    (h : t ++ 0x22 :: r = b :: u) (hb : ¬ b < 0x80) :
    ∃ t', StringBody t' ∧ t = b :: t' ∧ u = t' ++ 0x22 :: r := by
  cases t with
  | nil =>
      obtain ⟨rfl, -⟩ := List.cons.inj h
      exact absurd (by decide) hb
  | cons a t =>
      obtain ⟨rfl, rfl⟩ := List.cons.inj h
      exact ⟨t, ht.of_high hb, rfl, rfl⟩

/-- How a byte outside ASCII begins a rune, or that it begins none. -/
theorem runeLen_cases (a : UInt8) (t : GoString) (ha : ¬ a < 0x80) :
    (∃ b u, t = b :: u ∧ rune2 a b = true)
      ∨ (∃ b c u, t = b :: c :: u ∧ ¬ rune2 a b = true ∧ rune3 a b c = true)
      ∨ (∃ b c d u, t = b :: c :: d :: u ∧ ¬ rune2 a b = true ∧ ¬ rune3 a b c = true
          ∧ rune4 a b c d = true)
      ∨ runeLen a t = 0 := by
  have h : ∀ s : GoString, s = a :: t → (∃ b u, t = b :: u ∧ rune2 a b = true)
      ∨ (∃ b c u, t = b :: c :: u ∧ ¬ rune2 a b = true ∧ rune3 a b c = true)
      ∨ (∃ b c d u, t = b :: c :: d :: u ∧ ¬ rune2 a b = true ∧ ¬ rune3 a b c = true
          ∧ rune4 a b c d = true)
      ∨ runeLen a t = 0 := by
    intro s
    induction s using runes_induct with
    | nil => exact fun h => absurd h (by simp)
    | one b u hb _ => rintro ⟨⟩; exact absurd hb ha
    | two b c u _ h2 _ => rintro ⟨⟩; exact .inl ⟨_, _, rfl, h2⟩
    | three b c d u _ h2 h3 _ => rintro ⟨⟩; exact .inr (.inl ⟨_, _, _, rfl, h2, h3⟩)
    | four b c d e u _ h2 h3 h4 _ =>
        rintro ⟨⟩; exact .inr (.inr (.inl ⟨_, _, _, _, rfl, h2, h3, h4⟩))
    | bad b u _ h0 _ => rintro ⟨⟩; exact .inr (.inr (.inr h0))
  exact h _ rfl

theorem tails_of_rune2 {a b : UInt8} (h : rune2 a b = true) : isTail b = true := by
  simp only [rune2, Bool.and_eq_true] at h
  exact h.2

theorem tails_of_rune3 {a b c : UInt8} (h : rune3 a b c = true) :
    isTail b = true ∧ isTail c = true := by
  simp only [rune3, Bool.and_eq_true] at h
  exact ⟨h.1.1.1.2, h.1.1.2⟩

theorem tails_of_rune4 {a b c d : UInt8} (h : rune4 a b c d = true) :
    isTail b = true ∧ isTail c = true ∧ isTail d = true := by
  simp only [rune4, Bool.and_eq_true] at h
  exact ⟨h.1.1.1.1.2, h.1.1.1.2, h.1.1.2⟩

/-! ### What `unquote` accepts -/

theorem push_eq_some {bs s r : GoString} {o : Option (GoString × GoString)}
    (h : push bs o = some (s, r)) : ∃ s', o = some (s', r) ∧ s = bs ++ s' := by
  obtain ⟨⟨s', r'⟩, ho, heq⟩ := Option.map_eq_some_iff.mp h
  cases heq
  exact ⟨s', ho, rfl⟩

/-- A surrogate's other half is one more escape. -/
theorem surrogateTail_eq_some {r dec : Nat} {t : GoString} (h : surrogateTail r t = some dec) :
    ∃ g₁ g₂ g₃ g₄ u q, t = 0x5C :: 0x75 :: g₁ :: g₂ :: g₃ :: g₄ :: u
      ∧ getu4 g₁ g₂ g₃ g₄ = some q ∧ decodeSurrogates r q = some dec := by
  unfold surrogateTail at h
  split at h
  · rename_i a b g₁ g₂ g₃ g₄ u
    split at h
    · rename_i hab
      obtain ⟨rfl, rfl⟩ := hab
      obtain ⟨q, hq, hd⟩ := Option.bind_eq_some_iff.mp h
      exact ⟨g₁, g₂, g₃, g₄, u, q, rfl, hq, hd⟩
    · cases h
  · cases h

theorem hexVal_lt {c : UInt8} {n : Nat} (h : hexVal c = some n) : n < 16 := by
  have hall := @forall_byte (fun c => ∀ n ∈ hexVal c, n < 16) (by decide +kernel)
  exact hall c n h

theorem getu4_eq_some {a b c d : UInt8} {q : Nat} (h : getu4 a b c d = some q) :
    (∃ i j k l, hexVal a = some i ∧ hexVal b = some j ∧ hexVal c = some k ∧ hexVal d = some l)
      ∧ q < 0x10000 := by
  unfold getu4 at h
  obtain ⟨i, hi, h⟩ := Option.bind_eq_some_iff.mp h
  obtain ⟨j, hj, h⟩ := Option.bind_eq_some_iff.mp h
  obtain ⟨k, hk, h⟩ := Option.bind_eq_some_iff.mp h
  obtain ⟨l, hl, h⟩ := Option.bind_eq_some_iff.mp h
  cases h
  have h1 := hexVal_lt hi
  have h2 := hexVal_lt hj
  have h3 := hexVal_lt hk
  have h4 := hexVal_lt hl
  exact ⟨⟨i, j, k, l, hi, hj, hk, hl⟩, by omega⟩

/-- A code point, as opposed to a surrogate or a number past the last one. -/
def IsCodePoint (r : Nat) : Prop := isSurrogate r = false ∧ r < 0x110000

theorem isCodePoint_of_surrogates {r q dec : Nat} (h : decodeSurrogates r q = some dec) :
    IsCodePoint dec := by
  unfold decodeSurrogates at h
  split at h
  · cases h
    refine ⟨?_, by omega⟩
    simp only [isSurrogate, Bool.and_eq_false_iff, decide_eq_false_iff_not]
    right
    omega
  · cases h

/-- A `\u` escape is one rune, on its own or with the escape after it. -/
theorem unquote_hex_cases {h₁ h₂ h₃ h₄ : UInt8} {q : Nat} (t : GoString)
    (hq : getu4 h₁ h₂ h₃ h₄ = some q) :
    (∃ r, IsCodePoint r
        ∧ unquote (0x5C :: 0x75 :: h₁ :: h₂ :: h₃ :: h₄ :: t) = push (encodeRune r) (unquote t))
      ∨ (∃ g₁ g₂ g₃ g₄ u r q', t = 0x5C :: 0x75 :: g₁ :: g₂ :: g₃ :: g₄ :: u
        ∧ getu4 g₁ g₂ g₃ g₄ = some q' ∧ IsCodePoint r
        ∧ unquote (0x5C :: 0x75 :: h₁ :: h₂ :: h₃ :: h₄ :: t)
          = push (encodeRune r) (unquote u)) := by
  cases hs : isSurrogate q with
  | false => exact .inl ⟨q, ⟨hs, by have := (getu4_eq_some hq).2; omega⟩, unquote_hex t hq hs⟩
  | true =>
      cases hdec : surrogateTail q t with
      | none =>
          refine .inl ⟨0xFFFD, ⟨by decide, by decide⟩, ?_⟩
          rw [unquote.eq_def]
          simp only [if_neg (by decide : ¬ (0x5C : UInt8) = 0x22), if_pos, hq, hs, hdec]
          rfl
      | some dec =>
          obtain ⟨g₁, g₂, g₃, g₄, u, q', rfl, hq', hd⟩ := surrogateTail_eq_some hdec
          refine .inr ⟨g₁, g₂, g₃, g₄, u, dec, q', rfl, hq', isCodePoint_of_surrogates hd, ?_⟩
          rw [unquote.eq_def]
          simp only [if_neg (by decide : ¬ (0x5C : UInt8) = 0x22), if_pos, hq, hs, hdec]

/-- **Every body is read to its closing quote**, whatever follows. -/
theorem StringBody.unquote {body : GoString} (h : StringBody body) (r : GoString) :
    ∃ s, Go.unquote (body ++ 0x22 :: r) = some (s, r) := by
  -- on the length: a rune or a pair of surrogates takes several bytes at once
  induction hn : body.length using Nat.strongRecOn generalizing body with
  | ind n ih =>
    subst hn
    have push_some : ∀ (bs : GoString) {o : Option (GoString × GoString)},
        (∃ s, o = some (s, r)) → ∃ s, push bs o = some (s, r) := by
      rintro bs _ ⟨s, rfl⟩
      exact ⟨bs ++ s, rfl⟩
    cases h with
    | nil => exact ⟨[], unquote_quote r⟩
    | @escape e c t he ht =>
        have hu : e ≠ 0x75 := by rintro rfl; cases he
        rw [List.cons_append, List.cons_append, unquote_escaped _ he hu]
        exact push_some _ (ih _ (by simp) ht rfl)
    | @hex h₁ h₂ h₃ h₄ q t hq ht =>
        simp only [List.cons_append]
        rcases unquote_hex_cases (t ++ 0x22 :: r) hq with
          ⟨x, _, hx⟩ | ⟨g₁, g₂, g₃, g₄, u, x, q', htu, _, _, hx⟩
        · rw [hx]
          exact push_some _ (ih _ (by simp; omega) ht rfl)
        · -- the second half lies inside the body: its first byte is no quote
          rw [hx]
          cases ht with
          | nil => exact absurd htu (by simp)
          | byte _ hb _ _ => exact absurd (List.cons.inj htu).1 hb
          | @escape e c t he ht =>
              simp only [List.cons_append, List.cons.injEq] at htu
              rw [htu.2.1] at he
              cases he
          | @hex k₁ k₂ k₃ k₄ q'' t hk ht =>
              simp only [List.cons_append, List.cons.injEq, true_and] at htu
              rw [← htu.2.2.2.2]
              exact push_some _ (ih _ (by simp; omega) ht rfl)
    | @byte a t h22 h5c h20 ht =>
        rw [List.cons_append]
        by_cases ha : a < 0x80
        · have hstep : Go.unquote (a :: (t ++ 0x22 :: r))
              = push [a] (Go.unquote (t ++ 0x22 :: r)) := by
            rw [unquote.eq_def]
            simp only [if_neg h22, if_neg h5c, if_neg h20, runeLen_one ha]
          rw [hstep]
          exact push_some _ (ih _ (by simp) ht rfl)
        · rw [unquote_high _ ha]
          -- the tails of a rune are no quotes, so they lie inside the body too
          rcases runeLen_cases a (t ++ 0x22 :: r) ha with
            ⟨b, u, htu, h2⟩ | ⟨b, c, u, htu, h2, h3⟩ | ⟨b, c, d, u, htu, h2, h3, h4⟩ | h0
          · obtain ⟨t₁, ht₁, rfl, rfl⟩ := ht.of_append htu (high_of_isTail (tails_of_rune2 h2))
            simp only [List.cons_append, runeLen_two _ ha h2]
            exact push_some _ (ih _ (by simp) ht₁ rfl)
          · obtain ⟨hb, hc⟩ := tails_of_rune3 h3
            obtain ⟨t₁, ht₁, rfl, htu₁⟩ := ht.of_append htu (high_of_isTail hb)
            obtain ⟨t₂, ht₂, rfl, rfl⟩ := ht₁.of_append htu₁.symm (high_of_isTail hc)
            simp only [List.cons_append, runeLen_three _ ha h2 h3]
            exact push_some _ (ih _ (by simp; omega) ht₂ rfl)
          · obtain ⟨hb, hc, hd⟩ := tails_of_rune4 h4
            obtain ⟨t₁, ht₁, rfl, htu₁⟩ := ht.of_append htu (high_of_isTail hb)
            obtain ⟨t₂, ht₂, rfl, htu₂⟩ := ht₁.of_append htu₁.symm (high_of_isTail hc)
            obtain ⟨t₃, ht₃, rfl, rfl⟩ := ht₂.of_append htu₂.symm (high_of_isTail hd)
            simp only [List.cons_append, runeLen_four _ ha h2 h3 h4]
            exact push_some _ (ih _ (by simp; omega) ht₃ rfl)
          · simp only [h0]
            exact push_some _ (ih _ (by simp) ht rfl)

/-! ### What it denotes -/

/-- Bytes that are whole runes: putting them in front of a string does not change its validity. -/
def WholeRunes (bs : GoString) : Prop := ∀ s, validUTF8 (bs ++ s) = validUTF8 s

theorem wholeRunes_ascii {a : UInt8} (ha : a < 0x80) : WholeRunes [a] := by
  intro s
  rw [List.singleton_append, validUTF8.eq_def]
  simp only [runeLen_one ha]

theorem wholeRunes_two {a b : UInt8} (ha : ¬ a < 0x80) (h2 : rune2 a b = true) :
    WholeRunes [a, b] := by
  intro s
  simp only [List.cons_append, List.nil_append]
  rw [validUTF8.eq_def]
  simp only [runeLen_two s ha h2]

theorem wholeRunes_three {a b c : UInt8} (ha : ¬ a < 0x80) (h2 : ¬ rune2 a b = true)
    (h3 : rune3 a b c = true) : WholeRunes [a, b, c] := by
  intro s
  simp only [List.cons_append, List.nil_append]
  rw [validUTF8.eq_def]
  simp only [runeLen_three s ha h2 h3]

theorem wholeRunes_four {a b c d : UInt8} (ha : ¬ a < 0x80) (h2 : ¬ rune2 a b = true)
    (h3 : ¬ rune3 a b c = true) (h4 : rune4 a b c d = true) : WholeRunes [a, b, c, d] := by
  intro s
  simp only [List.cons_append, List.nil_append]
  rw [validUTF8.eq_def]
  simp only [runeLen_four s ha h2 h3 h4]

theorem wholeRunes_encodeRune {r : Nat} (h : IsCodePoint r) : WholeRunes (encodeRune r) := by
  obtain ⟨hs, hlt⟩ := h
  have hs : r < 0xD800 ∨ 0xE000 ≤ r := by
    simp only [isSurrogate, Bool.and_eq_false_iff, decide_eq_false_iff_not] at hs
    omega
  unfold encodeRune
  split
  · refine wholeRunes_ascii ?_
    simp [UInt8.lt_iff_toNat_lt]
    omega
  split
  · refine wholeRunes_two ?_ ?_
    · simp [UInt8.lt_iff_toNat_lt]
      omega
    · simp [rune2, isTail, UInt8.le_iff_toNat_le]
      omega
  split
  · refine wholeRunes_three ?_ ?_ ?_
    · simp [UInt8.lt_iff_toNat_lt]
      omega
    · simp [rune2, isTail, UInt8.le_iff_toNat_le]
      omega
    · simp [rune3, isTail, UInt8.le_iff_toNat_le, ← UInt8.toNat_inj]
      omega
  · refine wholeRunes_four ?_ ?_ ?_ ?_
    · simp [UInt8.lt_iff_toNat_lt]
      omega
    · simp [rune2, isTail, UInt8.le_iff_toNat_le]
      omega
    · simp [rune3, isTail, UInt8.le_iff_toNat_le, ← UInt8.toNat_inj]
      omega
    · simp [rune4, isTail, UInt8.le_iff_toNat_le, ← UInt8.toNat_inj]
      omega

theorem WholeRunes.valid {bs s : GoString} (h : WholeRunes bs) (hs : validUTF8 s = true) :
    validUTF8 (bs ++ s) = true := (h s).trans hs

theorem unescape_ascii {e c : UInt8} (h : unescape e = some c) : c < 0x80 := by
  have hall := @forall_byte (fun e => (unescape e).all (· < 0x80) = true) (by decide +kernel)
  have he := hall e
  rw [h] at he
  exact of_decide_eq_true he

/-- **What is accepted is a body and its quote, and what it denotes is valid.** -/
theorem unquote_eq_some {t s r : GoString} (h : unquote t = some (s, r)) :
    validUTF8 s = true ∧ ∃ body, StringBody body ∧ t = body ++ 0x22 :: r := by
  induction hn : t.length using Nat.strongRecOn generalizing t s with
  | ind n ih =>
    subst hn
    -- one step: whole runes in front of what the rest denotes
    have step : ∀ (chunk : GoString) {bs u : GoString}, WholeRunes bs →
        (∀ b, StringBody b → StringBody (chunk ++ b)) → t = chunk ++ u → u.length < t.length →
        push bs (unquote u) = some (s, r) →
        validUTF8 s = true ∧ ∃ body, StringBody body ∧ t = body ++ 0x22 :: r := by
      intro chunk bs u hbs hchunk htu hlt hp
      obtain ⟨s', hs', rfl⟩ := push_eq_some hp
      obtain ⟨hv, body, hbody, rfl⟩ := ih _ hlt hs' rfl
      exact ⟨hbs.valid hv, chunk ++ body, hchunk body hbody, by rw [htu, List.append_assoc]⟩
    cases t with
    | nil => cases h
    | cons a t =>
      by_cases h22 : a = 0x22
      · subst h22
        rw [unquote_quote] at h
        cases h
        exact ⟨rfl, [], .nil, rfl⟩
      by_cases h5c : a = 0x5C
      · subst h5c
        cases t with
        | nil => cases h
        | cons e t =>
          by_cases hu : e = 0x75
          · subst hu
            have hfour : ∃ h₁ h₂ h₃ h₄ u q, t = h₁ :: h₂ :: h₃ :: h₄ :: u
                ∧ getu4 h₁ h₂ h₃ h₄ = some q := by
              rw [unquote.eq_def] at h
              simp only [if_neg (by decide : ¬ (0x5C : UInt8) = 0x22), if_pos] at h
              split at h
              · rename_i h₁ h₂ h₃ h₄ u
                split at h
                · cases h
                · exact ⟨h₁, h₂, h₃, h₄, u, _, rfl, by assumption⟩
              · cases h
            obtain ⟨h₁, h₂, h₃, h₄, u, q, rfl, hq⟩ := hfour
            rcases unquote_hex_cases u hq with
              ⟨x, hx, heq⟩ | ⟨g₁, g₂, g₃, g₄, v, x, q', rfl, hq', hx, heq⟩
            · rw [heq] at h
              exact step [0x5C, 0x75, h₁, h₂, h₃, h₄] (wholeRunes_encodeRune hx)
                (fun b hb => .hex hq hb) rfl (by simp; omega) h
            · rw [heq] at h
              exact step [0x5C, 0x75, h₁, h₂, h₃, h₄, 0x5C, 0x75, g₁, g₂, g₃, g₄]
                (wholeRunes_encodeRune hx) (fun b hb => .hex hq (.hex hq' hb)) rfl
                (by simp; omega) h
          · cases he : unescape e with
            | none =>
                rw [unquote.eq_def] at h
                simp [hu, he] at h
            | some c =>
                rw [unquote_escaped t he hu] at h
                exact step [0x5C, e] (wholeRunes_ascii (unescape_ascii he))
                  (fun b hb => .escape he hb) rfl (by simp) h
      by_cases h20 : a < 0x20
      · rw [unquote.eq_def] at h
        simp [h22, h5c, h20] at h
      by_cases ha : a < 0x80
      · have hstep : unquote (a :: t) = push [a] (unquote t) := by
          rw [unquote.eq_def]
          simp only [if_neg h22, if_neg h5c, if_neg h20, runeLen_one ha]
        rw [hstep] at h
        exact step [a] (wholeRunes_ascii ha) (fun b hb => .byte h22 h5c h20 hb) rfl
          (by simp) h
      · rw [unquote_high _ ha] at h
        rcases runeLen_cases a t ha with
          ⟨b, u, rfl, h2⟩ | ⟨b, c, u, rfl, h2, h3⟩ | ⟨b, c, d, u, rfl, h2, h3, h4⟩ | h0
        · have hb := high_of_isTail (tails_of_rune2 h2)
          simp only [runeLen_two _ ha h2] at h
          exact step [a, b] (wholeRunes_two ha h2) (fun x hx => .high ha (.high hb hx))
            rfl (by simp) h
        · obtain ⟨hb, hc⟩ := tails_of_rune3 h3
          simp only [runeLen_three _ ha h2 h3] at h
          exact step [a, b, c] (wholeRunes_three ha h2 h3)
            (fun x hx => .high ha (.high (high_of_isTail hb) (.high (high_of_isTail hc) hx)))
            rfl (by simp; omega) h
        · obtain ⟨hb, hc, hd⟩ := tails_of_rune4 h4
          simp only [runeLen_four _ ha h2 h3 h4] at h
          exact step [a, b, c, d] (wholeRunes_four ha h2 h3 h4)
            (fun x hx => .high ha (.high (high_of_isTail hb) (.high (high_of_isTail hc)
              (.high (high_of_isTail hd) hx)))) rfl (by simp; omega) h
        · simp only [h0] at h
          exact step [a] (wholeRunes_encodeRune (r := 0xFFFD) ⟨by decide, by decide⟩)
            (fun x hx => .high ha hx) rfl (by simp) h

/-! ### Compacting a body -/

theorem compactFrom_inString {c : UInt8} (t : GoString) (h22 : c ≠ 0x22) (h5c : c ≠ 0x5C)
    (hesc : ¬ (c = 0x3C ∨ c = 0x3E ∨ c = 0x26))
    (hsep : ∀ b u, c = 0xE2 → t = 0x80 :: b :: u → ¬ (b = 0xA8 ∨ b = 0xA9)) :
    compactFrom .inString (c :: t) = c :: compactFrom .inString t := by
  rw [compactFrom_high hsep, compactByte, if_neg hesc, if_neg (by simp)]
  simp only [ScanState.next, if_neg h22, if_neg h5c]
  rfl

theorem compactFrom_inString_hex {c : UInt8} {n : Nat} (t : GoString) (h : hexVal c = some n) :
    compactFrom .inString (c :: t) = c :: compactFrom .inString t := by
  have hall := @forall_byte (fun c => (hexVal c).isSome → c ≠ 0x22 ∧ c ≠ 0x5C
    ∧ ¬ (c = 0x3C ∨ c = 0x3E ∨ c = 0x26) ∧ c ≠ 0xE2) (by decide +kernel)
  obtain ⟨h22, h5c, hesc, he2⟩ := hall c (by rw [h]; rfl)
  exact compactFrom_inString t h22 h5c hesc fun _ _ h => absurd h he2

theorem printable_of_hexVal {c : UInt8} {n : Nat} (h : hexVal c = some n) : 0x20 ≤ c := by
  have hall := @forall_byte (fun c => (hexVal c).isSome → 0x20 ≤ c) (by decide +kernel)
  exact hall c (by rw [h]; rfl)

/-- **A compacted body is a body**, on one line. -/
theorem StringBody.compact {body : GoString} (h : StringBody body) :
    ∃ cb, StringBody cb ∧ Printable cb ∧ ∀ t,
      compactFrom .inString (body ++ 0x22 :: t) = cb ++ 0x22 :: compactFrom .between t := by
  -- on the length: the two separators are three bytes each
  induction hn : body.length using Nat.strongRecOn generalizing body with
  | ind n ih =>
    subst hn
    cases h with
    | nil =>
        refine ⟨[], .nil, printable_nil, fun t => ?_⟩
        rw [List.nil_append, compactFrom_cons _ (by decide)]
        rfl
    | @escape e c t he ht =>
        obtain ⟨cb, hcb, hp, heq⟩ := ih _ (by simp) ht rfl
        have hall := @forall_byte (fun e => (unescape e).isSome → 0x20 ≤ e ∧ e ≠ 0xE2
          ∧ compactByte .escaped e = [e]) (by decide +kernel)
        obtain ⟨h20, he2, hb⟩ := hall e (by rw [he]; rfl)
        refine ⟨0x5C :: e :: cb, .escape he hcb, by simp [h20, hp], fun t => ?_⟩
        rw [List.cons_append, List.cons_append, compactFrom_cons _ (by decide)]
        refine congrArg (0x5C :: ·) ?_
        refine (compactFrom_cons _ he2).trans ?_
        show compactByte .escaped e ++ compactFrom .inString _ = _
        rw [hb]
        exact congrArg (e :: ·) (heq t)
    | @hex h₁ h₂ h₃ h₄ q t hq ht =>
        obtain ⟨cb, hcb, hp, heq⟩ := ih _ (by simp; omega) ht rfl
        obtain ⟨⟨i, j, k, l, hi, hj, hk, hl⟩, -⟩ := getu4_eq_some hq
        refine ⟨0x5C :: 0x75 :: h₁ :: h₂ :: h₃ :: h₄ :: cb, .hex hq hcb, ?_, fun t => ?_⟩
        · simp [hp, printable_of_hexVal hi, printable_of_hexVal hj, printable_of_hexVal hk,
            printable_of_hexVal hl]
        · simp only [List.cons_append]
          rw [compactFrom_cons _ (by decide)]
          refine congrArg (0x5C :: ·) ?_
          refine (compactFrom_cons _ (by decide)).trans ?_
          refine congrArg (0x75 :: ·) ?_
          show compactFrom .inString _ = _
          rw [compactFrom_inString_hex _ hi, compactFrom_inString_hex _ hj,
            compactFrom_inString_hex _ hk, compactFrom_inString_hex _ hl, heq]
    | @byte a t h22 h5c h20 ht =>
        by_cases hesc : a = 0x3C ∨ a = 0x3E ∨ a = 0x26
        · obtain ⟨cb, hcb, hp, heq⟩ := ih _ (by simp) ht rfl
          have hq : ∃ q, getu4 0x30 0x30 (hexDigit (a.toNat / 16)) (hexDigit (a.toNat % 16))
              = some q := by
            rcases hesc with rfl | rfl | rfl <;> exact ⟨_, rfl⟩
          have hne : a ≠ 0xE2 := by rcases hesc with rfl | rfl | rfl <;> decide
          obtain ⟨q, hq⟩ := hq
          refine ⟨_, .hex hq hcb, ?_, fun t => ?_⟩
          · rcases hesc with rfl | rfl | rfl <;> simp [hp] <;> decide
          · rw [List.cons_append, compactFrom_cons _ hne, compactByte, if_pos hesc]
            simp only [ScanState.next, if_neg h22, if_neg h5c, heq]
            rfl
        by_cases hsep : ∃ b u, a = 0xE2 ∧ t = 0x80 :: b :: u ∧ (b = 0xA8 ∨ b = 0xA9)
        · obtain ⟨b, u, rfl, rfl, hb⟩ := hsep
          have hbh : ¬ b < 0x80 := by rcases hb with rfl | rfl <;> decide
          have hu : StringBody u := (ht.of_high (by decide)).of_high hbh
          obtain ⟨cb, hcb, hp, heq⟩ := ih _ (by simp; omega) hu rfl
          have hq : ∃ q, getu4 0x32 0x30 0x32 (hexDigit (b.toNat % 16)) = some q := by
            rcases hb with rfl | rfl <;> exact ⟨_, rfl⟩
          obtain ⟨q, hq⟩ := hq
          refine ⟨_, .hex hq hcb, ?_, fun t => ?_⟩
          · rcases hb with rfl | rfl <;> simp [hp] <;> decide
          · simp only [List.cons_append]
            rw [compactFrom_separator _ hb]
            show _ ++ compactFrom .inString _ = _
            rw [heq]
            rfl
        · obtain ⟨cb, hcb, hp, heq⟩ := ih _ (by simp) ht rfl
          refine ⟨a :: cb, .byte h22 h5c h20 hcb, ?_, fun r => ?_⟩
          · simpa [hp] using UInt8.not_lt.mp h20
          · rw [List.cons_append, compactFrom_inString _ h22 h5c hesc, heq]
            · rfl
            · rintro b u rfl htu hb
              -- neither byte can be the closing quote
              have h80 : ¬ (0x80 : UInt8) < 0x80 := by decide
              have hbh : ¬ b < 0x80 := by rcases hb with rfl | rfl <;> decide
              obtain ⟨t₁, ht₁, rfl, htu₁⟩ := ht.of_append htu h80
              obtain ⟨t₂, -, rfl, -⟩ := ht₁.of_append htu₁.symm hbh
              exact hsep ⟨b, t₂, rfl, rfl, hb⟩

/-! ## Numbers -/

/-- The characters a number is spelled with. -/
def isNumeral (c : UInt8) : Bool :=
  isDigit c || c = 0x2D || c = 0x2B || c = 0x2E || c = 0x65 || c = 0x45

/-- What follows does not begin with a character of the class. -/
def Avoids (p : UInt8 → Bool) (r : GoString) : Prop := ∀ c ∈ r.head?, p c = false

/--
The scanner read `x`, and would read it again wherever it is followed by nothing
it could go on with.
-/
structure Scanned (f : GoString → Option (GoString × GoString)) (p : UInt8 → Bool)
    (x : GoString) : Prop where
  numerals : ∀ c ∈ x, isNumeral c = true
  again : ∀ r, Avoids p r → f (x ++ r) = some (x, r)

theorem Avoids.takeWhile {p : UInt8 → Bool} {x r : GoString} (hx : ∀ c ∈ x, p c = true)
    (h : Avoids p r) : (x ++ r).takeWhile p = x ∧ (x ++ r).dropWhile p = r := by
  rw [List.takeWhile_append_of_pos hx, List.dropWhile_append_of_pos hx]
  cases r with
  | nil => simp
  | cons c r =>
      have hc : p c = false := h c rfl
      simp [hc]

theorem isNumeral_of_isDigit {c : UInt8} (h : isDigit c = true) : isNumeral c = true := by
  simp [isNumeral, h]

theorem digits_takeWhile (s : GoString) : ∀ c ∈ s.takeWhile isDigit, isDigit c = true :=
  fun _ hc => List.mem_takeWhile_imp hc

theorem scanDigits_eq_some {s x r : GoString} (h : scanDigits s = some (x, r)) :
    s = x ++ r ∧ Scanned scanDigits isDigit x := by
  unfold scanDigits at h
  split at h
  · cases h
  · rename_i hne
    cases h
    have hall := digits_takeWhile s
    refine ⟨List.takeWhile_append_dropWhile.symm,
      fun c hc => isNumeral_of_isDigit (hall c hc), fun r hr => ?_⟩
    obtain ⟨ht, hd⟩ := Avoids.takeWhile hall hr
    unfold scanDigits
    rw [ht, hd, if_neg hne]

theorem scanInt_eq_some {s x r : GoString} (h : scanInt s = some (x, r)) :
    s = x ++ r ∧ x ≠ [] ∧ Scanned scanInt isDigit x := by
  unfold scanInt at h
  split at h
  · cases h
  · rename_i c t
    split at h
    · rename_i hc
      cases h
      subst hc
      exact ⟨rfl, by simp, by simp [isNumeral, isDigit], fun r _ => rfl⟩
    · rename_i h0
      split at h
      · rename_i hd
        cases h
        have hall := digits_takeWhile t
        refine ⟨by simp, by simp, ?_, fun r hr => ?_⟩
        · rintro a (_ | ⟨_, ha⟩)
          · exact isNumeral_of_isDigit hd
          · exact isNumeral_of_isDigit (hall a ha)
        · obtain ⟨ht, hdw⟩ := Avoids.takeWhile hall hr
          rw [List.cons_append, scanInt, if_neg h0, if_pos hd, ht, hdw]
      · cases h

/-- What a fraction may not be followed by. -/
def goesOnFrac (c : UInt8) : Bool := isDigit c || c = 0x2E

/-- What a number may not be followed by. -/
def goesOn (c : UInt8) : Bool := goesOnFrac c || c = 0x65 || c = 0x45

theorem Avoids.mono {p q : UInt8 → Bool} {r : GoString} (hpq : ∀ c, p c = true → q c = true)
    (h : Avoids q r) : Avoids p r := by
  intro c hc
  cases hp : p c with
  | false => rfl
  | true => exact absurd (h c hc) (by simp [hpq c hp])

theorem scanFrac_eq_some {s x r : GoString} (h : scanFrac s = some (x, r)) :
    s = x ++ r ∧ Scanned scanFrac goesOnFrac x ∧ (x = [] ∨ ∃ u, x = 0x2E :: u) := by
  -- no fraction: the next character decides
  have hnone : Scanned scanFrac goesOnFrac [] := by
    refine ⟨fun _ hc => absurd hc (by simp), fun r hr => ?_⟩
    cases r with
    | nil => rfl
    | cons c r =>
        have hc : goesOnFrac c = false := hr c rfl
        simp only [goesOnFrac, Bool.or_eq_false_iff, decide_eq_false_iff_not] at hc
        rw [List.nil_append, scanFrac, if_neg hc.2]
  unfold scanFrac at h
  split at h
  · cases h
    exact ⟨rfl, hnone, .inl rfl⟩
  · rename_i c t
    split at h
    · rename_i hc
      subst hc
      obtain ⟨⟨x', r'⟩, hs, heq⟩ := Option.map_eq_some_iff.mp h
      cases heq
      obtain ⟨rfl, hx⟩ := scanDigits_eq_some hs
      refine ⟨rfl, ⟨?_, fun r hr => ?_⟩, .inr ⟨_, rfl⟩⟩
      · rintro a (_ | ⟨_, ha⟩)
        · rfl
        · exact hx.numerals a ha
      · rw [List.cons_append, scanFrac, if_pos rfl,
          hx.again r (hr.mono fun c hc => by simp [goesOnFrac, hc])]
        rfl
    · cases h
      exact ⟨rfl, hnone, .inl rfl⟩

theorem scanExp_eq_some {s x r : GoString} (h : scanExp s = some (x, r)) :
    s = x ++ r ∧ Scanned scanExp goesOn x
      ∧ (x = [] ∨ ∃ c u, x = c :: u ∧ (c = 0x65 ∨ c = 0x45)) := by
  have hnone : Scanned scanExp goesOn [] := by
    refine ⟨fun _ hc => absurd hc (by simp), fun r hr => ?_⟩
    cases r with
    | nil => rfl
    | cons c r =>
        have hc : goesOn c = false := hr c rfl
        simp only [goesOn, Bool.or_eq_false_iff, decide_eq_false_iff_not] at hc
        rw [List.nil_append, scanExp.eq_def]
        exact if_neg (not_or.mpr ⟨hc.1.2, hc.2⟩)
  have hdig : ∀ {r : GoString}, Avoids goesOn r → Avoids isDigit r :=
    fun hr => hr.mono fun c hc => by simp [goesOn, goesOnFrac, hc]
  have hletter : ∀ {c : UInt8}, c = 0x65 ∨ c = 0x45 → isNumeral c = true := by
    rintro c (rfl | rfl) <;> rfl
  unfold scanExp at h
  split at h
  · cases h
    exact ⟨rfl, hnone, .inl rfl⟩
  · rename_i c t
    split at h
    · rename_i hc
      split at h
      · cases h
      · rename_i g u
        split at h
        · rename_i hg
          obtain ⟨⟨x', r'⟩, hs, heq⟩ := Option.map_eq_some_iff.mp h
          cases heq
          obtain ⟨rfl, hx⟩ := scanDigits_eq_some hs
          refine ⟨rfl, ⟨?_, fun r hr => ?_⟩, .inr ⟨_, _, rfl, hc⟩⟩
          · rintro a (_ | ⟨_, _ | ⟨_, ha⟩⟩)
            · exact hletter hc
            · rcases hg with rfl | rfl <;> rfl
            · exact hx.numerals a ha
          · rw [List.cons_append, List.cons_append, scanExp]
            simp only [if_pos hc, if_pos hg, hx.again r (hdig hr)]
            rfl
        · rename_i hg
          obtain ⟨⟨x', r'⟩, hs, heq⟩ := Option.map_eq_some_iff.mp h
          cases heq
          obtain ⟨hsx, hx⟩ := scanDigits_eq_some hs
          refine ⟨by rw [hsx]; rfl, ⟨?_, fun r hr => ?_⟩, .inr ⟨_, _, rfl, hc⟩⟩
          · rintro a (_ | ⟨_, ha⟩)
            · exact hletter hc
            · exact hx.numerals a ha
          · have hag := hx.again r (hdig hr)
            -- the first digit is the character the sign was looked for in
            cases x' with
            | nil =>
                have := hx.again [] (fun c hc => absurd hc (by simp))
                exact absurd this (by simp [scanDigits])
            | cons d x' =>
                cases hsx
                rw [List.cons_append] at hag
                rw [List.cons_append, List.cons_append, scanExp]
                simp only [if_pos hc, if_neg hg, hag]
                rfl
    · cases h
      exact ⟨rfl, hnone, .inl rfl⟩

theorem scanUnsigned_eq_some {s x r : GoString} (h : scanUnsigned s = some (x, r)) :
    s = x ++ r ∧ x ≠ [] ∧ Scanned scanUnsigned goesOn x := by
  unfold scanUnsigned at h
  obtain ⟨⟨i, s₁⟩, hi, h⟩ := Option.bind_eq_some_iff.mp h
  obtain ⟨⟨f, s₂⟩, hf, h⟩ := Option.bind_eq_some_iff.mp h
  obtain ⟨⟨e, s₃⟩, he, h⟩ := Option.bind_eq_some_iff.mp h
  cases h
  obtain ⟨rfl, hine, si⟩ := scanInt_eq_some hi
  obtain ⟨rfl, sf, hfhead⟩ := scanFrac_eq_some hf
  obtain ⟨rfl, se, hehead⟩ := scanExp_eq_some he
  refine ⟨by simp, by simp [hine], ?_, fun r hr => ?_⟩
  · simp only [List.mem_append]
    rintro c ((hc | hc) | hc)
    exacts [si.numerals c hc, sf.numerals c hc, se.numerals c hc]
  · -- each part ends where the next begins
    have her : Avoids goesOnFrac (e ++ r) := by
      rcases hehead with rfl | ⟨c, u, rfl, hc⟩
      · exact hr.mono fun c hc => by simp [goesOn, hc]
      · rintro a ⟨⟩
        rcases hc with rfl | rfl <;> rfl
    have hfr : Avoids isDigit (f ++ (e ++ r)) := by
      rcases hfhead with rfl | ⟨u, rfl⟩
      · exact her.mono fun c hc => by simp [goesOnFrac, hc]
      · rintro a ⟨⟩
        rfl
    unfold scanUnsigned
    rw [List.append_assoc, List.append_assoc, si.again _ hfr]
    simp only [Option.bind_eq_bind, Option.bind_some, sf.again _ her, se.again r hr]

theorem scanNumber_eq_some {s x r : GoString} (h : scanNumber s = some (x, r)) :
    s = x ++ r ∧ x ≠ [] ∧ Scanned scanNumber goesOn x := by
  unfold scanNumber at h
  split at h
  · cases h
  · rename_i c t
    split at h
    · rename_i hc
      subst hc
      obtain ⟨⟨x', r'⟩, hs, heq⟩ := Option.map_eq_some_iff.mp h
      cases heq
      obtain ⟨rfl, -, hx⟩ := scanUnsigned_eq_some hs
      refine ⟨rfl, by simp, ?_, fun r hr => ?_⟩
      · rintro a (_ | ⟨_, ha⟩)
        · rfl
        · exact hx.numerals a ha
      · rw [List.cons_append, scanNumber, if_pos rfl, hx.again r hr]
        rfl
    · rename_i hc
      obtain ⟨hs, hne, hx⟩ := scanUnsigned_eq_some h
      refine ⟨hs, hne, hx.numerals, fun r hr => ?_⟩
      cases x with
      | nil => exact absurd rfl hne
      | cons d x =>
          cases hs
          rw [List.cons_append, scanNumber, if_neg hc]
          exact hx.again r hr

end Gsnet.Go
