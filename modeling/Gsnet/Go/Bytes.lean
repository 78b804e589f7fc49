import Mathlib

/-!
# Go strings

A Go `string` is a byte sequence. Nothing makes it valid UTF-8: a node name, a
subnet or a cookie is whatever bytes the caller passed, and only some library
calls (`range`, `encoding/json`) look at the runes inside. The model therefore
keeps bytes, and this module adds the one decoding step those calls share: how
many bytes the first rune takes, or that there is none.
-/

namespace Gsnet.Go

/-- A Go `string` or `[]byte`. -/
abbrev GoString := List UInt8

/-- The bytes of a literal of the source. -/
def str (s : String) : GoString := s.toList.flatMap String.utf8EncodeChar

/-- Go's `int64` under its signed comparison. -/
instance instLinearOrderInt64 : LinearOrder Int64 where
  le_refl _ := Int64.le_refl _
  le_trans _ _ _ := Int64.le_trans
  le_antisymm _ _ := Int64.le_antisymm
  le_total _ _ := Int64.le_total _ _
  lt_iff_le_not_ge a b := by
    rw [Int64.not_le]
    refine ⟨fun h => ⟨Int64.le_of_lt h, h⟩, fun h => h.2⟩
  toDecidableLE := inferInstance
  toDecidableLT := inferInstance
  toDecidableEq := inferInstance
  compare_eq_compareOfLessAndEq _ _ := rfl

/-! ## Runes -/

/-- A continuation byte. -/
def isTail (b : UInt8) : Bool := 0x80 ≤ b && b ≤ 0xBF

/-- Two bytes that encode one rune. -/
def rune2 (a b : UInt8) : Bool := 0xC2 ≤ a && a ≤ 0xDF && isTail b

/-- Three bytes that encode one rune: no overlong form, no surrogate. -/
def rune3 (a b c : UInt8) : Bool :=
  0xE0 ≤ a && a ≤ 0xEF && isTail b && isTail c
    && (a != 0xE0 || 0xA0 ≤ b) && (a != 0xED || b ≤ 0x9F)

/-- Four bytes that encode one rune, at most U+10FFFF. -/
def rune4 (a b c d : UInt8) : Bool :=
  0xF0 ≤ a && a ≤ 0xF4 && isTail b && isTail c && isTail d
    && (a != 0xF0 || 0x90 ≤ b) && (a != 0xF4 || b ≤ 0x8F)

/--
`utf8.DecodeRune` on `a :: t`, keeping only the size: the number of bytes of the
first rune, and `0` where Go returns `RuneError` with size one.
-/
def runeLen (a : UInt8) (t : GoString) : Nat :=
  if a < 0x80 then 1
  else match t with
    | [] => 0
    | b :: t₂ =>
      if rune2 a b then 2
      else match t₂ with
        | [] => 0
        | c :: t₃ =>
          if rune3 a b c then 3
          else match t₃ with
            | [] => 0
            | d :: _ => if rune4 a b c d then 4 else 0

/-- U+FFFD, what Go puts where a byte begins no rune. -/
def runeError : GoString := [0xEF, 0xBF, 0xBD]

/-- The string with every byte that begins no rune replaced by U+FFFD. -/
def toValidUTF8 : GoString → GoString
  | [] => []
  | a :: t =>
    match runeLen a t, t with
    | 1, t => a :: toValidUTF8 t
    | 2, b :: t => a :: b :: toValidUTF8 t
    | 3, b :: c :: t => a :: b :: c :: toValidUTF8 t
    | 4, b :: c :: d :: t => a :: b :: c :: d :: toValidUTF8 t
    | _, t => runeError ++ toValidUTF8 t

/-- `utf8.ValidString`. -/
def validUTF8 : GoString → Bool
  | [] => true
  | a :: t =>
    match runeLen a t, t with
    | 1, t => validUTF8 t
    | 2, _ :: t => validUTF8 t
    | 3, _ :: _ :: t => validUTF8 t
    | 4, _ :: _ :: _ :: t => validUTF8 t
    | _, _ => false

/-- `utf8.EncodeRune` on a code point that is not a surrogate. -/
def encodeRune (r : Nat) : GoString :=
  if r < 0x80 then [UInt8.ofNat r]
  else if r < 0x800 then
    [UInt8.ofNat (0xC0 + r / 64), UInt8.ofNat (0x80 + r % 64)]
  else if r < 0x10000 then
    [UInt8.ofNat (0xE0 + r / 4096), UInt8.ofNat (0x80 + r / 64 % 64), UInt8.ofNat (0x80 + r % 64)]
  else
    [UInt8.ofNat (0xF0 + r / 262144), UInt8.ofNat (0x80 + r / 4096 % 64),
      UInt8.ofNat (0x80 + r / 64 % 64), UInt8.ofNat (0x80 + r % 64)]

/-! ## Walking a string rune by rune -/

theorem runeLen_one {a : UInt8} {t : GoString} (h : a < 0x80) : runeLen a t = 1 := by
  unfold runeLen; rw [if_pos h]

theorem runeLen_two {a b : UInt8} (t : GoString) (ha : ¬ a < 0x80) (h : rune2 a b = true) :
    runeLen a (b :: t) = 2 := by
  simp [runeLen, ha, h]

theorem runeLen_three {a b c : UInt8} (t : GoString) (ha : ¬ a < 0x80)
    (h2 : ¬ rune2 a b = true) (h : rune3 a b c = true) : runeLen a (b :: c :: t) = 3 := by
  simp [runeLen, ha, h2, h]

theorem runeLen_four {a b c d : UInt8} (t : GoString) (ha : ¬ a < 0x80)
    (h2 : ¬ rune2 a b = true) (h3 : ¬ rune3 a b c = true) (h : rune4 a b c d = true) :
    runeLen a (b :: c :: d :: t) = 4 := by
  simp [runeLen, ha, h2, h3, h]

/--
**Induction along the runes of a string.** The cases are the ones every decoding
loop of the library has: the end, a rune of one to four bytes, and a byte that
begins none.
-/
theorem runes_induct {P : GoString → Prop} (nil : P [])
    (one : ∀ a t, a < 0x80 → P t → P (a :: t))
    (two : ∀ a b t, ¬ a < 0x80 → rune2 a b = true → P t → P (a :: b :: t))
    (three : ∀ a b c t, ¬ a < 0x80 → ¬ rune2 a b = true → rune3 a b c = true →
      P t → P (a :: b :: c :: t))
    (four : ∀ a b c d t, ¬ a < 0x80 → ¬ rune2 a b = true → ¬ rune3 a b c = true →
      rune4 a b c d = true → P t → P (a :: b :: c :: d :: t))
    (bad : ∀ a t, ¬ a < 0x80 → runeLen a t = 0 → P t → P (a :: t)) :
    ∀ s, P s := by
  intro s
  -- on the length: a rune takes between one and four bytes off the front
  induction hn : s.length using Nat.strongRecOn generalizing s with
  | ind n ih =>
    subst hn
    cases s with
    | nil => exact nil
    | cons a t =>
        by_cases ha : a < 0x80
        · exact one a t ha (ih _ (by simp) t rfl)
        -- where the bytes run out or do not fit, the first one is skipped alone
        have hbad : runeLen a t = 0 → P (a :: t) := fun h => bad a t ha h (ih _ (by simp) t rfl)
        cases t with
        | nil => exact hbad (by simp [runeLen, ha])
        | cons b t₂ =>
            by_cases h2 : rune2 a b = true
            · exact two a b t₂ ha h2 (ih _ (by simp) t₂ rfl)
            cases t₂ with
            | nil => exact hbad (by simp [runeLen, ha, h2])
            | cons c t₃ =>
                by_cases h3 : rune3 a b c = true
                · exact three a b c t₃ ha h2 h3 (ih _ (by simp; omega) t₃ rfl)
                cases t₃ with
                | nil => exact hbad (by simp [runeLen, ha, h2, h3])
                | cons d t₄ =>
                    by_cases h4 : rune4 a b c d = true
                    · exact four a b c d t₄ ha h2 h3 h4 (ih _ (by simp; omega) t₄ rfl)
                    · exact hbad (by simp [runeLen, ha, h2, h3, h4])

theorem toValidUTF8_of_valid {s : GoString} : validUTF8 s = true → toValidUTF8 s = s := by
  induction s using runes_induct with
  | nil => intro _; rfl
  | one a t ha ih =>
      intro h
      simp only [validUTF8, toValidUTF8, runeLen_one ha] at h ⊢
      rw [ih h]
  | two a b t ha h2 ih =>
      intro h
      simp only [validUTF8, toValidUTF8, runeLen_two t ha h2] at h ⊢
      rw [ih h]
  | three a b c t ha h2 h3 ih =>
      intro h
      simp only [validUTF8, toValidUTF8, runeLen_three t ha h2 h3] at h ⊢
      rw [ih h]
  | four a b c d t ha h2 h3 h4 ih =>
      intro h
      simp only [validUTF8, toValidUTF8, runeLen_four t ha h2 h3 h4] at h ⊢
      rw [ih h]
  | bad a t _ h0 _ =>
      intro h
      simp [validUTF8, h0] at h

/-- Text of single-byte runes is valid. -/
example : toValidUTF8 (str "é") = str "é" := by decide +kernel

theorem validUTF8_ascii {s : GoString} (h : ∀ b ∈ s, b < 0x80) : validUTF8 s = true := by
  induction s with
  | nil => rfl
  | cons a t ih =>
      simp only [validUTF8, runeLen_one (h a (by simp))]
      exact ih (fun b hb => h b (by simp [hb]))

end Gsnet.Go
