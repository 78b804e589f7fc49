import Gsnet.Go.Bytes

/-!
# Conversions and encoding/binary

What a conversion to fewer bits makes of an `int`, and numbers as bytes in either
order. A conversion is never checked; it keeps exactly the numbers that fit.
-/

namespace Gsnet.Go

/-! ## Narrowing -/

/-- The number is one of so many bits, without a sign. -/
def Fits (bits : Nat) (n : Int64) : Prop := 0 ≤ n.toInt ∧ n.toInt < 2 ^ bits

instance (bits : Nat) (n : Int64) : Decidable (Fits bits n) := inferInstanceAs (Decidable (_ ∧ _))

theorem toNat_toUInt64 (n : Int64) :
    (n.toUInt64.toNat : Int) = if n.toInt < 0 then n.toInt + 2 ^ 64 else n.toInt := by
  have hint : n.toInt = if 2 * n.toUInt64.toNat < 2 ^ 64 then (n.toUInt64.toNat : Int)
      else (n.toUInt64.toNat : Int) - (2 ^ 64 : Nat) :=
    BitVec.toInt_eq_toNat_cond n.toBitVec
  have hlt : n.toUInt64.toNat < 2 ^ 64 := n.toUInt64.toNat_lt
  split at hint
  · rw [if_neg (by omega), hint]
  · rw [if_pos (by omega)]
    omega

theorem toUInt16_eq_iff {n : Int64} :
    (n.toUInt64.toUInt16.toNat : Int) = n.toInt ↔ Fits 16 n := by
  have hwide := toNat_toUInt64 n
  have hlow : n.toUInt64.toUInt16.toNat = n.toUInt64.toNat % 2 ^ 16 := UInt64.toNat_toUInt16 _
  have hint := n.toInt_lt
  have hint' := n.le_toInt
  unfold Fits
  split at hwide <;> omega

theorem toUInt32_eq_iff {n : Int64} :
    (n.toUInt64.toUInt32.toNat : Int) = n.toInt ↔ Fits 32 n := by
  have hwide := toNat_toUInt64 n
  have hlow : n.toUInt64.toUInt32.toNat = n.toUInt64.toNat % 2 ^ 32 := UInt64.toNat_toUInt32 _
  have hint := n.toInt_lt
  have hint' := n.le_toInt
  unfold Fits
  split at hwide <;> omega

/-! ## Byte order -/

/-- `binary.LittleEndian.PutUint16`. -/
def lePutUint16 (v : UInt16) : GoString := [v.toUInt8, (v >>> 8).toUInt8]

/-- `binary.LittleEndian.PutUint32`. -/
def lePutUint32 (v : UInt32) : GoString :=
  [v.toUInt8, (v >>> 8).toUInt8, (v >>> 16).toUInt8, (v >>> 24).toUInt8]

/-- `binary.LittleEndian.Uint32`, of the four bytes at the front; all callers have them. -/
def leUint32 : GoString → UInt32
  | b₀ :: b₁ :: b₂ :: b₃ :: _ =>
    b₀.toUInt32 ||| b₁.toUInt32 <<< 8 ||| b₂.toUInt32 <<< 16 ||| b₃.toUInt32 <<< 24
  | _ => 0

/-- `binary.BigEndian.Uint32`, likewise. -/
def beUint32 (b : GoString) : UInt32 := leUint32 (b.take 4).reverse

@[simp] theorem length_lePutUint32 (v : UInt32) : (lePutUint32 v).length = 4 := rfl

theorem leUint32_append {b : GoString} (h : b.length = 4) (t : GoString) :
    leUint32 (b ++ t) = leUint32 b := by
  match b, h with
  | [b₀, b₁, b₂, b₃], _ => rfl

/-- Bits below others add to them. -/
theorem or_shifted {a b k : Nat} (h : a < 2 ^ k) : a ||| b * 2 ^ k = a + b * 2 ^ k := by
  rw [Nat.or_comm, ← Nat.shiftLeft_eq, ← Nat.shiftLeft_add_eq_or_of_lt h, Nat.add_comm]

/-- A byte is moved up without loss as long as it stays within the number. -/
theorem toNat_shifted (b : UInt8) {k : UInt32} (hk : k.toNat ≤ 24) :
    (b.toUInt32 <<< k).toNat = b.toNat * 2 ^ k.toNat := by
  have hlt : b.toNat * 2 ^ k.toNat < 2 ^ 8 * 2 ^ 24 :=
    Nat.mul_lt_mul_of_lt_of_le b.toNat_lt (Nat.pow_le_pow_right (by decide) hk) (by decide)
  have hwithin : k.toNat % 32 = k.toNat := Nat.mod_eq_of_lt (by omega)
  rw [UInt32.toNat_shiftLeft, UInt8.toNat_toUInt32, hwithin, Nat.shiftLeft_eq]
  exact Nat.mod_eq_of_lt hlt

theorem toNat_leUint32 (b₀ b₁ b₂ b₃ : UInt8) :
    (leUint32 [b₀, b₁, b₂, b₃]).toNat
      = b₀.toNat + b₁.toNat * 2 ^ 8 + b₂.toNat * 2 ^ 16 + b₃.toNat * 2 ^ 24 := by
  have h₀ := b₀.toNat_lt
  have h₁ := b₁.toNat_lt
  have h₂ := b₂.toNat_lt
  rw [leUint32, UInt32.toNat_or, UInt32.toNat_or, UInt32.toNat_or, toNat_shifted b₁ (by decide),
    toNat_shifted b₂ (by decide), toNat_shifted b₃ (by decide), UInt8.toNat_toUInt32]
  change ((b₀.toNat ||| b₁.toNat * 2 ^ 8) ||| b₂.toNat * 2 ^ 16) ||| b₃.toNat * 2 ^ 24 = _
  -- each byte lies above those before it
  rw [@or_shifted b₀.toNat _ 8 (by omega), @or_shifted _ b₂.toNat 16 (by omega),
    or_shifted (by omega)]

/-- **What was put is got.** -/
theorem leUint32_lePutUint32 (v : UInt32) : leUint32 (lePutUint32 v) = v := by
  have hlt := v.toNat_lt
  apply UInt32.toNat_inj.mp
  rw [lePutUint32, toNat_leUint32]
  simp only [UInt32.toNat_toUInt8, UInt32.toNat_shiftRight, Nat.shiftRight_eq_div_pow]
  have h₈ : (8 : UInt32).toNat % 32 = 8 := rfl
  have h₁₆ : (16 : UInt32).toNat % 32 = 16 := rfl
  have h₂₄ : (24 : UInt32).toNat % 32 = 24 := rfl
  rw [h₈, h₁₆, h₂₄]
  omega

end Gsnet.Go
