import Gsnet.Go.Bytes

/-!
# Decimal integers

`strconv.FormatInt` and `strconv.ParseInt` in base ten, which is all that
`encoding/json` uses for an `int` field.
-/

namespace Gsnet.Go

/-- An ASCII digit. -/
def isDigit (c : UInt8) : Bool := 0x30 ≤ c && c ≤ 0x39

/-- The ASCII character of a decimal digit. -/
def digit (d : Nat) : UInt8 := UInt8.ofNat (0x30 + d)

/-- `strconv.FormatUint(n, 10)`. -/
def formatUint (n : Nat) : GoString :=
  if n = 0 then [digit 0] else (Nat.digits 10 n).reverse.map digit

/-- `strconv.FormatInt(i, 10)`. -/
def formatInt (i : Int64) : GoString :=
  if i < 0 then 0x2D :: formatUint i.toInt.natAbs else formatUint i.toInt.natAbs

/-- The value of a run of digits, read left to right. -/
def digitsVal (s : GoString) : Nat := s.foldl (fun n c => 10 * n + (c.toNat - 0x30)) 0

/-- A non-empty run of digits and nothing else. -/
def parseDigits (s : GoString) : Option Nat :=
  if s ≠ [] ∧ s.all isDigit = true then some (digitsVal s) else none

/-- `strconv.ParseInt(s, 10, 64)`: an optional sign, digits, and a value in range. -/
def parseInt (s : GoString) : Option Int64 :=
  match s with
  | [] => none
  | c :: t =>
    if c = 0x2D then
      (parseDigits t).bind fun n => if n ≤ 2 ^ 63 then some (Int64.ofInt (-n)) else none
    else
      (parseDigits (if c = 0x2B then t else c :: t)).bind fun n =>
        if n < 2 ^ 63 then some (Int64.ofInt n) else none

/-! ## Reading back what was written -/

theorem digit_facts : ∀ d, d < 10 →
    isDigit (digit d) = true ∧ (digit d).toNat - 0x30 = d ∧ digit d ≠ 0x2D ∧ digit d ≠ 0x2B := by
  decide

theorem formatUint_ne_nil (n : Nat) : formatUint n ≠ [] := by
  unfold formatUint
  split
  · simp
  · rename_i h
    simpa [Nat.digits_eq_nil_iff_eq_zero] using h

theorem formatUint_digits (n : Nat) : ∀ c ∈ formatUint n, ∃ d, d < 10 ∧ c = digit d := by
  intro c hc
  unfold formatUint at hc
  split at hc
  · exact ⟨0, by omega, by simpa using hc⟩
  · obtain ⟨d, hd, rfl⟩ := List.mem_map.mp hc
    exact ⟨d, Nat.digits_lt_base (by omega) (List.mem_reverse.mp hd), rfl⟩

theorem formatUint_all (n : Nat) : (formatUint n).all isDigit = true := by
  rw [List.all_eq_true]
  intro c hc
  obtain ⟨d, hd, rfl⟩ := formatUint_digits n c hc
  exact (digit_facts d hd).1

theorem digitsVal_map {l : List Nat} (h : ∀ d ∈ l, d < 10) :
    digitsVal (l.reverse.map digit) = Nat.ofDigits 10 l := by
  unfold digitsVal
  rw [List.map_reverse, List.foldl_reverse]
  induction l with
  | nil => rfl
  | cons d l ih =>
      rw [List.map_cons, List.foldr_cons, ih (fun x hx => h x (by simp [hx])),
        (digit_facts d (h d (by simp))).2.1, Nat.ofDigits_cons]
      omega

theorem digitsVal_formatUint (n : Nat) : digitsVal (formatUint n) = n := by
  unfold formatUint
  split
  · rename_i h; subst h; decide
  · rw [digitsVal_map (fun d hd => Nat.digits_lt_base (by omega) hd), Nat.ofDigits_digits]

theorem parseDigits_formatUint (n : Nat) : parseDigits (formatUint n) = some n := by
  unfold parseDigits
  rw [if_pos ⟨formatUint_ne_nil n, formatUint_all n⟩, digitsVal_formatUint]

/-- The first character of a printed natural number is no sign. -/
theorem formatUint_head (n : Nat) :
    ∃ c t, formatUint n = c :: t ∧ isDigit c = true ∧ c ≠ 0x2D ∧ c ≠ 0x2B := by
  cases hn : formatUint n with
  | nil => exact absurd hn (formatUint_ne_nil n)
  | cons c t =>
      obtain ⟨d, hd, rfl⟩ := formatUint_digits n c (by rw [hn]; simp)
      obtain ⟨h1, _, h3, h4⟩ := digit_facts d hd
      exact ⟨digit d, t, rfl, h1, h3, h4⟩

/-- **`ParseInt` inverts `FormatInt`.** -/
theorem parseInt_formatInt (i : Int64) : parseInt (formatInt i) = some i := by
  have hlo := Int64.le_toInt i
  have hhi := Int64.toInt_lt i
  unfold formatInt
  split
  · rename_i hneg
    have hneg' : i.toInt < 0 := by simpa [Int64.lt_iff_toInt_lt] using hneg
    simp only [parseInt, if_pos, parseDigits_formatUint, Option.bind_some]
    rw [if_pos (by omega), show -(i.toInt.natAbs : Int) = i.toInt by omega, Int64.ofInt_toInt]
  · rename_i hpos
    have hpos' : 0 ≤ i.toInt := by
      have := not_lt.mp hpos
      simpa [Int64.le_iff_toInt_le] using this
    -- the first character is no sign, so the digits are read as they are
    obtain ⟨c, t, hct, _, h3, h4⟩ := formatUint_head i.toInt.natAbs
    have hp := parseDigits_formatUint i.toInt.natAbs
    rw [hct] at hp ⊢
    simp only [parseInt, if_neg h3, if_neg h4, hp, Option.bind_some]
    rw [if_pos (by omega), show (i.toInt.natAbs : Int) = i.toInt by omega, Int64.ofInt_toInt]

end Gsnet.Go
