import Gsnet.Go.Bytes

/-!
# Slices that are checked at run time

Go checks every index and every slice expression and panics where it is out of
bounds. For code that reads what a stranger sent, whether that happens is the
question, so here a call has an outcome of its own, apart from the error it may
return. A loop is given a number of rounds and is still `running` when they are
over.

A slice expression may in Go reach past the length, up to the capacity. Nothing
that is modelled here depends on it: every upper bound is the length itself or
has been compared with it.
-/

namespace Gsnet.Go

/-- How a call ends. -/
inductive Outcome (α : Type) where
  | returned (a : α)
  | panicked
  /-- The rounds of a loop are over and the loop is not. -/
  | running
  deriving DecidableEq

namespace Outcome

def bind {α β : Type} (x : Outcome α) (f : α → Outcome β) : Outcome β :=
  match x with
  | .returned a => f a
  | .panicked => .panicked
  | .running => .running

instance : Monad Outcome where
  pure := .returned
  bind := bind

@[simp] theorem returned_bind {α β : Type} (a : α) (f : α → Outcome β) :
    (returned a >>= f) = f a := rfl

@[simp] theorem panicked_bind {α β : Type} (f : α → Outcome β) :
    (panicked >>= f) = panicked := rfl

@[simp] theorem pure_eq {α : Type} (a : α) : (pure a : Outcome α) = returned a := rfl

instance : LawfulMonad Outcome := LawfulMonad.mk' _
  (fun x => by cases x <;> rfl)
  (fun _ _ => rfl)
  (fun x _ _ => by cases x <;> rfl)

theorem bind_eq_returned {α β : Type} {x : Outcome α} {f : α → Outcome β} {b : β} :
    (x >>= f) = returned b ↔ ∃ a, x = returned a ∧ f a = returned b := by
  constructor
  · intro h
    cases x with
    | returned a => exact ⟨a, rfl, h⟩
    | panicked => cases h
    | running => cases h
  · rintro ⟨a, rfl, h⟩
    exact h

/-- A loop every round of which returns. -/
theorem mapM_returned {α β : Type} {f : α → Outcome β} {g : α → β} {l : List α}
    (h : ∀ a ∈ l, f a = returned (g a)) : l.mapM f = returned (l.map g) := by
  induction l with
  | nil => rfl
  | cons a l ih =>
      rw [List.mapM_cons, h a List.mem_cons_self, returned_bind,
        ih fun x hx => h x (List.mem_cons_of_mem a hx)]
      rfl

/-- The call returns, be it with an error. -/
def Returns {α : Type} (x : Outcome α) : Prop := ∃ a, x = returned a

theorem returns_returned {α : Type} (a : α) : (returned a).Returns := ⟨a, rfl⟩

theorem not_returns_panicked {α : Type} : ¬ (panicked : Outcome α).Returns := by
  rintro ⟨a, ha⟩
  cases ha

end Outcome

/-- `b[i]`. -/
def index (b : GoString) (i : Nat) : Outcome UInt8 :=
  match b[i]? with
  | some c => .returned c
  | none => .panicked

/-- `b[lo:hi]`. -/
def slice (b : GoString) (lo hi : Nat) : Outcome GoString :=
  if lo ≤ hi ∧ hi ≤ b.length then .returned ((b.drop lo).take (hi - lo)) else .panicked

/-- `b[lo:]`. -/
def sliceFrom (b : GoString) (lo : Nat) : Outcome GoString := slice b lo b.length

/-- `binary.BigEndian.Uint16`. -/
def uint16 (b : GoString) : Outcome UInt16 := do
  let lo ← index b 1
  let hi ← index b 0
  return (UInt16.ofNat (hi.toNat * 256 + lo.toNat))

/-- `binary.BigEndian.Uint32`. -/
def uint32 (b : GoString) : Outcome UInt32 := do
  let b3 ← index b 3
  let b2 ← index b 2
  let b1 ← index b 1
  let b0 ← index b 0
  return (UInt32.ofNat (((b0.toNat * 256 + b1.toNat) * 256 + b2.toNat) * 256 + b3.toNat))

/-! ## Within bounds -/

theorem index_returned {b : GoString} {i : Nat} (h : i < b.length) :
    index b i = .returned (b.getD i 0) := by
  simp [index, h]

theorem slice_returned {b : GoString} {lo hi : Nat} (h : lo ≤ hi) (h' : hi ≤ b.length) :
    slice b lo hi = .returned ((b.drop lo).take (hi - lo)) := if_pos ⟨h, h'⟩

theorem sliceFrom_returned {b : GoString} {lo : Nat} (h : lo ≤ b.length) :
    sliceFrom b lo = .returned (b.drop lo) := by
  have hall : (b.drop lo).take (b.length - lo) = b.drop lo :=
    List.take_of_length_le (by simp)
  rw [sliceFrom, slice_returned h (Nat.le_refl _), hall]

theorem sliceFrom_panicked {b : GoString} {lo : Nat} (h : b.length < lo) :
    sliceFrom b lo = .panicked := if_neg fun hle => by omega

/-- The big-endian number at an offset, as the two bytes there give it. -/
def uint16At (b : GoString) (i : Nat) : UInt16 :=
  UInt16.ofNat ((b.getD i 0).toNat * 256 + (b.getD (i + 1) 0).toNat)

theorem uint16_slice {b : GoString} {i : Nat} (h : i + 2 ≤ b.length) :
    (slice b i (i + 2) >>= uint16) = .returned (uint16At b i) := by
  have hi : i < b.length := by omega
  have hi' : i + 1 < b.length := by omega
  rw [slice_returned (by omega) h]
  simp [uint16, uint16At, index, hi, hi']

/-- The same with four bytes. -/
def uint32At (b : GoString) (i : Nat) : UInt32 :=
  UInt32.ofNat ((((b.getD i 0).toNat * 256 + (b.getD (i + 1) 0).toNat) * 256
    + (b.getD (i + 2) 0).toNat) * 256 + (b.getD (i + 3) 0).toNat)

theorem uint32_slice {b : GoString} {i : Nat} (h : i + 4 ≤ b.length) :
    (slice b i (i + 4) >>= uint32) = .returned (uint32At b i) := by
  have h0 : i < b.length := by omega
  have h1 : i + 1 < b.length := by omega
  have h2 : i + 2 < b.length := by omega
  have h3 : i + 3 < b.length := by omega
  rw [slice_returned (by omega) h]
  simp [uint32, uint32At, index, h0, h1, h2, h3]

end Gsnet.Go
