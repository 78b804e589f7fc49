import Gsnet.Go.Bytes

/-!
# Node names

`internal/nodename`: a name is a non-empty run of ASCII letters, digits and
underscores. The stable IDs of the gossip plane join a name to the rest with a
slash, so what matters downstream is that a valid name holds no slash.
-/

namespace Gsnet.Nodename

open Go

/-- Why a name is refused. -/
inductive NameError where
  /-- `node name must not be empty`. -/
  | empty
  /-- `node name %q: invalid character %q at position %d`. -/
  | invalidChar (name rune : GoString) (pos : Nat)
  deriving DecidableEq, Repr

/-- A name rune; all of them are single bytes. -/
def isNameRune (r : UInt8) : Bool :=
  (0x61 ≤ r && r ≤ 0x7A) || (0x41 ≤ r && r ≤ 0x5A) || (0x30 ≤ r && r ≤ 0x39) || r == 0x5F

/-- The rune at the front of `a :: t`, as `range` delivers it. -/
def frontRune (a : UInt8) (t : GoString) : GoString :=
  if runeLen a t = 0 then runeError else (a :: t).take (runeLen a t)

/-- The loop of `Validate`; every rune before position `i` was a name rune. -/
def validateFrom (name : GoString) (i : Nat) : GoString → Except NameError Unit
  | [] => .ok ()
  | a :: t =>
    if isNameRune a then validateFrom name (i + 1) t
    else .error (.invalidChar name (frontRune a t) i)

def validate (name : GoString) : Except NameError Unit :=
  if name = [] then .error .empty else validateFrom name 0 name

theorem validateFrom_ok {name s : GoString} {i : Nat} (h : validateFrom name i s = .ok ()) :
    ∀ r ∈ s, isNameRune r = true := by
  induction s generalizing i with
  | nil => intro r hr; simp at hr
  | cons a t ih =>
      rw [validateFrom] at h
      split at h
      · rename_i ha
        intro r hr
        rcases List.mem_cons.mp hr with hr | hr
        · exact hr ▸ ha
        · exact ih h r hr
      · cases h

/-- A valid name is made of name runes. -/
theorem validate_ok {name : GoString} (h : validate name = .ok ()) :
    ∀ r ∈ name, isNameRune r = true := by
  unfold validate at h
  split at h
  · cases h
  · exact validateFrom_ok h

theorem ne_nil_of_validate {name : GoString} (h : validate name = .ok ()) : name ≠ [] := by
  rintro rfl
  cases h

theorem isNameRune_lt {r : UInt8} (h : isNameRune r = true) : r < 0x80 := by
  simp only [isNameRune, Bool.or_eq_true, Bool.and_eq_true, decide_eq_true_eq, beq_iff_eq] at h
  rcases h with ((h | h) | h) | h
  · exact UInt8.lt_of_le_of_lt h.2 (by decide)
  · exact UInt8.lt_of_le_of_lt h.2 (by decide)
  · exact UInt8.lt_of_le_of_lt h.2 (by decide)
  · rw [h]; decide

theorem isNameRune_ge {r : UInt8} (h : isNameRune r = true) : 0x30 ≤ r := by
  simp only [isNameRune, Bool.or_eq_true, Bool.and_eq_true, decide_eq_true_eq, beq_iff_eq] at h
  rcases h with ((h | h) | h) | h
  · exact UInt8.le_trans (by decide) h.1
  · exact UInt8.le_trans (by decide) h.1
  · exact h.1
  · rw [h]; decide

/-- A valid name holds no slash. -/
theorem slash_notMem {name : GoString} (h : validate name = .ok ()) : (0x2F : UInt8) ∉ name := by
  intro hm
  exact absurd (validate_ok h _ hm) (by decide)

/-- A valid name is valid UTF-8. -/
theorem validUTF8_of_validate {name : GoString} (h : validate name = .ok ()) :
    validUTF8 name = true :=
  validUTF8_ascii (fun r hr => isNameRune_lt (validate_ok h r hr))

end Gsnet.Nodename
