import Gsnet.Go.Net
import Gsnet.Go.NetipProof
import Gsnet.Go.Strings

/-!
# Subnets

`internal/subnet`: what a node announces as its own, an IP prefix or a hardware
address, with a weight after `#`. The graph and the gossip plane know subnets by
their text, so two texts of one prefix are two subnets to them.
-/

namespace Gsnet

open Go

/-- A subnet. One of the first two fields is set; `none` is Go's zero value. -/
structure Subnet where
  /-- `Prefix`. -/
  cidr : Option Prefix
  mac : Option HardwareAddr
  weight : Int64
  deriving DecidableEq, Repr

namespace Subnet

def defaultWeight : Int64 := 10

/-- Why a text is no subnet. -/
inductive Error where
  /-- `invalid weight in %q`. -/
  | weight (s : GoString)
  /-- What `netip.ParseAddr` reports. -/
  | addr (s : GoString)
  /-- What `netip.ParsePrefix` reports. -/
  | cidr (s : GoString)
  /-- `subnet %q has non-zero host bits`. -/
  | hostBits (s : GoString)
  deriving DecidableEq, Repr

/-- `String()` without the weight. -/
def body (s : Subnet) : GoString :=
  match s.mac with
  | some m => m.string
  | none => s.cidr.elim (str "invalid Prefix") Prefix.string

/-- `String()`: the weight is left out when it is zero or the default. -/
def string (s : Subnet) : GoString :=
  if s.weight ≠ 0 ∧ s.weight ≠ defaultWeight then s.body ++ 0x23 :: formatInt s.weight else s.body

theorem body_ascii (s : Subnet) : ∀ c ∈ s.body, c < 0x80 := by
  unfold body
  split
  · exact HardwareAddr.string_ascii _
  · cases s.cidr with
    | none => exact (by decide +kernel : ∀ c ∈ str "invalid Prefix", c < 0x80)
    | some p => exact p.string_ascii

theorem string_ascii (s : Subnet) : ∀ c ∈ s.string, c < 0x80 := by
  unfold string
  split
  · intro c hc
    rcases List.mem_append.mp hc with hc | hc
    · exact s.body_ascii c hc
    · rcases List.mem_cons.mp hc with rfl | hc
      · decide
      · exact formatInt_ascii _ c hc
  · exact s.body_ascii

/-- JSON carries the text of a subnet as it is. -/
theorem toValidUTF8_string (s : Subnet) : toValidUTF8 s.string = s.string :=
  toValidUTF8_of_valid (validUTF8_ascii s.string_ascii)

/-- One part of the lenient form: one or two hexadecimal digits. -/
def lenientOctet (p : GoString) : Option UInt8 :=
  if p.length = 0 ∨ 2 < p.length then none
  else if p.all isHex then some (UInt8.ofNat (p.foldl (fun n c => n * 16 + hexDigitVal c) 0))
  else none

/-- `parseMAC`: also with single digits, as in `0:1a:2b:3c:4d:5e`. -/
def parseMAC (s : GoString) : Option HardwareAddr :=
  match Go.parseMAC s with
  | some mac => some mac
  | none =>
    let parts := split 0x3A s
    if parts.length ≠ 6 then none else parts.mapM lenientOctet

def splitWeight (s : GoString) : Except Error (GoString × Int64) :=
  match cut 0x23 s with
  | (_, none) => .ok (s, defaultWeight)
  | (body, some w) =>
    match parseInt w with
    | some weight => .ok (body, weight)
    | none => .error (.weight s)

/-- `parseBody`; the weight is filled in by `parse`. -/
def parseBody (s : GoString) : Except Error Subnet :=
  match parseMAC s with
  | some mac => .ok ⟨none, some mac, 0⟩
  | none =>
    if 0x2F ∉ s then
      match parseAddr s with
      | some addr => .ok ⟨some (prefixFrom addr addr.bitLen), none, 0⟩
      | none => .error (.addr s)
    else match parsePrefix s with
      | none => .error (.cidr s)
      | some p => if p.masked ≠ p then .error (.hostBits s) else .ok ⟨some p, none, 0⟩

/-- `Parse`. -/
def parse (s : GoString) : Except Error Subnet := do
  let (body, weight) ← splitWeight s
  let sub ← parseBody body
  .ok { sub with weight := weight }

example : (parse (str "10.0.0.1#5")).map string = .ok (str "10.0.0.1/32#5") := by decide +kernel
example : (parse (str "0:1a:2B:3:4:5e#10")).map string = .ok (str "00:1a:2b:03:04:5e") := by
  decide +kernel
example : parse (str "10.0.0.1/24") = .error (.hostBits (str "10.0.0.1/24")) := by decide +kernel

end Subnet

end Gsnet
