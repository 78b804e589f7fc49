import Gsnet.Go.Netip

/-!
# net

The older address types of the standard library, which netlink and wgctrl still
speak: hardware addresses and IP addresses as bare byte slices, and networks.
-/

namespace Gsnet.Go

/-- `net.IP`: nil, four bytes or sixteen. -/
abbrev IP := List UInt8

/-- `net.HardwareAddr`. -/
abbrev HardwareAddr := List UInt8

/-- `netip.AddrFromSlice`. -/
def addrFromSlice (ip : IP) : Option Addr :=
  if ip.length = 4 then some (.v4 (BitVec.ofNat 32 (bigEndian ip)))
  else if ip.length = 16 then some (.v6 (BitVec.ofNat 128 (bigEndian ip)) [])
  else none

/-- `netip.Addr.Unmap`. -/
def Addr.unmap (a : Addr) : Addr :=
  match a with
  | .v4 ip => .v4 ip
  | .v6 ip zone => if (Addr.v6 ip zone).is4In6 then .v4 (ip.setWidth 32) else .v6 ip zone

/-- Two hexadecimal digits. -/
def hexByte (b : UInt8) : GoString := [hexChar (b.toNat / 16), hexChar (b.toNat % 16)]

/-- `net.IP.String`: an IPv4 address in its sixteen-byte form is written as IPv4. -/
def IP.string (ip : IP) : GoString :=
  if ip = [] then str "<nil>"
  else match addrFromSlice ip with
    | some a => a.unmap.string
    | none => 0x3F :: ip.flatMap hexByte

/-- An IPv4 address in its sixteen-byte form as four bytes, any other as it is. -/
def IP.canonical (ip : IP) : IP :=
  match addrFromSlice ip with
  | some a => a.unmap.asSlice
  | none => ip

/-- `net.IP.Equal`: the two forms of an IPv4 address are equal. -/
def IP.equal (ip x : IP) : Bool := ip.canonical = x.canonical

/-- `net.HardwareAddr.String`. -/
def HardwareAddr.string : HardwareAddr → GoString
  | [] => []
  | [b] => hexByte b
  | b :: t => hexByte b ++ 0x3A :: HardwareAddr.string t

/-- `xtoi2`: two hexadecimal digits at the front. -/
def xtoi2 : GoString → Option (UInt8 × GoString)
  | a :: b :: t =>
    if isHex a && isHex b then some (UInt8.ofNat (hexDigitVal a * 16 + hexDigitVal b), t) else none
  | _ => none

/-- Octets of two digits each with `sep` between them. -/
def macOctets (sep : UInt8) : Nat → GoString → Option HardwareAddr
  | 0, _ => none
  | n + 1, s => do
    let (b, t) ← xtoi2 s
    match t with
    | [] => some [b]
    | c :: u => if c = sep then (macOctets sep n u).map (b :: ·) else none

/-- Pairs of octets with a dot between the pairs. -/
def macPairs : Nat → GoString → Option HardwareAddr
  | 0, _ => none
  | n + 1, s => do
    let (b, t) ← xtoi2 s
    let (c, u) ← xtoi2 t
    match u with
    | [] => some [b, c]
    | d :: v => if d = 0x2E then (macPairs n v).map (fun r => b :: c :: r) else none

/-- `net.ParseMAC`: six, eight or twenty octets in one of three spellings. -/
def parseMAC (s : GoString) : Option HardwareAddr :=
  let octets :=
    if s.drop 2 |>.head? |>.any (fun c => c = 0x3A || c = 0x2D) then
      macOctets ((s.drop 2).headD 0) s.length s
    else if (s.drop 4).head? = some 0x2E then macPairs s.length s
    else none
  octets.bind fun hw => if hw.length ∈ [6, 8, 20] then some hw else none

/-- `net.IPNet` with the mask `net.CIDRMask(ones, bits)`. -/
structure IPNet where
  ip : IP
  ones : Nat
  bits : Nat
  deriving DecidableEq, Repr

/-- `net.UDPAddr`. -/
structure UDPAddr where
  ip : IP
  port : Nat
  deriving DecidableEq, Repr

example : parseMAC (str "00:1a:2B:3c:4d:5e")
    = some [0x00, 0x1A, 0x2B, 0x3C, 0x4D, 0x5E] := by decide
example : parseMAC (str "001a.2B3c.4d5e") = some [0x00, 0x1A, 0x2B, 0x3C, 0x4D, 0x5E] := by decide
example : parseMAC (str "00:1a:2B:3c:4d") = none := by decide

end Gsnet.Go
