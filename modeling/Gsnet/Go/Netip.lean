import Gsnet.Go.Strconv

/-!
# net/netip

Addresses and prefixes in their text forms. A `netip.Addr` is either the zero
value, which is no address at all, or an IPv4 or IPv6 address; the model keeps
the zero value apart as `none` of an `Option`, so that an `Addr` is always valid.
-/

namespace Gsnet.Go

/-- A valid `netip.Addr`. An IPv6 address may carry a zone; the empty zone is none. -/
inductive Addr where
  | v4 (ip : BitVec 32)
  | v6 (ip : BitVec 128) (zone : GoString)
  deriving DecidableEq, Repr

/-- The zone of an address. -/
def Addr.zone : Addr → GoString
  | v4 _ => []
  | v6 _ zone => zone

/-- A valid `netip.Prefix`. -/
structure Prefix where
  addr : Addr
  bits : Nat
  /-- A prefix has no zone. -/
  unzoned : addr.zone = []
  deriving DecidableEq, Repr

/-- Bytes in network order as one number. -/
def bigEndian (b : List UInt8) : Nat := b.foldl (fun n c => n * 256 + c.toNat) 0

/--
`parseIPv4Fields`: the octets read so far, the value and the number of digits
of the current one. An octet has no leading zero and is at most 255.
-/
def parseIPv4Fields (fields : List UInt8) (val digLen : Nat) : GoString → Option (List UInt8)
  | [] => if fields.length < 3 then none else some (fields ++ [UInt8.ofNat val])
  | c :: t =>
    if isDigit c then
      if digLen = 1 ∧ val = 0 then none
      else if val * 10 + (c.toNat - 0x30) > 255 then none
      else parseIPv4Fields fields (val * 10 + (c.toNat - 0x30)) (digLen + 1) t
    else if c = 0x2E then
      if digLen = 0 ∨ t = [] then none
      else if fields.length = 3 then none
      else parseIPv4Fields (fields ++ [UInt8.ofNat val]) 0 0 t
    else none

/-- `parseIPv4`. -/
def parseIPv4 (s : GoString) : Option Addr :=
  (parseIPv4Fields [] 0 0 s).map fun f => .v4 (BitVec.ofNat 32 (bigEndian f))

/-- A hexadecimal digit. -/
def isHex (c : UInt8) : Bool :=
  isDigit c || (0x61 ≤ c && c ≤ 0x66) || (0x41 ≤ c && c ≤ 0x46)

/-- The value of a hexadecimal digit. -/
def hexDigitVal (c : UInt8) : Nat :=
  if isDigit c then c.toNat - 0x30
  else if 0x61 ≤ c && c ≤ 0x66 then c.toNat - 0x57
  else c.toNat - 0x37

/-- The two bytes of a field of at most four hexadecimal digits. -/
def hexField (ds : GoString) : List UInt8 :=
  let acc := ds.foldl (fun n c => n * 16 + hexDigitVal c) 0
  [UInt8.ofNat (acc / 256), UInt8.ofNat (acc % 256)]

/--
The loop of `parseIPv6`: one field a round, at most eight rounds. It carries the
bytes so far, where in them `::` stood, and the text still to read.
-/
def parseIPv6Fields : Nat → List UInt8 → Option Nat → GoString →
    Option (List UInt8 × Option Nat × GoString)
  | 0, ip, ell, s => some (ip, ell, s)
  | n + 1, ip, ell, s =>
    let ds := s.takeWhile isHex
    if ds = [] ∨ 4 < ds.length then none
    else match s.dropWhile isHex with
      | [] => some (ip ++ hexField ds, ell, [])
      | c :: t =>
        if c = 0x2E then
          -- an embedded IPv4 address, which must be the last four bytes
          if ell = none ∧ ip.length ≠ 12 then none
          else if ip.length + 4 > 16 then none
          else (parseIPv4Fields [] 0 0 s).map fun f => (ip ++ f, ell, [])
        else if c ≠ 0x3A then none
        else match t with
          | [] => none
          | d :: u =>
            if d = 0x3A then
              if ell.isSome then none
              else if u = [] then some (ip ++ hexField ds, some (ip.length + 2), [])
              else parseIPv6Fields n (ip ++ hexField ds) (some (ip.length + 2)) u
            else parseIPv6Fields n (ip ++ hexField ds) ell (d :: u)

/-- Fill in what `::` stands for; it must stand for something. -/
def expandEllipsis (ip : List UInt8) : Option Nat → Option (List UInt8)
  | none => if ip.length < 16 then none else some ip
  | some k =>
    if ip.length < 16 then some (ip.take k ++ List.replicate (16 - ip.length) 0 ++ ip.drop k)
    else none

/-- `parseIPv6` without its zone. -/
def parseIPv6Bytes (s : GoString) : Option (List UInt8) := do
  let lead := s.take 2 = [0x3A, 0x3A]
  if lead ∧ s.length = 2 then some (List.replicate 16 0)
  else do
    let (ip, ell, rest) ←
      if lead then parseIPv6Fields 8 [] (some 0) (s.drop 2) else parseIPv6Fields 8 [] none s
    if rest ≠ [] then none else expandEllipsis ip ell

/-- `parseIPv6`: a zone after `%` is kept, and must not be empty. -/
def parseIPv6 (s : GoString) : Option Addr :=
  match s.dropWhile (· != 0x25) with
  | [] => (parseIPv6Bytes s).map fun b => .v6 (BitVec.ofNat 128 (bigEndian b)) []
  | _ :: zone =>
    if zone = [] then none
    else (parseIPv6Bytes (s.takeWhile (· != 0x25))).map fun b =>
      .v6 (BitVec.ofNat 128 (bigEndian b)) zone

/-- `netip.ParseAddr`: the first of `.`, `:` and `%` decides what to expect. -/
def parseAddr (s : GoString) : Option Addr :=
  match s.find? (fun c => c = 0x2E || c = 0x3A || c = 0x25) with
  | none => none
  | some c => if c = 0x2E then parseIPv4 s else if c = 0x3A then parseIPv6 s else none

/-- The bit count of a prefix: no sign, no superfluous zero, in range. -/
def parseBits (max : Nat) (s : GoString) : Option Nat :=
  match s with
  | 0x30 :: _ :: _ => none
  | s => (parseDigits s).bind fun n => if n ≤ max then some n else none

/-- `netip.ParsePrefix`, cut at the last slash. Zones are not allowed. -/
def parsePrefix (s : GoString) : Option Prefix :=
  let tail := (s.reverse.takeWhile (· != 0x2F)).reverse
  if tail.length = s.length then none
  else do
    let ip ← parseAddr (s.take (s.length - tail.length - 1))
    match ip with
    | .v4 a => (parseBits 32 tail).map fun n => ⟨.v4 a, n, rfl⟩
    | .v6 a zone =>
      if h : zone = [] then (parseBits 128 tail).map fun n => ⟨.v6 a zone, n, h⟩ else none

/-! ## Properties of an address -/

namespace Addr

def bitLen : Addr → Nat
  | v4 _ => 32
  | v6 _ _ => 128

def withoutZone : Addr → Addr
  | v4 ip => v4 ip
  | v6 ip _ => v6 ip []

theorem zone_withoutZone (a : Addr) : a.withoutZone.zone = [] := by cases a <;> rfl

/-- `Is4In6`: an IPv6 address under `::ffff:0:0/96`. -/
def is4In6 : Addr → Bool
  | v4 _ => false
  | v6 ip _ => ip.toNat / 2 ^ 32 == 0xFFFF

end Addr

/-- A number as bytes in network order, most significant first. -/
def beBytes : Nat → Nat → List UInt8
  | 0, _ => []
  | n + 1, v => beBytes n (v / 256) ++ [UInt8.ofNat (v % 256)]

/-- `AsSlice`. -/
def Addr.asSlice : Addr → List UInt8
  | .v4 ip => beBytes 4 ip.toNat
  | .v6 ip _ => beBytes 16 ip.toNat

/-- `PrefixFrom`: a prefix has no zone. -/
def prefixFrom (a : Addr) (bits : Nat) : Prefix := ⟨a.withoutZone, bits, a.zone_withoutZone⟩

/-- `Masked`: the bits after the prefix length cleared. -/
def Prefix.masked (p : Prefix) : Prefix :=
  match p.addr with
  | .v4 ip => ⟨.v4 (ip >>> (32 - p.bits) <<< (32 - p.bits)), p.bits, rfl⟩
  | .v6 ip _ => ⟨.v6 (ip >>> (128 - p.bits) <<< (128 - p.bits)) [], p.bits, rfl⟩

/-! ## Text forms -/

/-- A hexadecimal digit in lower case. -/
def hexChar (d : Nat) : UInt8 := if d < 10 then UInt8.ofNat (0x30 + d) else UInt8.ofNat (0x57 + d)

/-- `appendHex`: a sixteen-bit field without superfluous zeros. -/
def appendHex (x : Nat) : GoString :=
  (if 0x1000 ≤ x then [hexChar (x / 0x1000)] else [])
    ++ (if 0x100 ≤ x then [hexChar (x / 0x100 % 16)] else [])
    ++ (if 0x10 ≤ x then [hexChar (x / 0x10 % 16)] else []) ++ [hexChar (x % 16)]

/-- The eight fields of an IPv6 address. -/
def v6Fields (ip : Nat) : List Nat :=
  [ip / 2 ^ 112 % 65536, ip / 2 ^ 96 % 65536, ip / 2 ^ 80 % 65536, ip / 2 ^ 64 % 65536,
    ip / 2 ^ 48 % 65536, ip / 2 ^ 32 % 65536, ip / 2 ^ 16 % 65536, ip % 65536]

/-- How long a run of zero fields `best` is. -/
def runLength (best : Option (Nat × Nat)) : Nat := best.elim 0 fun r => r.2 - r.1

/-- The first of the longest runs of two or more zero fields, from a field up to another. -/
def zeroRun (fields : List Nat) : Option (Nat × Nat) :=
  (List.range fields.length).foldl (fun best i =>
    let j := i + ((fields.drop i).takeWhile (· == 0)).length
    if 2 ≤ j - i ∧ runLength best < j - i then some (i, j) else best) none

/-- Fields separated by colons. -/
def joinFields : List Nat → GoString
  | [] => []
  | [x] => appendHex x
  | x :: t => appendHex x ++ 0x3A :: joinFields t

/-- `appendTo6` without the zone. -/
def appendTo6 (ip : Nat) : GoString :=
  let fields := v6Fields ip
  match zeroRun fields with
  | none => joinFields fields
  | some (i, j) => joinFields (fields.take i) ++ [0x3A, 0x3A] ++ joinFields (fields.drop j)

/-- `appendTo4`. -/
def appendTo4 (ip : Nat) : GoString :=
  formatUint (ip / 2 ^ 24 % 256) ++ 0x2E :: formatUint (ip / 2 ^ 16 % 256)
    ++ 0x2E :: formatUint (ip / 2 ^ 8 % 256) ++ 0x2E :: formatUint (ip % 256)

/-- `netip.Addr.String` of a valid address. -/
def Addr.string : Addr → GoString
  | .v4 ip => appendTo4 ip.toNat
  | .v6 ip zone =>
    (if (Addr.v6 ip zone).is4In6 then str "::ffff:" ++ appendTo4 (ip.toNat % 2 ^ 32)
      else appendTo6 ip.toNat)
      ++ (if zone = [] then [] else 0x25 :: zone)

/-- `netip.Prefix.String` of a valid prefix. -/
def Prefix.string (p : Prefix) : GoString := p.addr.string ++ 0x2F :: formatUint p.bits

/-! ## Addresses with a port -/

/-- A valid `netip.AddrPort`. -/
structure AddrPort where
  addr : Addr
  port : UInt16
  deriving DecidableEq, Repr

/-- `splitAddrPort`: the address text, the port text, and whether the address stood in brackets. -/
def splitAddrPort (s : GoString) : Option (GoString × GoString × Bool) :=
  let port := (s.reverse.takeWhile (· != 0x3A)).reverse
  if port.length = s.length then none
  else
    let ip := s.take (s.length - port.length - 1)
    if ip = [] ∨ port = [] then none
    else if ip.head? = some 0x5B then
      if ip.length < 2 ∨ ip.getLast? ≠ some 0x5D then none
      else some ((ip.drop 1).dropLast, port, true)
    else some (ip, port, false)

/-- `netip.ParseAddrPort`: brackets around IPv6 addresses and around no others. -/
def parseAddrPort (s : GoString) : Option AddrPort := do
  let (ip, port, brackets) ← splitAddrPort s
  let n ← parseDigits port
  if n > 65535 then none
  else
    let a ← parseAddr ip
    match a, brackets with
    | .v4 _, true => none
    | .v6 _ _, false => none
    | _, _ => some ⟨a, UInt16.ofNat n⟩

/-- `netip.AddrPort.String` of a valid value. -/
def AddrPort.string (p : AddrPort) : GoString :=
  match p.addr with
  | .v4 _ => p.addr.string ++ 0x3A :: formatUint p.port.toNat
  | .v6 _ _ => 0x5B :: p.addr.string ++ [0x5D, 0x3A] ++ formatUint p.port.toNat

example : parseAddr (str "10.42.0.1") = some (.v4 0x0A2A0001) := by decide
example : parseAddr (str "10.042.0.1") = none := by decide
example : parseAddr (str "fe80::1%eth0")
    = some (.v6 0xFE800000000000000000000000000001 (str "eth0")) := by decide
example : parsePrefix (str "10.42.0.1/24") = some ⟨.v4 0x0A2A0001, 24, rfl⟩ := by decide
example : (parseAddr (str "2001:db8:0:0:1:0:0:1")).map Addr.string
    = some (str "2001:db8::1:0:0:1") := by
  decide +kernel
example : (parseAddr (str "::ffff:10.0.0.1%eth0")).map Addr.string
    = some (str "::ffff:10.0.0.1%eth0") := by decide +kernel
example : (parseAddrPort (str "[fe80::]:4789")).map AddrPort.string
    = some (str "[fe80::]:4789") := by
  decide +kernel

end Gsnet.Go
