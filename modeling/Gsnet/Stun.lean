import Gsnet.Go.Slice
import Gsnet.Go.Netip

/-!
# STUN responses

`internal/stun`: reading the answer to a Binding Request. The bytes are one UDP
datagram, from whoever sent it to the port; the header carries the length of the
attribute section and every attribute its own, and attributes are padded to
multiples of four bytes.
-/

namespace Gsnet.Stun

open Go

/-- The fixed value in every message after type and length. -/
def magicCookie : UInt32 := 0x2112A442

def bindingResponse : UInt16 := 0x0101
def attrMappedAddress : UInt16 := 0x0001
def attrXorMappedAddress : UInt16 := 0x0020

inductive Error where
  /-- `stun: short response (%d bytes)`. -/
  | shortResponse (n : Nat)
  /-- `stun: not a Binding Response`. -/
  | notBindingResponse
  /-- `stun: bad magic cookie`. -/
  | badMagicCookie
  /-- `errWrongTxID`: `stun: response for unrelated transaction`. -/
  | wrongTxID
  /-- `stun: declared length exceeds packet`. -/
  | declaredLength
  /-- `stun: attribute overruns message`. -/
  | attributeOverruns
  /-- `stun: response missing mapped address`. -/
  | missingMappedAddress
  /-- `stun: short XOR-MAPPED`. -/
  | shortXorMapped
  /-- `stun: short XOR-MAPPED v4`. -/
  | shortXorMapped4
  /-- `stun: short XOR-MAPPED v6`. -/
  | shortXorMapped6
  /-- `stun: IPv6 XOR-MAPPED not yet supported`. -/
  | xorMapped6
  /-- `stun: unknown family 0x%02x`. -/
  | unknownFamily (family : UInt8)
  /-- `stun: short MAPPED`. -/
  | shortMapped
  /-- `stun: family 0x%02x not supported`. -/
  | familyNotSupported (family : UInt8)
  deriving DecidableEq, Repr

abbrev Result := Except Error AddrPort

/-- `netip.AddrFrom4([4]byte(b))`: the conversion panics on a slice that is too short. -/
def addrFrom4 (b : GoString) : Outcome Addr :=
  if b.length < 4 then .panicked else .returned (.v4 (BitVec.ofNat 32 (bigEndian (b.take 4))))

/-- `decodeXorMapped`; the second argument is the magic cookie as the response has it. -/
def decodeXorMapped (val magic : GoString) : Outcome Result :=
  if val.length < 4 then return .error .shortXorMapped
  else do
    let family ← index val 1
    let xport ← slice val 2 4 >>= uint16
    let port := xport ^^^ (magicCookie >>> 16).toUInt16
    if family = 0x01 then
      if val.length < 8 then return .error .shortXorMapped4
      else
        let ip4 ← (List.range 4).mapM fun i => do
          let x ← index val (4 + i)
          let m ← index magic i
          return x ^^^ m
        let addr ← addrFrom4 ip4
        return .ok ⟨addr, port⟩
    else if family = 0x02 then
      if val.length < 20 then return .error .shortXorMapped6
      else
        -- copied, and then not used
        let _ip6 ← slice val 4 20
        return .error .xorMapped6
    else return .error (.unknownFamily family)

def decodeMapped (val : GoString) : Outcome Result :=
  if val.length < 8 then return .error .shortMapped
  else do
    let family ← index val 1
    let port ← slice val 2 4 >>= uint16
    if family = 0x01 then
      let addr ← slice val 4 8 >>= addrFrom4
      return .ok ⟨addr, port⟩
    else return .error (.familyNotSupported family)

/-- The loop over the transaction ID: the first difference ends it. -/
def sameTxID (b txid : GoString) : List Nat → Outcome Bool
  | [] => return true
  | i :: is => do
    let x ← index b (8 + i)
    let y ← index txid i
    if x ≠ y then return false else sameTxID b txid is

/-- How many bytes follow a value of that length. -/
def padding (ln : Nat) : Nat := (4 - ln % 4) % 4

/-- The loop over the attributes, for at most so many rounds. -/
def readAttrs (b : GoString) : Nat → GoString → Outcome Result
  | 0, _ => .running
  | rounds + 1, attrs =>
    if attrs.length < 4 then return .error .missingMappedAddress
    else do
      let typ ← slice attrs 0 2 >>= uint16
      let ln ← slice attrs 2 4 >>= uint16
      if attrs.length < 4 + ln.toNat then return .error .attributeOverruns
      else
        let val ← slice attrs 4 (4 + ln.toNat)
        if typ = attrXorMappedAddress then
          let magic ← slice b 4 8
          decodeXorMapped val magic
        else if typ = attrMappedAddress then decodeMapped val
        else
          -- the value has been compared with what is left, the padding has not
          let rest ← sliceFrom attrs (4 + ln.toNat + padding ln.toNat)
          readAttrs b rounds rest

/-- `parseResponse`. -/
def parseResponse (b txid : GoString) : Outcome Result :=
  if b.length < 20 then return .error (.shortResponse b.length)
  else do
    let typ ← slice b 0 2 >>= uint16
    if typ ≠ bindingResponse then return .error .notBindingResponse
    else
      let magic ← slice b 4 8 >>= uint32
      if magic ≠ magicCookie then return .error .badMagicCookie
      else
        let same ← sameTxID b txid (List.range 12)
        if same = false then return .error .wrongTxID
        else
          let msgLen ← slice b 2 4 >>= uint16
          if b.length < 20 + msgLen.toNat then return .error .declaredLength
          else
            let attrs ← slice b 20 (20 + msgLen.toNat)
            readAttrs b (attrs.length + 1) attrs

/-! ## Querying -/

inductive QueryError where
  /-- `ReadFromUDP`: the deadline has passed. -/
  | deadline
  | response (e : Error)
  deriving DecidableEq

/-- The size of the buffer a datagram is read into; what is longer is cut off. -/
def bufSize : Nat := 1500

/--
The loop of `Query` after the request was sent. The datagrams are the ones that
arrive on the socket before the deadline, from wherever they come.
-/
def receiveLoop (txid : GoString) : List GoString → Outcome (Except QueryError AddrPort)
  | [] => return .error .deadline
  | datagram :: later => do
    let r ← parseResponse (datagram.take bufSize) txid
    match r with
    | .ok ap => return .ok ap
    | .error e => if e = .wrongTxID then receiveLoop txid later else return .error (.response e)

end Gsnet.Stun
