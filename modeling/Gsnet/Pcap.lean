import Gsnet.Go.Binary

/-!
# Packet captures

`internal/pcap`: the libpcap savefile format, written and read. A file is a header of
24 bytes and then a record for every packet: 16 bytes with the time, the length that
was kept and the length there was, and what was kept. The writer is little-endian; the
reader goes by the magic number.

The bytes of a record say where it ends, so a reader that has got through the header
gets through the records one by one (`capture_read_back`).
-/

namespace Gsnet.Pcap

open Go

/-! ## Times -/

/-- A point in time, as `Unix()` and `Nanosecond()` give it. -/
structure Time where
  unix : Int64
  nanosecond : Nat
  nanosecond_lt : nanosecond < 1000000000
  deriving DecidableEq

/-- `time.Unix`, for nanoseconds that are not negative. -/
def unixTime (sec : Int64) (nsec : Nat) : Time :=
  ⟨sec + Int64.ofNat (nsec / 1000000000), nsec % 1000000000, Nat.mod_lt _ (by decide)⟩

/-- The time in whole microseconds. -/
def Time.truncate (t : Time) : Time :=
  ⟨t.unix, t.nanosecond / 1000 * 1000,
    Nat.lt_of_le_of_lt (Nat.div_mul_le_self _ _) t.nanosecond_lt⟩

structure Packet where
  time : Time
  data : GoString
  deriving DecidableEq

/-! ## Writing -/

/-- What has been written, to a writer that takes everything. -/
structure Writer where
  w : GoString
  linkType : UInt32
  snaplen : UInt32

/-- `NewWriter`. -/
def newWriter (linkType snaplen : UInt32) : Writer where
  w := lePutUint32 0xa1b2c3d4 ++ lePutUint16 2 ++ lePutUint16 4 ++ lePutUint32 0 ++ lePutUint32 0
    ++ lePutUint32 snaplen ++ lePutUint32 linkType
  linkType := linkType
  snaplen := snaplen

/-- How much of a packet is kept. -/
def captured (snaplen : UInt32) (data : GoString) : UInt32 :=
  if UInt32.ofNat data.length > snaplen then snaplen else UInt32.ofNat data.length

/-- `WritePacket`. -/
def Writer.writePacket (p : Writer) (packet : Packet) : Writer :=
  let cap := captured p.snaplen packet.data
  let hdr := lePutUint32 packet.time.unix.toUInt64.toUInt32
    ++ lePutUint32 (UInt32.ofNat (packet.time.nanosecond / 1000))
    ++ lePutUint32 cap ++ lePutUint32 (UInt32.ofNat packet.data.length)
  { p with w := p.w ++ hdr ++ packet.data.take cap.toNat }

/-- The file of these packets. -/
def written (linkType snaplen : UInt32) (packets : List Packet) : GoString :=
  (packets.foldl Writer.writePacket (newWriter linkType snaplen)).w

/-! ## Reading -/

inductive ReadError where
  | eof
  | unexpectedEOF
  /-- `pcap: bad magic 0x%08x`. -/
  | badMagic (magic : UInt32)
  deriving DecidableEq

/-- `io.ReadFull`, and what is left to be read. -/
def readFull (n : Nat) (r : GoString) : Except ReadError GoString × GoString :=
  if n ≤ r.length then (.ok (r.take n), r.drop n)
  else (.error (if r = [] then .eof else .unexpectedEOF), [])

structure Reader where
  r : GoString
  linkType : UInt32
  snaplen : UInt32
  little : Bool
  deriving DecidableEq

/-- A number in the byte order of the file. -/
def order (little : Bool) (b : GoString) : UInt32 := if little then leUint32 b else beUint32 b

/-- `NewReader`. -/
def newReader (r : GoString) : Except ReadError Reader :=
  match readFull 24 r with
  | (.error e, _) => .error e
  | (.ok hdr, rest) =>
    let magic := leUint32 hdr
    let reader := fun little =>
      { r := rest
        linkType := order little (hdr.drop 20)
        snaplen := order little (hdr.drop 16)
        little := little }
    if magic = 0xa1b2c3d4 then .ok (reader true)
    else if magic = 0xd4c3b2a1 then .ok (reader false)
    else .error (.badMagic magic)

/-- `Next`. -/
def Reader.next (rd : Reader) : Except ReadError Packet × Reader :=
  match readFull 16 rd.r with
  | (.error e, rest) => (.error e, { rd with r := rest })
  | (.ok hdr, rest) =>
    let sec := order rd.little hdr
    let usec := order rd.little (hdr.drop 4)
    let cap := order rd.little (hdr.drop 8)
    match readFull cap.toNat rest with
    | (.error e, rest) => (.error e, { rd with r := rest })
    | (.ok data, rest) =>
      (.ok ⟨unixTime sec.toUInt64.toInt64 (usec.toNat * 1000), data⟩, { rd with r := rest })

/-- What so many calls of `Next` return. -/
def Reader.nexts (rd : Reader) : Nat → List (Except ReadError Packet)
  | 0 => []
  | n + 1 => rd.next.1 :: rd.next.2.nexts n

/-! ## Reading back -/

theorem readFull_append {a : GoString} {n : Nat} (h : a.length = n) (t : GoString) :
    readFull n (a ++ t) = (.ok a, t) := by
  rw [readFull, if_pos (by rw [List.length_append]; omega), List.take_left' h, List.drop_left' h]

/-- A packet of which nothing is lost but what `snaplen` and microseconds leave out. -/
structure Packet.InRange (p : Packet) : Prop where
  time : Fits 32 p.time.unix
  data : p.data.length < 2 ^ 32

/-- What is kept of a packet. -/
def Packet.kept (snaplen : UInt32) (p : Packet) : Packet :=
  ⟨p.time.truncate, p.data.take (min p.data.length snaplen.toNat)⟩

theorem toNat_captured {snaplen : UInt32} {data : GoString} (h : data.length < 2 ^ 32) :
    (captured snaplen data).toNat = min data.length snaplen.toNat := by
  have hlen : (UInt32.ofNat data.length).toNat = data.length := by
    rw [UInt32.toNat_ofNat', Nat.mod_eq_of_lt h]
  unfold captured
  split
  · rename_i hgt
    rw [gt_iff_lt, UInt32.lt_iff_toNat_lt, hlen] at hgt
    omega
  · rename_i hle
    rw [gt_iff_lt, UInt32.lt_iff_toNat_lt, hlen] at hle
    omega

/-- Seconds come back. -/
theorem toInt64_sec {t : Int64} (h : Fits 32 t) : t.toUInt64.toUInt32.toUInt64.toInt64 = t := by
  have hsame := toUInt32_eq_iff.mpr h
  have hback := toNat_toUInt64 t.toUInt64.toUInt32.toUInt64.toInt64
  rw [UInt64.toUInt64_toInt64, UInt32.toNat_toUInt64, hsame] at hback
  obtain ⟨hpos, hlt⟩ := h
  have hlow := t.toUInt64.toUInt32.toUInt64.toInt64.le_toInt
  apply Int64.toInt_inj.mp
  split at hback <;> omega

/-- Microseconds come back, and no second is carried. -/
theorem unixTime_micro (t : Time) :
    unixTime t.unix ((UInt32.ofNat (t.nanosecond / 1000)).toNat * 1000) = t.truncate := by
  have hlt := t.nanosecond_lt
  have hmicro : (UInt32.ofNat (t.nanosecond / 1000)).toNat = t.nanosecond / 1000 := by
    rw [UInt32.toNat_ofNat', Nat.mod_eq_of_lt (by omega)]
  have hcarry : t.nanosecond / 1000 * 1000 / 1000000000 = 0 := by omega
  have hrest : t.nanosecond / 1000 * 1000 % 1000000000 = t.nanosecond / 1000 * 1000 := by omega
  simp only [unixTime, Time.truncate, hmicro, hcarry, hrest]
  simp

/-- The sixteen bytes in front of a packet. -/
def recordHeader (snaplen : UInt32) (p : Packet) : GoString :=
  lePutUint32 p.time.unix.toUInt64.toUInt32
    ++ lePutUint32 (UInt32.ofNat (p.time.nanosecond / 1000))
    ++ lePutUint32 (captured snaplen p.data) ++ lePutUint32 (UInt32.ofNat p.data.length)

/-- The bytes of a packet. -/
def record (snaplen : UInt32) (p : Packet) : GoString :=
  recordHeader snaplen p ++ p.data.take (captured snaplen p.data).toNat

theorem order_little (v : UInt32) (t : GoString) : order true (lePutUint32 v ++ t) = v := by
  rw [order, if_pos rfl, leUint32_append (length_lePutUint32 v), leUint32_lePutUint32]

/-- The numbers in a header are where they are looked for. -/
theorem order_recordHeader (snaplen : UInt32) (p : Packet) :
    order true (recordHeader snaplen p) = p.time.unix.toUInt64.toUInt32
      ∧ order true ((recordHeader snaplen p).drop 4) = UInt32.ofNat (p.time.nanosecond / 1000)
      ∧ order true ((recordHeader snaplen p).drop 8) = captured snaplen p.data := by
  refine ⟨?_, ?_, ?_⟩
  · rw [recordHeader, List.append_assoc, List.append_assoc]
    exact order_little _ _
  · exact order_little _ (lePutUint32 _ ++ lePutUint32 _)
  · exact order_little _ (lePutUint32 _)

/-- **A record is read as what is kept of its packet**, and nothing behind it is touched. -/
theorem next_record {rd : Reader} {snaplen : UInt32} {p : Packet} {rest : GoString}
    (hlittle : rd.little = true) (hr : rd.r = record snaplen p ++ rest) (hp : p.InRange) :
    rd.next = (.ok (p.kept snaplen), { rd with r := rest }) := by
  have hcap := @toNat_captured snaplen _ hp.data
  have hlen : (p.data.take (captured snaplen p.data).toNat).length
      = (captured snaplen p.data).toNat := by
    rw [List.length_take, hcap]
    omega
  have hhdr : readFull 16 rd.r = (.ok (recordHeader snaplen p),
      p.data.take (captured snaplen p.data).toNat ++ rest) := by
    rw [hr, record, List.append_assoc]
    exact readFull_append (by simp [recordHeader]) _
  obtain ⟨hsec, husec, hstored⟩ := order_recordHeader snaplen p
  simp only [Reader.next, hhdr, hlittle, hsec, husec, hstored, readFull_append hlen,
    toInt64_sec hp.time, unixTime_micro]
  rw [Packet.kept, hcap]

/-- At the end of the file, and ever after. -/
theorem next_end {rd : Reader} (hr : rd.r = []) : rd.next = (.error .eof, rd) := by
  have hend : readFull 16 rd.r = (.error .eof, []) := by
    rw [hr]
    rfl
  simp only [Reader.next, hend]
  rw [← hr]

theorem nexts_end {rd : Reader} (hr : rd.r = []) (k : Nat) :
    rd.nexts k = List.replicate k (.error .eof) := by
  induction k with
  | zero => rfl
  | succ k ih => rw [Reader.nexts, next_end hr, ih, List.replicate_succ]

/-- Records are read one by one, and then there is nothing left. -/
theorem nexts_records {rd : Reader} {snaplen : UInt32} {packets : List Packet}
    (hlittle : rd.little = true) (hr : rd.r = packets.flatMap (record snaplen))
    (hp : ∀ p ∈ packets, p.InRange) (k : Nat) :
    rd.nexts (packets.length + k)
      = packets.map (fun p => .ok (p.kept snaplen)) ++ List.replicate k (.error .eof) := by
  induction packets generalizing rd with
  | nil =>
      rw [List.length_nil, Nat.zero_add]
      exact nexts_end hr k
  | cons p packets ih =>
      obtain ⟨hfirst, hrest⟩ := List.forall_mem_cons.mp hp
      rw [List.flatMap_cons] at hr
      have hnext := next_record hlittle hr hfirst
      rw [List.length_cons, Nat.add_right_comm, Reader.nexts, hnext, List.map_cons,
        List.cons_append]
      exact congrArg _ (ih hlittle rfl hrest)

theorem foldl_writePacket (p : Writer) (packets : List Packet) :
    (packets.foldl Writer.writePacket p).w = p.w ++ packets.flatMap (record p.snaplen) := by
  induction packets generalizing p with
  | nil => simp
  | cons packet packets ih =>
      rw [List.foldl_cons, ih, List.flatMap_cons]
      simp only [Writer.writePacket, record, recordHeader, List.append_assoc]

/-- The header is read as it was written. -/
theorem newReader_newWriter (linkType snaplen : UInt32) (t : GoString) :
    newReader ((newWriter linkType snaplen).w ++ t) = .ok ⟨t, linkType, snaplen, true⟩ := by
  have hhdr : readFull 24 ((newWriter linkType snaplen).w ++ t)
      = (.ok (newWriter linkType snaplen).w, t) := readFull_append (by simp [newWriter]; rfl) t
  have hmagic : leUint32 (newWriter linkType snaplen).w = 0xa1b2c3d4 := by
    simp only [newWriter, List.append_assoc]
    rw [leUint32_append (length_lePutUint32 _), leUint32_lePutUint32]
  have hsnaplen : order true ((newWriter linkType snaplen).w.drop 16) = snaplen :=
    order_little _ (lePutUint32 _)
  have hlinkType : order true ((newWriter linkType snaplen).w.drop 20) = linkType :=
    order_little linkType []
  simp only [newReader, hhdr, hmagic, hsnaplen, hlinkType]
  rfl

example : newReader (newWriter 1 3).w = .ok ⟨[], 1, 3, true⟩ := by decide +kernel

/--
**A capture is read back**: the link type and the `snaplen` it was written with, then
every packet as far as it was kept, and then the end of the file, however often it is
asked for.
-/
theorem capture_read_back (linkType snaplen : UInt32) (packets : List Packet)
    (hp : ∀ p ∈ packets, p.InRange) :
    ∃ rd, newReader (written linkType snaplen packets) = .ok rd
      ∧ rd.linkType = linkType ∧ rd.snaplen = snaplen
      ∧ ∀ k, rd.nexts (packets.length + k)
        = packets.map (fun p => .ok (p.kept snaplen)) ++ List.replicate k (.error .eof) := by
  refine ⟨⟨packets.flatMap (record snaplen), linkType, snaplen, true⟩, ?_, rfl, rfl,
    nexts_records rfl rfl hp⟩
  rw [written, foldl_writePacket]
  exact newReader_newWriter linkType snaplen _

/-- Three bytes kept of five, at a time between two microseconds, and an empty packet. -/
def samplePackets : List Packet :=
  [⟨⟨1700000000, 123456789, by decide⟩, str "hello"⟩, ⟨⟨0, 0, by decide⟩, []⟩]

theorem capture_read_back_sample :
    ∃ rd, newReader (written 1 3 samplePackets) = .ok rd
      ∧ rd.nexts 3 = [.ok ⟨⟨1700000000, 123456000, by decide⟩, str "hel"⟩,
        .ok ⟨⟨0, 0, by decide⟩, []⟩, .error .eof] := by
  have hrange : ∀ p ∈ samplePackets, p.InRange := by
    intro p hp
    simp only [samplePackets, List.mem_cons, List.not_mem_nil, or_false] at hp
    rcases hp with rfl | rfl
    · exact ⟨by decide, by decide⟩
    · exact ⟨by decide, by decide⟩
  obtain ⟨rd, hrd, -, -, hnexts⟩ := capture_read_back 1 3 samplePackets hrange
  exact ⟨rd, hrd, (hnexts 1).trans (by decide)⟩

end Gsnet.Pcap
