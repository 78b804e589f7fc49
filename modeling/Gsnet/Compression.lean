import Gsnet.Go.Binary

/-!
# Compression of messages

`lz4Codec` of `internal/compression`: a block of the lz4 package with four bytes in
front. They are the length of what was compressed, so that the reader knows how much
room to make, and zero where the message itself follows.

The two uses meet. A message whose length is a multiple of 2^32 has the length zero in
four bytes, the empty message first of all, and a longer one is given less room than
it needs. What comes between is read back (`lz4_roundtrip_iff`).
-/

namespace Gsnet.Compression

open Go

/-- The block functions of the lz4 package; `none` is an error. -/
structure BlockFunctions where
  compressBlockBound : Nat → Nat
  /-- `CompressBlock`, for a buffer of the given length: what it has put there. -/
  compressBlock : GoString → Nat → Option GoString
  /-- `UncompressBlock`, for a buffer of the given length. -/
  uncompressBlock : GoString → Nat → Option GoString

/-- A block that is not empty is expanded wherever there is room. -/
def BlockFunctions.Lawful (lz4 : BlockFunctions) : Prop :=
  ∀ input bound block, lz4.compressBlock input bound = some block → block ≠ [] →
    ∀ room, input.length ≤ room → lz4.uncompressBlock block room = some input

inductive CompressionError where
  /-- `lz4: short input`. -/
  | shortInput
  /-- An error of the lz4 package. -/
  | block
  deriving DecidableEq

variable (lz4 : BlockFunctions)

/-- `Compress`. A block that stays empty means that the message cannot be compressed. -/
def compress (input : GoString) : Except CompressionError GoString :=
  match lz4.compressBlock input (lz4.compressBlockBound input.length) with
  | none => .error .block
  | some [] => .ok ([0, 0, 0, 0] ++ input)
  | some block => .ok (lePutUint32 (UInt32.ofNat input.length) ++ block)

/-- `Decompress`. -/
def decompress (input : GoString) : Except CompressionError GoString :=
  if input.length < 4 then .error .shortInput
  else
    let sz := leUint32 input
    let body := input.drop 4
    if sz = 0 then .ok body
    else match lz4.uncompressBlock body sz.toNat with
      | none => .error .block
      | some out => .ok out

variable {lz4}

/-- What `Decompress` makes of a size and a body. -/
theorem decompress_append (sz : UInt32) (body : GoString) :
    decompress lz4 (lePutUint32 sz ++ body)
      = if sz = 0 then .ok body
        else match lz4.uncompressBlock body sz.toNat with
          | none => .error .block
          | some out => .ok out := by
  rw [decompress, if_neg (by simp), leUint32_append (length_lePutUint32 sz), leUint32_lePutUint32]
  rfl

theorem toNat_ofNat_length (n : Nat) : (UInt32.ofNat n).toNat = n % 2 ^ 32 := UInt32.toNat_ofNat'

/-- A message that fits into four bytes and is not empty. -/
theorem decompress_compress {input out : GoString} (h : lz4.Lawful) (hpos : 0 < input.length)
    (hlt : input.length < 2 ^ 32) (hout : compress lz4 input = .ok out) :
    decompress lz4 out = .ok input := by
  have hsize : (UInt32.ofNat input.length).toNat = input.length := by
    rw [toNat_ofNat_length, Nat.mod_eq_of_lt hlt]
  have hne : UInt32.ofNat input.length ≠ 0 := by
    intro heq
    rw [heq] at hsize
    exact absurd hsize (Nat.ne_of_lt hpos)
  unfold compress at hout
  split at hout
  · cases hout
  · cases hout
    exact decompress_append 0 input
  · rename_i block hnil hblock
    cases hout
    rw [decompress_append, if_neg hne, hsize,
      h _ _ _ hblock (by simpa using hnil) _ (Nat.le_refl _)]

/-- Block functions that keep the message and put a byte behind it. -/
def literalBlocks : BlockFunctions where
  compressBlockBound n := n + 1
  compressBlock input _ := some (input ++ [0])
  uncompressBlock block room := if block.dropLast.length ≤ room then some block.dropLast else none

theorem literalBlocks_lawful : literalBlocks.Lawful := by
  intro input bound block hblock _ room hroom
  cases hblock
  simp only [literalBlocks, List.dropLast_concat]
  exact if_pos hroom

theorem compress_literalBlocks (input : GoString) :
    compress literalBlocks input
      = .ok (lePutUint32 (UInt32.ofNat input.length) ++ (input ++ [0])) := by
  cases input <;> rfl

/-- Other messages are not read back where they become a block. -/
theorem decompress_literalBlocks {input : GoString}
    (h : decompress literalBlocks (lePutUint32 (UInt32.ofNat input.length) ++ (input ++ [0]))
      = .ok input) : 0 < input.length ∧ input.length < 2 ^ 32 := by
  have hsize := toNat_ofNat_length input.length
  rw [decompress_append] at h
  split at h
  · exact absurd (Except.ok.inj h) (by simp)
  · rename_i hne
    have hpos : (UInt32.ofNat input.length).toNat ≠ 0 := fun h0 => hne (UInt32.toNat_inj.mp h0)
    simp only [literalBlocks, List.dropLast_concat] at h
    split at h
    · cases h
    · rename_i hroom
      split at hroom
      · omega
      · cases hroom

/--
**What was compressed is expanded again, whatever the block functions are,** if it is
not empty and its length fits into four bytes; and only then.
-/
theorem lz4_roundtrip_iff (input : GoString) :
    (∀ lz4 : BlockFunctions, lz4.Lawful → ∀ out, compress lz4 input = .ok out →
        decompress lz4 out = .ok input)
      ↔ 0 < input.length ∧ input.length < 2 ^ 32 := by
  constructor
  · intro h
    exact decompress_literalBlocks (h literalBlocks literalBlocks_lawful _
      (compress_literalBlocks input))
  · rintro ⟨hpos, hlt⟩ lz4 hlz4 out hout
    exact decompress_compress hlz4 hpos hlt hout

theorem lz4_roundtrip_three :
    compress literalBlocks [1, 2, 3] = .ok [3, 0, 0, 0, 1, 2, 3, 0]
      ∧ decompress literalBlocks [3, 0, 0, 0, 1, 2, 3, 0] = .ok [1, 2, 3] := by
  have hout : compress literalBlocks [1, 2, 3] = .ok [3, 0, 0, 0, 1, 2, 3, 0] := by decide
  exact ⟨hout, (lz4_roundtrip_iff [1, 2, 3]).mpr (by decide) _ literalBlocks_lawful _ hout⟩

/-- The empty message becomes a block, and the block is taken for the message. -/
theorem empty_message_grows :
    literalBlocks.Lawful ∧ compress literalBlocks [] = .ok [0, 0, 0, 0, 0]
      ∧ decompress literalBlocks [0, 0, 0, 0, 0] = .ok [0] :=
  ⟨literalBlocks_lawful, by decide, by decide⟩

end Gsnet.Compression
