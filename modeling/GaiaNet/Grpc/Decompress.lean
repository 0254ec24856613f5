import GaiaNet.Grpc.Compress

/-! `recv_with_decompress` on any received string: neither the length header nor the answer of
LZ4 is checked. -/

namespace GaiaNet.Grpc

/-- What LZ4 promises of `LZ4_decompress_safe`, for the blocks that `decode` takes. The lengths
of blocks are `int`. -/
structure Lz4.Decodes (lz4 : Lz4) (decode : Bytes → Option Bytes) : Prop where
  short : ∀ block str, decode block = some str → block.length < 2 ^ 31
  valid : ∀ (src dst : Bytes) (size cap : Nat) (str : Bytes), size ≤ src.length → dst.length = cap →
    decode (src.take size) = some str → str.length ≤ cap →
    ∃ rest, lz4.decompressSafe src dst size cap = ((str.length : Int), str ++ rest)
  invalid : ∀ (src dst : Bytes) (size cap : Nat), size ≤ src.length → size < 2 ^ 31 →
    dst.length = cap → (∀ str, decode (src.take size) = some str → cap < str.length) →
    (lz4.decompressSafe src dst size cap).1 < 0
  within : ∀ (src dst : Bytes) (size cap : Int),
    (lz4.decompressSafe src dst size cap).2.length = dst.length

/-- `recv_with_decompress(std::string&)` once `real_recv` has returned: the caller's string is
swapped with the plain one at the end. -/
def recvWithDecompressInto (lz4 : Lz4) (compressStr str : Bytes) : Except StringAbort Unit × Bytes :=
  match recvWithDecompress lz4 compressStr with
  | .ok plainStr => (.ok (), plainStr)
  | .error abort => (.error abort, str)

/-- The string is the length of the plain one and a block that decompresses to it. -/
def IsFrame (decode : Bytes → Option Bytes) (compressStr plainStr : Bytes) : Prop :=
  4 ≤ compressStr.length ∧ frameIndex compressStr = some (plainStr.length : Int) ∧
    decode (compressStr.drop 4) = some plainStr

/-- A call hands out the string that the frame holds, or fails and leaves the caller's string as
it was, and reads no byte outside of the frame: the four of the header and those given to LZ4. -/
structure NeverCorrupt (lz4 : Lz4) (decode : Bytes → Option Bytes) (compressStr : Bytes) : Prop where
  delivers : ∀ str plainStr, recvWithDecompressInto lz4 compressStr str = (.ok (), plainStr) →
    IsFrame decode compressStr plainStr
  fails : ∀ str abort left, recvWithDecompressInto lz4 compressStr str = (.error abort, left) →
    abort = .lengthError ∧ left = str
  header : 4 ≤ compressStr.length
  block : addInt (narrowInt (UInt64.ofNat compressStr.length)) (-4) ≤ (compressStr.drop 4).length

/-- The header is negative, or the exact length of what the rest decompresses to. -/
def WellFramed (decode : Bytes → Option Bytes) (compressStr : Bytes) : Prop :=
  4 ≤ compressStr.length ∧ ∃ originLen, frameIndex compressStr = some originLen ∧
    (originLen < 0 ∨ ∃ str, decode (compressStr.drop 4) = some str ∧ (str.length : Int) = originLen)

theorem frameIndex_whole {frame : Bytes} (whole : 4 ≤ frame.length) :
    ∃ idx, frameIndex frame = some idx := by
  unfold frameIndex
  rw [if_neg (by omega)]
  exact ⟨_, rfl⟩

/-- The length that LZ4 is given, with the wrapping `int` arithmetic of the call. -/
theorem blockSize_eq (compressStr : Bytes) :
    addInt (narrowInt (UInt64.ofNat compressStr.length)) (-4) =
      ((compressStr.length : Int) - 4).bmod (2 ^ 32) := by
  rw [narrowInt_ofNat]
  exact Int.bmod_add_bmod

theorem blockSize_le {compressStr : Bytes} (whole : 4 ≤ compressStr.length) :
    addInt (narrowInt (UInt64.ofNat compressStr.length)) (-4) ≤ (compressStr.drop 4).length := by
  rw [blockSize_eq, List.length_drop, Int.bmod_def]
  split <;> omega

theorem blockSize_small {compressStr : Bytes} (whole : 4 ≤ compressStr.length)
    (short : (compressStr.drop 4).length < 2 ^ 31) :
    addInt (narrowInt (UInt64.ofNat compressStr.length)) (-4) = (compressStr.drop 4).length := by
  rw [List.length_drop] at short ⊢
  rw [blockSize_eq, show (compressStr.length : Int) - 4 = (compressStr.length - 4 : Nat) by omega,
    bmod_nat short]

theorem recvWithDecompress_negative (lz4 : Lz4) (read : frameIndex compressStr = some originLen)
    (negative : originLen < 0) : recvWithDecompress lz4 compressStr = .error .lengthError := by
  unfold recvWithDecompress getLz4DecompressStr
  rw [read]
  simp only [resize, if_pos negative]
  rfl

theorem recvWithDecompress_buffer (lz4 : Lz4) {originLen : Nat}
    (read : frameIndex compressStr = some (originLen : Int)) :
    recvWithDecompress lz4 compressStr =
      .ok (lz4.decompressSafe (compressStr.drop 4) (List.replicate originLen 0)
        (addInt (narrowInt (UInt64.ofNat compressStr.length)) (-4)) originLen).2 := by
  unfold recvWithDecompress getLz4DecompressStr
  rw [read]
  simp only [resize_nil, bind, Except.bind]
  rfl

theorem recvWithDecompressInto_error (failed : recvWithDecompress lz4 compressStr = .error abort) (str : Bytes) :
    recvWithDecompressInto lz4 compressStr str = (.error abort, str) := by
  unfold recvWithDecompressInto
  rw [failed]

theorem recvWithDecompressInto_ok (done : recvWithDecompress lz4 compressStr = .ok plainStr) (str : Bytes) :
    recvWithDecompressInto lz4 compressStr str = (.ok (), plainStr) := by
  unfold recvWithDecompressInto
  rw [done]

/-- A block that decompresses to as much as the header says fills the buffer. -/
theorem WellFramed.neverCorrupt {lz4 : Lz4} (contract : lz4.Decodes decode)
    (framed : WellFramed decode compressStr) : NeverCorrupt lz4 decode compressStr := by
  obtain ⟨whole, originLen, read, negative | ⟨plain, decoded, length⟩⟩ := framed
  · have failed := recvWithDecompress_negative lz4 read negative
    refine ⟨fun str plainStr done => ?_, fun str abort left done => ?_, whole, blockSize_le whole⟩
    · rw [recvWithDecompressInto_error failed] at done
      cases done
    · rw [recvWithDecompressInto_error failed] at done
      cases done
      exact ⟨rfl, rfl⟩
  · subst length
    have size := blockSize_small whole (contract.short _ _ decoded)
    have all : decode ((compressStr.drop 4).take (compressStr.drop 4).length) = some plain := by
      rw [List.take_length]
      exact decoded
    obtain ⟨rest, filled⟩ := contract.valid (compressStr.drop 4) (List.replicate plain.length 0)
      (compressStr.drop 4).length plain.length plain (Nat.le_refl _) List.length_replicate all
      (Nat.le_refl _)
    have within := contract.within (compressStr.drop 4) (List.replicate plain.length 0)
      (compressStr.drop 4).length plain.length
    have done := recvWithDecompress_buffer lz4 read
    rw [size, filled] at done
    rw [filled, List.length_append, List.length_replicate] at within
    have nothing : rest = [] := List.eq_nil_of_length_eq_zero (by omega)
    rw [nothing, List.append_nil] at done
    refine ⟨fun str plainStr into => ?_, fun str abort left into => ?_, whole, blockSize_le whole⟩
    · rw [recvWithDecompressInto_ok done] at into
      cases into
      exact ⟨whole, read, decoded⟩
    · rw [recvWithDecompressInto_ok done] at into
      cases into

/-- A received string is never turned into wrong data exactly when its header is negative, or the
length of what its block decompresses to. -/
theorem decompress_never_corrupt (lz4 : Lz4) (decode : Bytes → Option Bytes)
    (contract : lz4.Decodes decode) (compressStr : Bytes) :
    NeverCorrupt lz4 decode compressStr ↔ WellFramed decode compressStr := by
  refine ⟨fun never => ?_, WellFramed.neverCorrupt contract⟩
  obtain ⟨originLen, read⟩ := frameIndex_whole never.header
  refine ⟨never.header, originLen, read, ?_⟩
  rcases Int.lt_or_le originLen 0 with negative | positive
  · exact Or.inl negative
  · obtain ⟨length, rfl⟩ := Int.eq_ofNat_of_zero_le positive
    have done := recvWithDecompressInto_ok (recvWithDecompress_buffer lz4 read) []
    obtain ⟨-, header, decoded⟩ := never.delivers [] _ done
    rw [read] at header
    exact Or.inr ⟨_, decoded, (Option.some.inj header).symm⟩

namespace Literals

/-- What the one run of literals holds, where the length of the block is an `int`. -/
def decode (block : Bytes) : Option Bytes := if block.length < 2 ^ 31 then unblock block else none

theorem decode_some {bytes str : Bytes} (decoded : decode bytes = some str) :
    bytes.length < 2 ^ 31 ∧ unblock bytes = some str := by
  unfold decode at decoded
  split at decoded
  · rename_i short
    exact ⟨short, decoded⟩
  · cases decoded

theorem lz4_decodes : lz4.Decodes decode where
  short _ _ decoded := (decode_some decoded).1
  valid src dst size cap str _ sized decoded fits := by
    obtain ⟨-, run⟩ := decode_some decoded
    refine ⟨dst.drop str.length, ?_⟩
    simp only [lz4, Int.toNat_natCast, run]
    rw [if_pos ⟨Int.ofNat_le.mpr fits, by omega⟩]
  invalid src dst size cap enough short _ refused := by
    have length : (src.take size).length = size := by
      rw [List.length_take]
      omega
    simp only [lz4, Int.toNat_natCast]
    cases run : unblock (src.take size) with
    | none => exact (by decide : (-1 : Int) < 0)
    | some str =>
      have decoded : decode (src.take size) = some str := by
        unfold decode
        rw [if_pos (by omega), run]
      have full := refused str decoded
      simp only
      rw [if_neg (by omega)]
      exact (by decide : (-1 : Int) < 0)
  within := lz4_lawful.within

end Literals

/-- The frame that holds three bytes. -/
theorem decompress_never_corrupt_three :
    NeverCorrupt Literals.lz4 Literals.decode [3, 0, 0, 0, 48, 7, 7, 7] := by
  have read : frameIndex [3, 0, 0, 0, 48, 7, 7, 7] = some 3 := by decide +kernel
  refine (decompress_never_corrupt Literals.lz4 Literals.decode Literals.lz4_decodes _).mpr
    ⟨by decide, 3, read, Or.inr ⟨[7, 7, 7], ?_, rfl⟩⟩
  decide

/-- An invalid block is handed out as five zero bytes, and an empty string is read past its end. -/
theorem decompress_corrupt :
    Literals.lz4.Decodes Literals.decode ∧
      recvWithDecompressInto Literals.lz4 [5, 0, 0, 0, 255] [1] = (.ok (), [0, 0, 0, 0, 0]) ∧
      Literals.decode [255] = none ∧
      ¬ NeverCorrupt Literals.lz4 Literals.decode [5, 0, 0, 0, 255] ∧
      ¬ NeverCorrupt Literals.lz4 Literals.decode [] := by
  have done : recvWithDecompressInto Literals.lz4 [5, 0, 0, 0, 255] [1] =
      (.ok (), [0, 0, 0, 0, 0]) := by
    have read : frameIndex [5, 0, 0, 0, 255] = some ((5 : Nat) : Int) := by decide +kernel
    rw [recvWithDecompressInto_ok (recvWithDecompress_buffer Literals.lz4 read)]
    have left : (Literals.lz4.decompressSafe [255] (List.replicate 5 0) 1 5).2 =
        [0, 0, 0, 0, 0] := by
      decide
    exact congrArg (Prod.mk (Except.ok ())) left
  have invalid : Literals.decode [255] = none := by decide
  refine ⟨Literals.lz4_decodes, done, invalid, fun never => ?_, fun never => ?_⟩
  · obtain ⟨-, -, decoded⟩ := never.delivers [1] _ done
    cases invalid.symm.trans decoded
  · exact absurd never.header (by decide)

end GaiaNet.Grpc
