import GaiaNet.Grpc.Frames

/-! `send_with_compress` and `recv_with_decompress` of channel.cpp over any LZ4 library:
for which strings the transfer is lossless. -/

namespace GaiaNet.Grpc

/-- The calls on LZ4. The two that fill a buffer take its bytes and give those it holds
afterwards. -/
structure Lz4 where
  compressBound : (inputSize : Int) → Int
  compressDefault : (src dst : Bytes) → (srcSize dstCapacity : Int) → Int × Bytes
  decompressSafe : (src dst : Bytes) → (compressedSize dstCapacity : Int) → Int × Bytes

/-- `LZ4_MAX_INPUT_SIZE`. -/
def lz4MaxInputSize : Nat := 0x7E000000

/-- What the channel relies on. -/
structure Lz4.Lawful (lz4 : Lz4) : Prop where
  bound : ∀ len : Nat, len ≤ lz4MaxInputSize →
    lz4.compressBound len = (len + len / 255 + 16 : Nat)
  noBound : ∀ len : Int, len < 0 ∨ (lz4MaxInputSize : Int) < len → lz4.compressBound len = 0
  compresses : ∀ (src dst : Bytes) (len cap : Nat), len ≤ lz4MaxInputSize → len ≤ src.length →
    lz4.compressBound len = cap → dst.length = cap →
    ∃ (realLen : Nat) (filled : Bytes),
      lz4.compressDefault src dst len cap = ((realLen : Int), filled) ∧ realLen ≤ cap ∧
      filled.length = cap ∧
      ∀ out : Bytes, out.length = len →
        lz4.decompressSafe (filled.take realLen) out realLen len = ((len : Int), src.take len)
  refuses : ∀ (src dst : Bytes) (len : Int), (lz4.compressDefault src dst len 0).1 = 0
  within : ∀ (src dst : Bytes) (size cap : Int),
    (lz4.decompressSafe src dst size cap).2.length = dst.length

/-- Why the two functions end without a string: `resize` throws, or an `int` is read
past the end of a string. -/
inductive StringAbort where
  | lengthError
  | shortString
  deriving DecidableEq, Repr

/-- `std::string::resize`, called with an `int`. -/
def resize (str : Bytes) (size : Int) : Except StringAbort Bytes :=
  if size < 0 then .error .lengthError
  else .ok (str.take size.toNat ++ List.replicate (size.toNat - str.length) 0)

/-- Four bytes of an `int`. -/
def intBytes (value : Int) : Bytes := Lib.LittleEndian.encode 4 (value % 2 ^ 32).toNat

/-- `get_lz4_compress_str`: the return value of LZ4 is not checked. -/
def getLz4CompressStr (lz4 : Lz4) (data : Bytes) (len : Int) : Except StringAbort Bytes := do
  let cap := lz4.compressBound len
  let ret ← resize [] (addInt cap 4)
  let (realLen, filled) := lz4.compressDefault data (ret.drop 4) len cap
  resize (intBytes len ++ filled) (addInt realLen 4)

/-- `get_lz4_decompress_str`: neither is this one. -/
def getLz4DecompressStr (lz4 : Lz4) (data : Bytes) (len : Int) : Except StringAbort Bytes :=
  match frameIndex data with
  | none => .error .shortString
  | some originLen => do
    let ret ← resize [] originLen
    return (lz4.decompressSafe (data.drop 4) ret (addInt len (-4)) originLen).2

/-- A 64-bit length as an `int`. -/
def narrowInt (length : UInt64) : Int := (length.toNat : Int).bmod (2 ^ 32)

/-- `send_with_compress`: the string it hands to `real_send`. -/
def sendWithCompress (lz4 : Lz4) (buf : Bytes) (nbytes : UInt64) : Except StringAbort Bytes :=
  getLz4CompressStr lz4 buf (narrowInt nbytes)

/-- `recv_with_decompress` on the string `real_recv` gives it. -/
def recvWithDecompress (lz4 : Lz4) (compressStr : Bytes) : Except StringAbort Bytes :=
  getLz4DecompressStr lz4 compressStr (narrowInt (UInt64.ofNat compressStr.length))

/-- The string comes back as it was, or nothing is sent. -/
def LosslessOrRefused (lz4 : Lz4) (str : Bytes) : Prop :=
  match sendWithCompress lz4 str (UInt64.ofNat str.length) with
  | .ok compressStr => recvWithDecompress lz4 compressStr = .ok str
  | .error _ => True

/-- What a buffer of zero bytes holds after it was to receive an empty block. -/
def Lz4.leaves (lz4 : Lz4) (len : Nat) : Bytes :=
  (lz4.decompressSafe [] (List.replicate len 0) 0 len).2

theorem resize_nil (len : Nat) : resize [] (len : Int) = .ok (List.replicate len 0) := by
  have positive : ¬ (len : Int) < 0 := by omega
  unfold resize
  rw [if_neg positive]
  simp

theorem narrowInt_ofNat (len : Nat) : narrowInt (UInt64.ofNat len) = (len : Int).bmod (2 ^ 32) := by
  have same : ((len % 2 ^ 64 : Nat) : Int) % ((2 ^ 32 : Nat) : Int) =
      (len : Int) % ((2 ^ 32 : Nat) : Int) := by
    omega
  unfold narrowInt
  rw [UInt64.toNat_ofNat', ← Int.emod_bmod, same, Int.emod_bmod]

theorem narrowInt_small {len : Nat} (small : len < 2 ^ 31) :
    narrowInt (UInt64.ofNat len) = len := by
  rw [narrowInt_ofNat, bmod_nat small]

theorem addInt_four {len : Nat} (small : len + 4 < 2 ^ 31) : addInt len 4 = (len + 4 : Nat) := by
  unfold addInt
  rw [← bmod_nat small]
  rfl

theorem addInt_minus_four {len : Nat} (small : len + 4 < 2 ^ 31) :
    addInt (len + 4 : Nat) (-4) = len := by
  have same : ((len + 4 : Nat) : Int) + -4 = (len : Nat) := by omega
  unfold addInt
  rw [same, bmod_nat (by omega)]

@[simp] theorem length_intBytes (value : Int) : (intBytes value).length = 4 :=
  Lib.LittleEndian.length_encode 4 _

/-- A length within the limit: the string holds the length and a block of its bytes. -/
theorem compress_small {lz4 : Lz4} (lawful : lz4.Lawful) {data : Bytes} {len : Nat}
    (small : len ≤ lz4MaxInputSize) (enough : len ≤ data.length) :
    ∃ block, getLz4CompressStr lz4 data len = .ok (intBytes len ++ block) ∧
      block.length + 4 < 2 ^ 31 ∧
      ∀ out : Bytes, out.length = len →
        lz4.decompressSafe block out block.length len = ((len : Int), data.take len) := by
  have limit : lz4MaxInputSize = 0x7E000000 := rfl
  have cap := lawful.bound len small
  generalize sized : len + len / 255 + 16 = size at cap
  have fits : size + 4 < 2 ^ 31 := by omega
  obtain ⟨realLen, filled, done, inside, length, inverse⟩ := lawful.compresses data
    (List.replicate size 0) len size small enough cap List.length_replicate
  have block : (filled.take realLen).length = realLen := by
    rw [List.length_take]
    omega
  refine ⟨filled.take realLen, ?_, ?_, ?_⟩
  · have dst : (List.replicate (size + 4) (0 : UInt8)).drop 4 = List.replicate size 0 := by
      simp
    unfold getLz4CompressStr
    simp only [cap, addInt_four fits, resize_nil, bind, Except.bind, dst, done,
      addInt_four (show realLen + 4 < 2 ^ 31 by omega)]
    unfold resize
    have positive : ¬ ((realLen + 4 : Nat) : Int) < 0 := by omega
    have whole : realLen + 4 - (intBytes len ++ filled).length = 0 := by
      rw [List.length_append, length_intBytes]
      omega
    rw [if_neg positive, Int.toNat_natCast, whole, List.replicate_zero, List.append_nil,
      Nat.add_comm realLen 4, List.take_append, length_intBytes, Nat.add_sub_cancel_left,
      List.take_of_length_le (by simp)]
  · omega
  · rw [block]
    exact inverse

/-- Any other length: the string holds the length and nothing else. -/
theorem compress_large {lz4 : Lz4} (lawful : lz4.Lawful) (data : Bytes) (len : Int)
    (large : len < 0 ∨ (lz4MaxInputSize : Int) < len) :
    getLz4CompressStr lz4 data len = .ok (intBytes len) := by
  have cap := lawful.noBound len large
  have four : addInt 0 4 = 4 := by decide
  unfold getLz4CompressStr
  simp only [cap, four, bind, Except.bind]
  have made : resize [] 4 = .ok [0, 0, 0, 0] := rfl
  simp only [made, lawful.refuses, four]
  unfold resize
  simp

theorem recvWithDecompress_block (lz4 : Lz4) {len : Nat} (small : len < 2 ^ 31) (block : Bytes)
    (fits : block.length + 4 < 2 ^ 31) :
    recvWithDecompress lz4 (intBytes len ++ block) =
      .ok (lz4.decompressSafe block (List.replicate len 0) block.length len).2 := by
  have length : (intBytes len ++ block).length = block.length + 4 := by
    rw [List.length_append, length_intBytes, Nat.add_comm]
  have index : frameIndex (intBytes len ++ block) = some (len : Int) :=
    frameIndex_int (by omega) (by omega) block
  unfold recvWithDecompress getLz4DecompressStr
  rw [index, length, narrowInt_small fits, addInt_minus_four fits,
    List.drop_left' (length_intBytes _)]
  simp only [resize_nil, bind, Except.bind]
  rfl

/-- `send_with_compress` never fails. -/
theorem sendWithCompress_ok {lz4 : Lz4} (lawful : lz4.Lawful) (str : Bytes) :
    ∃ compressStr, sendWithCompress lz4 str (UInt64.ofNat str.length) = .ok compressStr := by
  unfold sendWithCompress
  rw [narrowInt_ofNat]
  by_cases small : 0 ≤ (str.length : Int).bmod (2 ^ 32) ∧
      (str.length : Int).bmod (2 ^ 32) ≤ (lz4MaxInputSize : Int)
  · obtain ⟨len, same⟩ := Int.eq_ofNat_of_zero_le small.1
    rw [same] at small ⊢
    have enough : len ≤ str.length := by
      have shorter : (str.length : Int).bmod (2 ^ 32) ≤ str.length := by
        rw [Int.bmod_def]
        split <;> omega
      omega
    obtain ⟨block, done, -⟩ := compress_small lawful (Int.ofNat_le.mp small.2) enough
    exact ⟨_, done⟩
  · exact ⟨_, compress_large lawful str _ (by omega)⟩

/-- `recv_with_decompress` returns no string of `2 ^ 31` bytes or more. -/
theorem recvWithDecompress_lt {lz4 : Lz4} (lawful : lz4.Lawful)
    (received : recvWithDecompress lz4 compressStr = .ok str) : str.length < 2 ^ 31 := by
  unfold recvWithDecompress getLz4DecompressStr at received
  cases found : frameIndex compressStr with
  | none =>
    rw [found] at received
    cases received
  | some originLen =>
    have high : originLen < 2 ^ 31 := by
      unfold frameIndex at found
      split at found
      · cases found
      · rw [← Option.some.inj found]
        exact Int.bmod_lt (by decide)
    rw [found] at received
    simp only [bind, Except.bind] at received
    cases sized : resize [] originLen with
    | error abort =>
      rw [sized] at received
      cases received
    | ok ret =>
      rw [sized] at received
      cases received
      rw [lawful.within]
      unfold resize at sized
      split at sized
      · cases sized
      · cases sized
        simp only [List.take_nil, List.nil_append, List.length_replicate, List.length_nil]
        omega

/-- Strings of `2 ^ 31` bytes or more are sent and never come back. -/
theorem not_lossless_of_long {lz4 : Lz4} (lawful : lz4.Lawful) {str : Bytes}
    (long : 2 ^ 31 ≤ str.length) : ¬ LosslessOrRefused lz4 str := by
  obtain ⟨compressStr, sent⟩ := sendWithCompress_ok lawful str
  unfold LosslessOrRefused
  rw [sent]
  intro received
  exact Nat.not_lt.mpr long (recvWithDecompress_lt lawful received)

/-- The transfer is lossless up to the limit of LZ4, and from there to `2 ^ 31` bytes for
the one string of each length that the receiver's buffer holds anyway. -/
theorem compressed_transfer_lossless {lz4 : Lz4} (lawful : lz4.Lawful) (str : Bytes) :
    LosslessOrRefused lz4 str ↔
      str.length ≤ lz4MaxInputSize ∨ str.length < 2 ^ 31 ∧ lz4.leaves str.length = str := by
  have limit : lz4MaxInputSize < 2 ^ 31 := by decide
  rcases Nat.lt_or_ge str.length (2 ^ 31) with short | long
  · have len := narrowInt_small short
    unfold LosslessOrRefused sendWithCompress
    rw [len]
    rcases Nat.lt_or_ge lz4MaxInputSize str.length with large | small
    · have sent := compress_large lawful str str.length (Or.inr (Int.ofNat_lt.mpr large))
      have received := recvWithDecompress_block lz4 short [] (by decide)
      rw [List.append_nil] at received
      simp only [sent, received]
      constructor
      · intro same
        exact Or.inr ⟨short, Except.ok.inj same⟩
      · rintro (small | ⟨-, same⟩)
        · exact absurd large (Nat.not_lt.mpr small)
        · exact congrArg Except.ok same
    · obtain ⟨block, sent, fits, inverse⟩ := compress_small lawful small (Nat.le_refl str.length)
      have received := recvWithDecompress_block lz4 short block fits
      rw [inverse _ List.length_replicate, List.take_length] at received
      simp only [sent, received]
      exact ⟨fun _ => Or.inl small, fun _ => trivial⟩
  · refine ⟨fun lossless => absurd lossless (not_lossless_of_long lawful long), ?_⟩
    rintro (small | ⟨short, -⟩)
    · exact absurd (Nat.lt_of_le_of_lt small limit) (Nat.not_lt.mpr long)
    · exact absurd short (Nat.not_lt.mpr long)

/-! A library that compresses to one run of literals, as LZ4 does with short strings. -/

namespace Literals

/-- What a length adds to the 15 its token holds. -/
def lengthBytes (len : Nat) : Bytes := List.replicate (len / 255) 255 ++ [UInt8.ofNat (len % 255)]

def readLength : Bytes → Option (Nat × Bytes)
  | [] => none
  | byte :: rest =>
    if byte = 255 then (readLength rest).map fun (len, body) => (len + 255, body)
    else some (byte.toNat, rest)

def block (str : Bytes) : Bytes :=
  if str.length < 15 then UInt8.ofNat (16 * str.length) :: str
  else 240 :: (lengthBytes (str.length - 15) ++ str)

def unblock : Bytes → Option Bytes
  | [] => none
  | token :: rest =>
    if token.toNat % 16 ≠ 0 then none
    else if token = 240 then
      match readLength rest with
      | some (len, body) => if body.length = len + 15 then some body else none
      | none => none
    else if rest.length = token.toNat / 16 then some rest else none

theorem readLength_lengthBytes (len : Nat) (body : Bytes) :
    readLength (lengthBytes len ++ body) = some (len, body) := by
  have last : readLength ([UInt8.ofNat (len % 255)] ++ body) = some (len % 255, body) := by
    have below : len % 255 < 255 := Nat.mod_lt _ (by decide)
    have other : UInt8.ofNat (len % 255) ≠ 255 := by
      intro same
      have numbers := congrArg UInt8.toNat same
      rw [UInt8.toNat_ofNat', Nat.mod_eq_of_lt (by omega)] at numbers
      exact absurd numbers (Nat.ne_of_lt below)
    simp only [List.singleton_append, readLength, if_neg other, UInt8.toNat_ofNat']
    rw [Nat.mod_eq_of_lt (by omega)]
  have runs (n rest : Nat) (tail : Bytes) (read : readLength tail = some (rest, body)) :
      readLength (List.replicate n 255 ++ tail) = some (rest + 255 * n, body) := by
    induction n with
    | zero => simpa using read
    | succ n ih =>
      rw [List.replicate_succ, List.cons_append, readLength, if_pos rfl, ih]
      simp only [Option.map_some, Option.some.injEq, Prod.mk.injEq, and_true]
      omega
  unfold lengthBytes
  rw [List.append_assoc, runs _ _ _ last, Nat.mod_add_div]

theorem unblock_block (str : Bytes) : unblock (block str) = some str := by
  unfold block
  split
  · rename_i short
    have token : (UInt8.ofNat (16 * str.length)).toNat = 16 * str.length := by
      rw [UInt8.toNat_ofNat']
      omega
    have other : UInt8.ofNat (16 * str.length) ≠ 240 := by
      intro same
      have numbers := congrArg UInt8.toNat same
      rw [token] at numbers
      have far : (240 : UInt8).toNat = 240 := rfl
      omega
    simp only [unblock, token, if_neg other, Nat.mul_mod_right, ne_eq, not_true_eq_false, if_false,
      Nat.mul_div_cancel_left str.length (show 0 < 16 by decide), if_true]
  · rename_i long
    have back : str.length = str.length - 15 + 15 := by omega
    simp only [unblock, readLength_lengthBytes]
    rw [if_neg (by decide), if_true, if_pos back]

theorem length_block (str : Bytes) :
    0 < (block str).length ∧ (block str).length ≤ str.length + str.length / 255 + 16 := by
  unfold block lengthBytes
  split
  · simp only [List.length_cons]
    omega
  · simp only [List.length_cons, List.length_append, List.length_replicate, List.length_nil]
    omega

/-- The three calls; a block that is not one run of literals is invalid. -/
def lz4 : Lz4 where
  compressBound inputSize :=
    if 0 ≤ inputSize ∧ inputSize ≤ lz4MaxInputSize then inputSize + inputSize / 255 + 16 else 0
  compressDefault src dst srcSize dstCapacity :=
    let made := block (src.take srcSize.toNat)
    if 0 ≤ srcSize ∧ srcSize ≤ lz4MaxInputSize ∧ (made.length : Int) ≤ dstCapacity then
      ((made.length : Int), made ++ dst.drop made.length)
    else (0, dst)
  decompressSafe src dst compressedSize dstCapacity :=
    match unblock (src.take compressedSize.toNat) with
    | some str =>
      if (str.length : Int) ≤ dstCapacity ∧ str.length ≤ dst.length then
        ((str.length : Int), str ++ dst.drop str.length)
      else (-1, dst)
    | none => (-1, dst)

theorem lz4_lawful : lz4.Lawful where
  bound len small := by
    have inside : (0 : Int) ≤ len ∧ (len : Int) ≤ lz4MaxInputSize := by omega
    simp only [lz4]
    rw [if_pos inside]
    omega
  noBound len outside := by
    have apart : ¬ (0 ≤ len ∧ len ≤ (lz4MaxInputSize : Int)) := by omega
    simp only [lz4]
    rw [if_neg apart]
  compresses src dst len cap small enough bound length := by
    have inside : (0 : Int) ≤ len ∧ (len : Int) ≤ lz4MaxInputSize := by omega
    have taken : (src.take len).length = len := by
      rw [List.length_take]
      omega
    obtain ⟨-, fits⟩ := length_block (src.take len)
    simp only [lz4, if_pos inside] at bound
    rw [taken] at fits
    have room : ((block (src.take len)).length : Int) ≤ cap := by omega
    refine ⟨(block (src.take len)).length,
      block (src.take len) ++ dst.drop (block (src.take len)).length, ?_, by omega, ?_, ?_⟩
    · simp only [lz4, Int.toNat_natCast]
      rw [if_pos ⟨inside.1, inside.2, room⟩]
    · rw [List.length_append, List.length_drop]
      omega
    · intro out sized
      simp only [lz4, Int.toNat_natCast, List.take_left, List.take_length, unblock_block, taken]
      rw [if_pos ⟨Int.le_refl _, by omega⟩, ← sized, List.drop_length, List.append_nil]
  refuses src dst len := by
    obtain ⟨some, -⟩ := length_block (src.take len.toNat)
    have full : ¬ (0 ≤ len ∧ len ≤ (lz4MaxInputSize : Int) ∧
        ((block (src.take len.toNat)).length : Int) ≤ 0) := by
      omega
    simp only [lz4]
    rw [if_neg full]
  within src dst size cap := by
    simp only [lz4]
    cases unblock (src.take size.toNat) with
    | none => rfl
    | some str =>
      simp only
      split
      · rw [List.length_append, List.length_drop]
        omega
      · rfl

/-- Only the bytes within the length are read. -/
theorem compress_take (data : Bytes) (len : Int) :
    getLz4CompressStr lz4 data len = getLz4CompressStr lz4 (data.take len.toNat) len := by
  have same (dst : Bytes) (cap : Int) : lz4.compressDefault data dst len cap =
      lz4.compressDefault (data.take len.toNat) dst len cap := by
    simp only [lz4, List.take_take, Nat.min_self]
  unfold getLz4CompressStr
  simp only [same]

end Literals

theorem compressed_transfer_lossless_three : LosslessOrRefused Literals.lz4 [1, 2, 3] :=
  (compressed_transfer_lossless Literals.lz4_lawful [1, 2, 3]).mpr (Or.inl (by decide))

/-- Of `2 ^ 32 + 3` bytes three arrive, and no call fails. -/
theorem compressed_transfer_truncates :
    Literals.lz4.Lawful ∧
      ¬ LosslessOrRefused Literals.lz4 (List.replicate (2 ^ 32 + 3) 7) ∧
      sendWithCompress Literals.lz4 (List.replicate (2 ^ 32 + 3) 7) (UInt64.ofNat (2 ^ 32 + 3)) =
        .ok [3, 0, 0, 0, 48, 7, 7, 7] ∧
      recvWithDecompress Literals.lz4 [3, 0, 0, 0, 48, 7, 7, 7] = .ok [7, 7, 7] := by
  refine ⟨Literals.lz4_lawful, not_lossless_of_long Literals.lz4_lawful ?_, ?_, ?_⟩
  · rw [List.length_replicate]
    decide
  · have three : narrowInt (UInt64.ofNat (2 ^ 32 + 3)) = 3 := by decide
    have kept : (List.replicate (2 ^ 32 + 3) (7 : UInt8)).take (3 : Int).toNat = [7, 7, 7] := by
      rw [List.take_replicate]
      rfl
    unfold sendWithCompress
    rw [three, Literals.compress_take, kept]
    rfl
  · have short : 3 < 2 ^ 31 := by decide
    have received := recvWithDecompress_block Literals.lz4 short [48, 7, 7, 7] (by decide)
    have plain : (Literals.lz4.decompressSafe [48, 7, 7, 7] (List.replicate 3 0) 4 3).2 =
        [7, 7, 7] := by
      decide
    exact received.trans (congrArg Except.ok plain)

end GaiaNet.Grpc
