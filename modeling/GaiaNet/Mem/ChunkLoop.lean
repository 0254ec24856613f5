import GaiaNet.Mem.Channel

/-! The chunk loop that `send` and `recv_body` share, for every length that the frame
header can carry. -/

namespace GaiaNet.Mem

open Lib Lib.Chunks

/-- The segments of one message from the chunk at `index` on. -/
def chunksAfter (size : Nat) (body : Bytes) (index : Nat) : List Bytes :=
  chunksFrom size body index (chunkCount size body.length - index)

theorem chunksAfter_of_lt (inside : index < chunkCount size body.length) :
    chunksAfter size body index = chunk size body index :: chunksAfter size body (index + 1) := by
  have one : chunkCount size body.length - index =
      (chunkCount size body.length - (index + 1)) + 1 := by omega
  rw [chunksAfter, one, chunksFrom]
  rfl

theorem chunksAfter_of_le (finished : chunkCount size body.length ≤ index) :
    chunksAfter size body index = [] := by
  rw [chunksAfter, Nat.sub_eq_zero_of_le finished, chunksFrom]

/-- The loop locals before the chunk at `index` of a body of the given length; `pos` wraps
like the `int` it is. -/
structure ChunkLoop.At (loop : ChunkLoop) (size length index : Nat) : Prop where
  chunkSize : loop.chunkSize.toNat = size
  chunkCnt : loop.chunkCnt = chunkCount size length
  i : loop.i = index
  pos : index * size < length → loop.pos = Int32.ofNat (index * size)
  bodyLen : loop.bodyLen.toNat = length - index * size

/-- Chunk sizes the constructor lets through, as far as the loops need them. -/
structure LegalSize (bufSize : UInt32) : Prop where
  low : 8 ≤ bufSize.toNat
  high : bufSize.toNat ≤ 2 ^ 30

/-- The rounding up of `chunk_cnt` does not wrap. -/
theorem ChunkLoop.At.start (legal : LegalSize bufSize)
    (fits : length + bufSize.toNat ≤ 2 ^ 32) :
    (ChunkLoop.start (UInt32.ofNat length) bufSize).At bufSize.toNat length 0 := by
  have low := legal.low
  have same : (UInt32.ofNat length).toNat = length := by
    rw [UInt32.toNat_ofNat']
    omega
  refine ⟨rfl, ?_, rfl, ?_, ?_⟩
  · have one : (1 : UInt32).toNat = 1 := rfl
    have sum : (UInt32.ofNat length + bufSize - 1).toNat = length + bufSize.toNat - 1 := by
      rw [UInt32.toNat_sub, UInt32.toNat_add, same, one]
      omega
    rw [ChunkLoop.start, UInt32.toNat_div, sum]
    rfl
  · intro _
    rw [Nat.zero_mul]
    rfl
  · simp [ChunkLoop.start, same]

namespace ChunkLoop.At

variable {loop : ChunkLoop} {size length index : Nat}

theorem len (state : loop.At size length index) :
    loop.len.toNat = min size (length - index * size) := by
  rw [ChunkLoop.len, toNat_min, state.chunkSize, state.bodyLen, Nat.min_comm]

theorem offset (state : loop.At size length index) (more : index * size < length)
    (signed : index * size < 2 ^ 31) : loop.pos.toInt = (index * size : Nat) := by
  rw [state.pos more, Int32.toInt_ofNat_of_lt signed]

theorem inside (state : loop.At size length index) (more : index * size < length)
    (signed : index * size < 2 ^ 31) (room : length ≤ total) : loop.inside total = true := by
  have len := state.len
  have pos := state.offset more signed
  rw [ChunkLoop.inside, decide_eq_true_iff]
  omega

/-- At `2 ^ 31` the position has become negative. -/
theorem negative (state : loop.At size length index) (more : index * size < length)
    (wrapped : index * size = 2 ^ 31) : loop.pos.toInt = -2 ^ 31 := by
  rw [state.pos more, wrapped]
  rfl

theorem next (state : loop.At size length index) : loop.next.At size length (index + 1) := by
  have len := state.len
  have rest := state.bodyLen
  have step : (index + 1) * size = index * size + size := Nat.succ_mul index size
  refine ⟨state.chunkSize, state.chunkCnt, ?_, ?_, ?_⟩
  · rw [ChunkLoop.next, state.i]
  · intro more
    have whole : loop.len.toInt32 = Int32.ofNat size := by
      have same := (Int32.ofNat_bitVecToNat loop.len.toBitVec).symm
      rw [show loop.len.toBitVec.toNat = size from len.trans (by omega)] at same
      exact same
    rw [ChunkLoop.next, state.pos (by omega), whole, step, Int32.ofNat_add]
  · have bound := loop.bodyLen.toNat_lt
    rw [ChunkLoop.next, UInt32.toNat_sub]
    omega

end ChunkLoop.At

theorem length_fastResize (str : RawString) (size : Nat) : (fastResize str size).length = size := by
  rw [fastResize, List.length_append, List.length_take, List.length_replicate]
  omega

/-- Assembling the next chunk extends the initialised front of the string. -/
theorem overwrite_chunk {str : RawString} {body : Bytes} (length : str.length = body.length)
    (front : str.take (index * size) = (body.take (index * size)).map some)
    (room : index * size < body.length) :
    (overwrite str (index * size) (chunk size body index)).length = body.length ∧
      (overwrite str (index * size) (chunk size body index)).take ((index + 1) * size) =
        (body.take ((index + 1) * size)).map some := by
  have piece := length_chunk size body index
  have step : (index + 1) * size = index * size + size := Nat.succ_mul index size
  constructor
  · simp only [overwrite, List.length_append, List.length_take, List.length_map, List.length_drop]
    omega
  · have joined : body.take (index * size) ++ chunk size body index =
        body.take ((index + 1) * size) := by
      rw [step, List.take_add, chunk]
    have covered : (body.take ((index + 1) * size)).length =
        min ((index + 1) * size) body.length := List.length_take
    rw [overwrite, front, ← List.map_append, joined, List.take_append, List.take_of_length_le
      (by rw [List.length_map]; omega), List.length_map, covered]
    by_cases last : body.length ≤ (index + 1) * size
    · have rest : str.drop (index * size + (chunk size body index).length) = [] :=
        List.drop_eq_nil_of_le (by omega)
      rw [rest]
      simp
    · rw [Nat.min_eq_left (by omega), Nat.sub_self]
      simp

/-- The ranges `[pos, pos + len)` of the next `count` iterations. -/
def ChunkLoop.ranges (loop : ChunkLoop) : Nat → List (Int × Nat)
  | 0 => []
  | count + 1 => (loop.pos.toInt, loop.len.toNat) :: loop.next.ranges count

/-- The offsets in a range, in order. -/
def offsets (range : Int × Nat) : List Int :=
  (List.range range.2).map fun (offset : Nat) => range.1 + offset

/-- What the chunk loop of `send` hands to `write`, iteration by iteration; `none` if it
leaves the message. -/
def Producer.chunkWrites (bufSize : UInt32) : Nat → Producer → Option (List Bytes)
  | 0, _ => none
  | fuel + 1, producer =>
    match producer.action bufSize with
    | some (.write buf len next) =>
      (next.chunkWrites bufSize fuel).map fun writes => buf.take len.toNat :: writes
    | some (.local _) => some []
    | _ => none

/-- What the chunk loop of `recv_body` makes of the bytes that come out of the ring; `none`
if it leaves the string or wants more bytes. -/
def Consumer.chunkReads (bufSize : UInt32) : Nat → Bytes → Consumer → Option (List RawString)
  | 0, _, _ => none
  | fuel + 1, ring, consumer =>
    match consumer.action bufSize with
    | some (.read len next) =>
      if len.toNat ≤ ring.length then
        (next (ring.take len.toNat)).chunkReads bufSize fuel (ring.drop len.toNat)
      else none
    | some (.local next) => if ring = [] then some next.returned else none
    | _ => none

/-- The chunk loop over a body partitions it: as ranges, as the writes of `send`, and as
the reads of `recv_body` into a string of that length, whatever it holds before. -/
structure ChunksCover (bufSize : UInt32) (body : Bytes) : Prop where
  ranges : ((ChunkLoop.start (UInt32.ofNat body.length) bufSize).ranges
      (ChunkLoop.start (UInt32.ofNat body.length) bufSize).chunkCnt).flatMap offsets =
    (List.range body.length).map Int.ofNat
  sent : ∀ todo stats, ∃ writes, Producer.chunkWrites bufSize
      ((ChunkLoop.start (UInt32.ofNat body.length) bufSize).chunkCnt + 1)
      ⟨todo, .chunks body (ChunkLoop.start (UInt32.ofNat body.length) bufSize), stats⟩ = some writes ∧
    writes.flatten = body
  received : ∀ str todo returned stats, str.length = body.length →
    Consumer.chunkReads bufSize
      ((ChunkLoop.start (UInt32.ofNat body.length) bufSize).chunkCnt + 1) body
      ⟨todo, .chunks str (ChunkLoop.start (UInt32.ofNat str.length) bufSize), returned, stats⟩ =
    some (returned ++ [body.map some])

namespace ChunkLoop.At

variable {loop : ChunkLoop} {size length index : Nat}

/-- Up to `2 ^ 31` the iterations still to come cover the rest of the body. -/
theorem covers (state : loop.At size length index) (positive : 0 < size)
    (signed : length ≤ 2 ^ 31) (left : index + count = chunkCount size length) :
    (loop.ranges count).flatMap offsets =
      (List.range' (index * size) (length - index * size)).map Int.ofNat := by
  induction count generalizing loop index with
  | zero =>
    have done := lt_chunkCount index length positive
    have none : length - index * size = 0 := by omega
    rw [none]
    rfl
  | succ count ih =>
    have more := (lt_chunkCount index length positive).mp (by omega)
    have step : (index + 1) * size = index * size + size := Nat.succ_mul index size
    have here : offsets (loop.pos.toInt, loop.len.toNat) =
        (List.range' (index * size) (min size (length - index * size))).map Int.ofNat := by
      rw [offsets, state.offset more (by omega), state.len, List.range'_eq_map_range, List.map_map]
      exact List.map_congr_left fun offset _ => rfl
    rw [ChunkLoop.ranges, List.flatMap_cons, here, ih state.next (by omega), ← List.map_append]
    congr 1
    by_cases last : length ≤ (index + 1) * size
    · rw [Nat.min_eq_right (by omega), Nat.sub_eq_zero_of_le last]
      exact List.append_nil _
    · rw [Nat.min_eq_left (by omega), step, List.range'_append_1]
      congr 1
      omega

/-- Every iteration's range is in the list. -/
theorem range_mem (state : loop.At size length index) (inside : later < count) :
    ∃ reached : ChunkLoop, reached.At size length (index + later) ∧
      (reached.pos.toInt, reached.len.toNat) ∈ loop.ranges count := by
  induction count generalizing loop index later with
  | zero => omega
  | succ count ih =>
    cases later with
    | zero => exact ⟨loop, state, List.mem_cons_self⟩
    | succ later =>
      obtain ⟨reached, at_, member⟩ := ih state.next (Nat.lt_of_succ_lt_succ inside)
      rw [Nat.add_right_comm] at at_
      exact ⟨reached, at_, List.mem_cons_of_mem _ member⟩

theorem writes {body : Bytes} (state : loop.At size body.length index) (positive : 0 < size)
    (signed : body.length ≤ 2 ^ 31) (left : index + count = chunkCount size body.length)
    (todo : List Bytes) (stats : Statistics) :
    ∃ writes, Producer.chunkWrites bufSize (count + 1) ⟨todo, .chunks body loop, stats⟩ =
        some writes ∧ writes.flatten = body.drop (index * size) := by
  induction count generalizing loop index with
  | zero =>
    have done := lt_chunkCount index body.length positive
    have guard : ¬ loop.i < loop.chunkCnt := by rw [state.i, state.chunkCnt]; omega
    refine ⟨[], ?_, ?_⟩
    · simp [Producer.chunkWrites, Producer.action, guard]
    · rw [List.drop_eq_nil_of_le (by omega)]
      rfl
  | succ count ih =>
    have more := (lt_chunkCount index body.length positive).mp (by omega)
    have step : (index + 1) * size = index * size + size := Nat.succ_mul index size
    have guard : loop.i < loop.chunkCnt := by rw [state.i, state.chunkCnt]; omega
    obtain ⟨writes, found, joined⟩ := ih state.next (by omega)
    have pos : loop.pos.toInt.toNat = index * size := by
      rw [state.offset more (by omega)]
      omega
    refine ⟨(body.drop (index * size)).take loop.len.toNat :: writes, ?_, ?_⟩
    · rw [Producer.chunkWrites]
      simp only [Producer.action, guard, ↓reduceIte, state.inside more (by omega) (Nat.le_refl _),
        found, pos, Option.map_some]
    · have piece : (body.drop (index * size)).take (min size (body.length - index * size)) =
          (body.drop (index * size)).take size := by
        simp [List.take_eq_take_iff]
      rw [List.flatten_cons, joined, state.len, piece, step, ← List.drop_drop,
        List.take_append_drop]

theorem reads {body : Bytes} {str : RawString} (state : loop.At size body.length index)
    (positive : 0 < size) (signed : body.length ≤ 2 ^ 31)
    (left : index + count = chunkCount size body.length) (length : str.length = body.length)
    (front : str.take (index * size) = (body.take (index * size)).map some)
    (todo : List Bytes) (returned : List RawString) (stats : Statistics) :
    Consumer.chunkReads bufSize (count + 1) (body.drop (index * size))
      ⟨todo, .chunks str loop, returned, stats⟩ = some (returned ++ [body.map some]) := by
  induction count generalizing loop index str with
  | zero =>
    have done := lt_chunkCount index body.length positive
    have guard : ¬ loop.i < loop.chunkCnt := by rw [state.i, state.chunkCnt]; omega
    rw [List.take_of_length_le (by omega), List.take_of_length_le (by omega)] at front
    rw [List.drop_eq_nil_of_le (by omega)]
    simp [Consumer.chunkReads, Consumer.action, guard, front]
  | succ count ih =>
    have more := (lt_chunkCount index body.length positive).mp (by omega)
    have step : (index + 1) * size = index * size + size := Nat.succ_mul index size
    have guard : loop.i < loop.chunkCnt := by rw [state.i, state.chunkCnt]; omega
    have len := state.len
    have pos : loop.pos.toInt.toNat = index * size := by
      rw [state.offset more (by omega)]
      omega
    have piece : (body.drop (index * size)).take loop.len.toNat = chunk size body index := by
      rw [len, chunk]
      simp [List.take_eq_take_iff]
    have rest : (body.drop (index * size)).drop loop.len.toNat = body.drop ((index + 1) * size) := by
      rw [List.drop_drop, len, step]
      by_cases last : body.length ≤ index * size + size
      · rw [List.drop_eq_nil_of_le last, List.drop_eq_nil_of_le (by omega)]
      · rw [Nat.min_eq_left (by omega)]
    obtain ⟨kept, extended⟩ := overwrite_chunk length front more
    rw [Consumer.chunkReads]
    simp only [Consumer.action, guard, ↓reduceIte, length,
      state.inside more (by omega) (Nat.le_refl _), List.length_drop, piece, rest, pos]
    rw [if_pos (by omega)]
    exact ih state.next (by omega) kept extended

end ChunkLoop.At

theorem LegalSize.ofPower (low : 3 ≤ exponent) (high : exponent ≤ 30)
    (size : bufSize.toNat = 2 ^ exponent) : LegalSize bufSize := by
  refine ⟨?_, ?_⟩ <;> rw [size]
  · exact Nat.pow_le_pow_right (by omega : 0 < 2) low
  · exact Nat.pow_le_pow_right (by omega) high

/-- Where the rounding up wraps, `chunk_cnt` is 0. -/
theorem ChunkLoop.start_wrapped (legal : LegalSize bufSize) (carried : length < 2 ^ 32)
    (wrapped : 2 ^ 32 < length + bufSize.toNat) :
    (ChunkLoop.start (UInt32.ofNat length) bufSize).chunkCnt = 0 := by
  have low := legal.low
  have bound := bufSize.toNat_lt
  have one : (1 : UInt32).toNat = 1 := rfl
  have same : (UInt32.ofNat length).toNat = length := by
    rw [UInt32.toNat_ofNat']
    omega
  have sum : (UInt32.ofNat length + bufSize - 1).toNat = length + bufSize.toNat - 1 - 2 ^ 32 := by
    rw [UInt32.toNat_sub, UInt32.toNat_add, same, one]
    omega
  rw [ChunkLoop.start, UInt32.toNat_div, sum]
  exact Nat.div_eq_of_lt (by omega)

/-- The chunk at which `pos` has reached `2 ^ 31`. -/
theorem signed_chunk {bufSize : UInt32} (high : exponent ≤ 30) (size : bufSize.toNat = 2 ^ exponent) :
    2 ^ (31 - exponent) * bufSize.toNat = 2 ^ 31 := by
  rw [size, ← Nat.pow_add]
  congr 1
  omega

/-- Beyond `2 ^ 31` bytes the loop uses a negative position, or does not run at all. -/
theorem not_chunksCover {body : Bytes} (low : 3 ≤ exponent) (high : exponent ≤ 30)
    (size : bufSize.toNat = 2 ^ exponent) (carried : body.length < 2 ^ 32)
    (long : 2 ^ 31 < body.length) : ¬ ChunksCover bufSize body := by
  intro cover
  have legal := LegalSize.ofPower low high size
  have positive : 0 < bufSize.toNat := by
    have low := legal.low
    omega
  have ranges := cover.ranges
  rcases Nat.lt_or_ge (2 ^ 32) (body.length + bufSize.toNat) with wrapped | fits
  · rw [ChunkLoop.start_wrapped legal carried wrapped] at ranges
    have none := congrArg List.length ranges
    rw [List.length_map, List.length_range] at none
    have zero : 0 = body.length := none
    omega
  · have state := ChunkLoop.At.start legal fits
    have reached := signed_chunk high size
    have inside := (lt_chunkCount (2 ^ (31 - exponent)) body.length positive).mpr (by omega)
    rw [← state.chunkCnt] at inside
    obtain ⟨loop, at_, member⟩ := state.range_mem inside
    rw [Nat.zero_add] at at_
    have first : loop.pos.toInt ∈ offsets (loop.pos.toInt, loop.len.toNat) := by
      refine List.mem_map.mpr ⟨0, List.mem_range.mpr ?_, Int.add_zero _⟩
      change 0 < loop.len.toNat
      rw [at_.len]
      omega
    have covered := List.mem_flatMap.mpr ⟨_, member, first⟩
    rw [ranges] at covered
    obtain ⟨offset, -, same⟩ := List.mem_map.mp covered
    rw [at_.negative (by omega) reached] at same
    have natural : (Int.ofNat offset) ≥ 0 := Int.natCast_nonneg offset
    omega

/-- For every body whose length fits the frame header and every buffer size that the
constructor accepts: the chunk loops of `send` and `recv_body` cover it exactly if and
only if it has at most `2 ^ 31` bytes. -/
theorem chunks_cover_iff (bufSize : UInt32) (exponent : Nat) (body : Bytes) (low : 3 ≤ exponent)
    (high : exponent ≤ 30) (size : bufSize.toNat = 2 ^ exponent) (carried : body.length < 2 ^ 32) :
    ChunksCover bufSize body ↔ body.length ≤ 2 ^ 31 := by
  constructor
  · intro cover
    exact Nat.not_lt.mp fun long => not_chunksCover low high size carried long cover
  · intro signed
    have legal := LegalSize.ofPower low high size
    have positive : 0 < bufSize.toNat := by
      have low := legal.low
      omega
    have high := legal.high
    have state := ChunkLoop.At.start legal (show body.length + bufSize.toNat ≤ 2 ^ 32 by omega)
    have count := state.chunkCnt
    refine ⟨?_, fun todo stats => ?_, fun str todo returned stats length => ?_⟩
    · rw [count, state.covers positive signed (Nat.zero_add _), Nat.zero_mul, Nat.sub_zero,
        List.range_eq_range']
    · rw [count]
      simpa using state.writes positive signed (Nat.zero_add _) todo stats
    · rw [count, length]
      simpa using state.reads positive signed (Nat.zero_add _) length (by simp) todo returned stats

/-- Ten bytes through a buffer of eight. -/
theorem chunks_cover_ten : ChunksCover 8 [1, 2, 3, 4, 5, 6, 7, 8, 9, 10] :=
  (chunks_cover_iff 8 3 [1, 2, 3, 4, 5, 6, 7, 8, 9, 10] (by decide) (by decide) rfl
    (by decide)).mpr (by decide)

/-- The default buffer of 16 KiB and one byte more than the position can count. -/
theorem chunks_miss : ¬ ChunksCover 16384 (List.replicate (2 ^ 31 + 1) 0) := by
  refine not_chunksCover (by decide : 3 ≤ 14) (by decide) rfl ?_ ?_ <;>
    rw [List.length_replicate] <;> decide

end GaiaNet.Mem
