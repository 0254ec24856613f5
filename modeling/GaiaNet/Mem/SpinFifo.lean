import GaiaNet.Mem.Spin

/-! The lock-free ring is a queue of bytes: what half-finished calls of both sides
know about a counter that the other side keeps moving. -/

namespace GaiaNet.Mem

open Lib Lib.Circular Lib.Transition

theorem ofNat_sub_toNat {low high : Nat} (order : low ≤ high) (close : high - low < 2 ^ 32) :
    (UInt32.ofNat high - UInt32.ofNat low).toNat = high - low := by
  rw [UInt32.toNat_sub, UInt32.toNat_ofNat', UInt32.toNat_ofNat']
  omega

theorem Represents.span (rep : Represents view consumed queued) {low high : Nat}
    (order : low ≤ high) (close : high ≤ low + view.bufSize.toNat) :
    (UInt32.ofNat high - UInt32.ofNat low).toNat = high - low := by
  have bound := rep.bufSize_le
  exact ofNat_sub_toNat order (by omega)

/-- What the writer has loaded: its own counter, and a value the other one had when
at least `slack` more bytes fitted. -/
structure WriterLoads (capacity consumed published slack : Nat) (loads : Loads) : Prop where
  inPos : ∀ value, loads.inPos = some value → value = UInt32.ofNat published
  outPos : ∀ value, loads.outPos = some value → ∃ old, value = UInt32.ofNat old ∧
    old ≤ consumed ∧ published + slack ≤ old + capacity

/-- What the reader has loaded: its own counter, and a value the other one had when
at least `least` bytes were stored. -/
structure ReaderLoads (consumed published least : Nat) (loads : Loads) : Prop where
  outPos : ∀ value, loads.outPos = some value → value = UInt32.ofNat consumed
  inPos : ∀ value, loads.inPos = some value → ∃ old, value = UInt32.ofNat old ∧
    old ≤ published ∧ consumed + least ≤ old

/-- Length of the first copy of a block that begins at a total position. -/
def firstCopy (capacity total length : Nat) : Nat :=
  min length (capacity - total % capacity)

/-- How far a running `write` of `buf` has got. -/
def PutAt (capacity : Nat) (buffer : Nat → UInt8) (consumed : Nat) (queued buf : Bytes) :
    CopyPc → Prop
  | .guard loads => WriterLoads capacity consumed (consumed + queued.length) 0 loads
  | .clamp loads => queued.length + buf.length ≤ capacity ∧
    WriterLoads capacity consumed (consumed + queued.length) buf.length loads
  | .part len => queued.length + buf.length ≤ capacity ∧ len.toNat = buf.length
  | .place len l => queued.length + buf.length ≤ capacity ∧ len.toNat = buf.length ∧
    l.toNat = firstCopy capacity (consumed + queued.length) buf.length
  | .head len l offset copied => queued.length + buf.length ≤ capacity ∧
    len.toNat = buf.length ∧ l.toNat = firstCopy capacity (consumed + queued.length) buf.length ∧
    offset.toNat = (consumed + queued.length) % capacity ∧ copied ≤ l.toNat ∧
    Holds capacity buffer consumed (queued ++ buf.take copied)
  | .tail len l copied => queued.length + buf.length ≤ capacity ∧
    len.toNat = buf.length ∧ l.toNat = firstCopy capacity (consumed + queued.length) buf.length ∧
    copied ≤ buf.length - l.toNat ∧
    Holds capacity buffer consumed (queued ++ buf.take (l.toNat + copied))
  | .update len => queued.length + buf.length ≤ capacity ∧ len.toNat = buf.length ∧
    Holds capacity buffer consumed (queued ++ buf)

/-- How far a running `read` of `size` bytes has got. -/
def GetAt (capacity consumed : Nat) (queued : Bytes) (size : UInt32)
    (bytes : Bytes) : CopyPc → Prop
  | .guard loads => bytes = [] ∧ ReaderLoads consumed (consumed + queued.length) 0 loads
  | .clamp loads => size.toNat ≤ queued.length ∧ bytes = [] ∧
    ReaderLoads consumed (consumed + queued.length) size.toNat loads
  | .part len => size.toNat ≤ queued.length ∧ bytes = [] ∧ len = size
  | .place len l => size.toNat ≤ queued.length ∧ bytes = [] ∧ len = size ∧
    l.toNat = firstCopy capacity consumed size.toNat
  | .head len l offset copied => size.toNat ≤ queued.length ∧ len = size ∧
    l.toNat = firstCopy capacity consumed size.toNat ∧
    offset.toNat = consumed % capacity ∧ copied ≤ l.toNat ∧ bytes = queued.take copied
  | .tail len l copied => size.toNat ≤ queued.length ∧ len = size ∧
    l.toNat = firstCopy capacity consumed size.toNat ∧ copied ≤ size.toNat - l.toNat ∧
    bytes = queued.take (l.toNat + copied)
  | .update len => size.toNat ≤ queued.length ∧ len = size ∧ bytes = queued.take size.toNat

theorem WriterLoads.none (capacity consumed published slack : Nat) :
    WriterLoads capacity consumed published slack .none :=
  ⟨fun _ found => (nomatch found), fun _ found => (nomatch found)⟩

theorem ReaderLoads.none (consumed published least : Nat) :
    ReaderLoads consumed published least .none :=
  ⟨fun _ found => (nomatch found), fun _ found => (nomatch found)⟩

theorem Loads.both_eq {loads : Loads} (loaded : loads.both = some (input, output)) :
    loads.inPos = some input ∧ loads.outPos = some output := by
  obtain ⟨first, second⟩ := loads
  cases first <;> cases second <;> simp_all [Loads.both]

theorem WriterLoads.load (rep : Represents view consumed queued)
    (known : WriterLoads view.bufSize.toNat consumed (consumed + queued.length) slack loads)
    (room : queued.length + slack ≤ view.bufSize.toNat)
    (loaded : loads.load view order = some after) :
    WriterLoads view.bufSize.toNat consumed (consumed + queued.length) slack after := by
  cases order with
  | inPos =>
    simp only [Loads.load, Option.ite_none_right_eq_some, Option.some.injEq] at loaded
    obtain ⟨-, rfl⟩ := loaded
    refine ⟨fun value found => ?_, known.outPos⟩
    cases found
    exact rep.inPos
  | outPos =>
    simp only [Loads.load, Option.ite_none_right_eq_some, Option.some.injEq] at loaded
    obtain ⟨-, rfl⟩ := loaded
    refine ⟨known.inPos, fun value found => ?_⟩
    cases found
    exact ⟨consumed, rep.outPos, Nat.le_refl _, by omega⟩

theorem ReaderLoads.load (rep : Represents view consumed queued)
    (known : ReaderLoads consumed (consumed + queued.length) least loads)
    (stored : least ≤ queued.length) (loaded : loads.load view order = some after) :
    ReaderLoads consumed (consumed + queued.length) least after := by
  cases order with
  | inPos =>
    simp only [Loads.load, Option.ite_none_right_eq_some, Option.some.injEq] at loaded
    obtain ⟨-, rfl⟩ := loaded
    refine ⟨known.outPos, fun value found => ?_⟩
    cases found
    exact ⟨consumed + queued.length, rep.inPos, Nat.le_refl _, by omega⟩
  | outPos =>
    simp only [Loads.load, Option.ite_none_right_eq_some, Option.some.injEq] at loaded
    obtain ⟨-, rfl⟩ := loaded
    refine ⟨fun value found => ?_, known.inPos⟩
    cases found
    exact rep.outPos

/-- The guard of `write` judged by a stale `out` is right: the reader only makes room. -/
theorem WriterLoads.room (rep : Represents view consumed queued)
    (known : WriterLoads view.bufSize.toNat consumed (consumed + queued.length) 0 loads)
    (loaded : loads.both = some (input, output)) (size : UInt32)
    (small : size.toNat ≤ view.bufSize.toNat) (passed : (input - output) + size ≤ view.bufSize) :
    queued.length + size.toNat ≤ view.bufSize.toNat := by
  obtain ⟨first, second⟩ := Loads.both_eq loaded
  obtain ⟨old, rfl, order, close⟩ := known.outPos _ second
  have bound := rep.bufSize_le
  have span := rep.span (show old ≤ consumed + queued.length by omega) (by omega)
  rw [known.inPos _ first, UInt32.le_iff_toNat_le, UInt32.toNat_add, span] at passed
  omega

/-- The minimum computed again in `put` is the length asked for. -/
theorem WriterLoads.whole (rep : Represents view consumed queued)
    (known : WriterLoads view.bufSize.toNat consumed (consumed + queued.length) size.toNat loads)
    (loaded : loads.both = some (input, output)) :
    min size (view.bufSize - input + output) = size := by
  obtain ⟨first, second⟩ := Loads.both_eq loaded
  obtain ⟨old, rfl, order, close⟩ := known.outPos _ second
  have bound := rep.bufSize_le
  have free : (view.bufSize - input + UInt32.ofNat old).toNat =
      view.bufSize.toNat - (consumed + queued.length - old) := by
    rw [known.inPos _ first, UInt32.toNat_add, UInt32.toNat_sub, UInt32.toNat_ofNat',
      UInt32.toNat_ofNat']
    omega
  apply UInt32.toNat_inj.mp
  rw [toNat_min, free]
  omega

/-- The guard of `read` judged by a stale `in` is right: the writer only adds bytes. -/
theorem ReaderLoads.stored (rep : Represents view consumed queued)
    (known : ReaderLoads consumed (consumed + queued.length) 0 loads)
    (loaded : loads.both = some (input, output)) (passed : input - output ≥ size) :
    size.toNat ≤ queued.length := by
  obtain ⟨first, second⟩ := Loads.both_eq loaded
  obtain ⟨old, rfl, order, close⟩ := known.inPos _ first
  have fits := rep.fits
  have span := rep.span (show consumed ≤ old by omega) (by omega)
  rw [known.outPos _ second, ge_iff_le, UInt32.le_iff_toNat_le, span] at passed
  omega

/-- The minimum computed again in `get` is the length asked for. -/
theorem ReaderLoads.whole (rep : Represents view consumed queued)
    (known : ReaderLoads consumed (consumed + queued.length) size.toNat loads)
    (loaded : loads.both = some (input, output)) : min size (input - output) = size := by
  obtain ⟨first, second⟩ := Loads.both_eq loaded
  obtain ⟨old, rfl, order, close⟩ := known.inPos _ first
  have fits := rep.fits
  have span := rep.span (show consumed ≤ old by omega) (by omega)
  apply UInt32.toNat_inj.mp
  rw [toNat_min, known.outPos _ second, span]
  omega

theorem Represents.poke (rep : Represents view consumed queued) (cell : Nat) (byte : UInt8)
    (kept : Holds view.bufSize.toNat (store view.buffer cell [byte]) consumed (queued ++ rest)) :
    Represents (view.poke cell byte) consumed queued :=
  ⟨rep.powerOfTwo, rep.outPos, rep.inPos, rep.fits, kept.take⟩

/-- The cell of the next byte of a copy, before and after the wrap. -/
theorem copy_cell (positive : 0 < capacity) (first : l = firstCopy capacity total length)
    (fits : length ≤ capacity) (copied : Nat) :
    (copied < l → (total + copied) % capacity = total % capacity + copied) ∧
      (copied < length - l → (total + (l + copied)) % capacity = copied) := by
  have low := Nat.mod_lt total positive
  unfold firstCopy at first
  constructor
  · intro inside
    rw [wrapped_cell total copied positive (by omega), if_pos (by omega)]
  · intro inside
    rw [wrapped_cell total (l + copied) positive (by omega), if_neg (by omega)]
    omega

theorem take_succ_byte {buf : Bytes} (found : buf[copied]? = some byte) :
    buf.take (copied + 1) = buf.take copied ++ [byte] := by
  rw [List.take_add_one, found]
  rfl

/-- A byte of a `write` goes to the cell after those already copied. -/
theorem Represents.copy {buf : Bytes} (rep : Represents view consumed queued)
    (room : queued.length + buf.length ≤ view.bufSize.toNat)
    (held : Holds view.bufSize.toNat view.buffer consumed (queued ++ buf.take copied))
    (found : buf[copied]? = some byte)
    (cell : position = (consumed + queued.length + copied) % view.bufSize.toNat) :
    Represents (view.poke position byte) consumed queued ∧
      Holds view.bufSize.toNat (view.poke position byte).buffer consumed
        (queued ++ buf.take (copied + 1)) := by
  have inside := (List.getElem?_eq_some_iff.mp found).1
  have length : (queued ++ buf.take copied).length = queued.length + copied := by
    rw [List.length_append, List.length_take]
    omega
  have next : position = (consumed + (queued ++ buf.take copied).length) % view.bufSize.toNat := by
    rw [length, cell, Nat.add_assoc]
  have pushed := held.push byte (by omega) next
  rw [List.append_assoc, ← take_succ_byte found] at pushed
  exact ⟨rep.poke position byte pushed, pushed⟩

/-- A step of `write` keeps what is stored and gets on, or appends the whole buffer. -/
theorem PutAt.step (rep : Represents view consumed queued)
    (at_ : PutAt view.bufSize.toNat view.buffer consumed queued buf pc)
    (small : buf.length ≤ view.bufSize.toNat)
    (moved : putStep order view buf (UInt32.ofNat buf.length) pc = some result) :
    match result with
    | .goto after next => Represents after consumed queued ∧ after.bufSize = view.bufSize ∧
        PutAt after.bufSize.toNat after.buffer consumed queued buf next
    | .return after len => len.toNat = buf.length ∧ after.bufSize = view.bufSize ∧
        Represents after consumed (queued ++ buf) := by
  have bound := rep.bufSize_le
  have fits := rep.fits
  have size : (UInt32.ofNat buf.length).toNat = buf.length := by
    rw [UInt32.toNat_ofNat']
    omega
  cases pc with
  | guard loads =>
    simp only [putStep] at moved
    cases loaded : loads.both with
    | none =>
      rw [loaded] at moved
      obtain ⟨more, load, rfl⟩ := Option.map_eq_some_iff.mp moved
      exact ⟨rep, rfl, at_.load rep (by omega) load⟩
    | some values =>
      obtain ⟨input, output⟩ := values
      rw [loaded] at moved
      cases moved
      refine ⟨rep, rfl, ?_⟩
      split
      · rename_i passed
        have room := at_.room rep loaded _ (by omega) passed
        rw [size] at room
        exact ⟨room, .none _ _ _ _⟩
      · exact .none _ _ _ _
  | clamp loads =>
    obtain ⟨room, known⟩ := at_
    simp only [putStep] at moved
    cases loaded : loads.both with
    | none =>
      rw [loaded] at moved
      obtain ⟨more, load, rfl⟩ := Option.map_eq_some_iff.mp moved
      exact ⟨rep, rfl, room, known.load rep room load⟩
    | some values =>
      obtain ⟨input, output⟩ := values
      rw [loaded] at moved
      cases moved
      rw [← size] at known
      refine ⟨rep, rfl, room, ?_⟩
      rw [known.whole rep loaded, size]
  | part len =>
    obtain ⟨room, whole⟩ := at_
    simp only [putStep, Option.some.injEq] at moved
    subst result
    refine ⟨rep, rfl, room, whole, ?_⟩
    rw [rep.inPos, rep.firstPart, whole]
    rfl
  | place len l =>
    obtain ⟨room, whole, first⟩ := at_
    simp only [putStep, Option.some.injEq] at moved
    subst result
    refine ⟨rep, rfl, room, whole, first, ?_, Nat.zero_le _, ?_⟩
    · rw [rep.inPos, rep.mask]
    · simpa using rep.cells
  | head len l offset copied =>
    obtain ⟨room, whole, first, place, within, held⟩ := at_
    simp only [putStep] at moved
    split at moved
    · rename_i more
      obtain ⟨byte, found, rfl⟩ := Option.map_eq_some_iff.mp moved
      have cell := (copy_cell rep.bufSize_pos first small copied).1 more
      obtain ⟨kept, longer⟩ := rep.copy room held found (by rw [cell, ← place])
      exact ⟨kept, rfl, room, whole, first, place, more, longer⟩
    · rename_i finished
      cases moved
      refine ⟨rep, rfl, room, whole, first, Nat.zero_le _, ?_⟩
      rwa [Nat.add_zero, show l.toNat = copied by omega]
  | tail len l copied =>
    obtain ⟨room, whole, first, within, held⟩ := at_
    have short : l.toNat ≤ len.toNat := by
      unfold firstCopy at first
      omega
    have rest := Represents.secondPart len l short
    simp only [putStep] at moved
    split at moved
    · rename_i more
      obtain ⟨byte, found, rfl⟩ := Option.map_eq_some_iff.mp moved
      have cell := (copy_cell rep.bufSize_pos first small copied).2 (by omega)
      obtain ⟨kept, longer⟩ := rep.copy room held found cell.symm
      exact ⟨kept, rfl, room, whole, first, by omega, longer⟩
    · rename_i finished
      cases moved
      refine ⟨rep, rfl, room, whole, ?_⟩
      rwa [List.take_of_length_le (by omega)] at held
  | update len =>
    obtain ⟨room, whole, held⟩ := at_
    simp only [putStep, Option.some.injEq] at moved
    subst result
    refine ⟨whole, rfl, rep.powerOfTwo, rep.outPos, ?_, ?_, held⟩
    · rw [rep.inPos, List.length_append, ← Nat.add_assoc, UInt32.ofNat_add _ buf.length, ← whole,
        UInt32.ofNat_toNat]
    · rw [List.length_append]
      exact room

/-- A byte of a `read` is the next one stored. -/
theorem Represents.fetch (rep : Represents view consumed queued) (inside : copied < queued.length)
    (cell : position = (consumed + copied) % view.bufSize.toNat) :
    queued.take copied ++ [view.buffer position] = queued.take (copied + 1) := by
  rw [cell, rep.cells copied inside]
  exact (take_succ_byte (List.getElem?_eq_getElem inside)).symm

/-- A step of `read` gets on, or takes exactly the bytes asked for off the front. -/
theorem GetAt.step (rep : Represents view consumed queued)
    (at_ : GetAt view.bufSize.toNat consumed queued size bytes pc)
    (moved : getStep order view size bytes pc = some result) :
    match result with
    | .goto more next => GetAt view.bufSize.toNat consumed queued size more next
    | .return after got => size.toNat ≤ queued.length ∧ got = queued.take size.toNat ∧
        after.bufSize = view.bufSize ∧ after.buffer = view.buffer ∧
        Represents after (consumed + size.toNat) (queued.drop size.toNat) := by
  have fits := rep.fits
  cases pc with
  | guard loads =>
    obtain ⟨fresh, known⟩ := at_
    simp only [getStep] at moved
    cases loaded : loads.both with
    | none =>
      rw [loaded] at moved
      obtain ⟨more, load, rfl⟩ := Option.map_eq_some_iff.mp moved
      exact ⟨fresh, known.load rep (Nat.zero_le _) load⟩
    | some values =>
      obtain ⟨input, output⟩ := values
      rw [loaded] at moved
      cases moved
      simp only
      split
      · rename_i passed
        exact ⟨known.stored rep loaded passed, fresh, .none _ _ _⟩
      · exact ⟨fresh, .none _ _ _⟩
  | clamp loads =>
    obtain ⟨stored, fresh, known⟩ := at_
    simp only [getStep] at moved
    cases loaded : loads.both with
    | none =>
      rw [loaded] at moved
      obtain ⟨more, load, rfl⟩ := Option.map_eq_some_iff.mp moved
      exact ⟨stored, fresh, known.load rep stored load⟩
    | some values =>
      obtain ⟨input, output⟩ := values
      rw [loaded] at moved
      cases moved
      exact ⟨stored, fresh, known.whole rep loaded⟩
  | part len =>
    obtain ⟨stored, fresh, rfl⟩ := at_
    simp only [getStep, Option.some.injEq] at moved
    subst result
    refine ⟨stored, fresh, rfl, ?_⟩
    rw [rep.outPos, rep.firstPart]
    rfl
  | place len l =>
    obtain ⟨stored, rfl, rfl, first⟩ := at_
    simp only [getStep, Option.some.injEq] at moved
    subst result
    refine ⟨stored, rfl, first, ?_, Nat.zero_le _, rfl⟩
    rw [rep.outPos, rep.mask]
  | head len l offset copied =>
    obtain ⟨stored, rfl, first, place, within, rfl⟩ := at_
    simp only [getStep] at moved
    split at moved
    · rename_i more
      cases moved
      have cell := (copy_cell rep.bufSize_pos first (by omega) copied).1 more
      have short : copied < queued.length := by
        unfold firstCopy at first
        omega
      exact ⟨stored, rfl, first, place, more, rep.fetch short (by rw [cell, ← place])⟩
    · rename_i finished
      cases moved
      refine ⟨stored, rfl, first, Nat.zero_le _, ?_⟩
      rw [Nat.add_zero, show l.toNat = copied by omega]
  | tail len l copied =>
    obtain ⟨stored, rfl, first, within, rfl⟩ := at_
    have short : l.toNat ≤ len.toNat := by
      unfold firstCopy at first
      omega
    have rest := Represents.secondPart len l short
    simp only [getStep] at moved
    split at moved
    · rename_i more
      cases moved
      have cell := (copy_cell rep.bufSize_pos first (by omega) copied).2 (by omega)
      exact ⟨stored, rfl, first, by omega, rep.fetch (by omega) cell.symm⟩
    · rename_i finished
      cases moved
      refine ⟨stored, rfl, ?_⟩
      rw [show l.toNat + copied = len.toNat by omega]
  | update len =>
    obtain ⟨stored, rfl, rfl⟩ := at_
    simp only [getStep, Option.some.injEq] at moved
    subst result
    refine ⟨stored, rfl, rfl, rfl, rep.powerOfTwo, ?_, ?_, ?_, rep.cells.drop len.toNat⟩
    · rw [rep.outPos, UInt32.ofNat_add, UInt32.ofNat_toNat]
    · rw [rep.inPos, List.length_drop]
      congr 1
      omega
    · change (queued.drop len.toNat).length ≤ view.bufSize.toNat
      rw [List.length_drop]
      omega

theorem WriterLoads.consume (known : WriterLoads capacity consumed published slack loads)
    (count : Nat) : WriterLoads capacity (consumed + count) published slack loads := by
  refine ⟨known.inPos, fun value found => ?_⟩
  obtain ⟨old, same, order, close⟩ := known.outPos value found
  exact ⟨old, same, by omega, close⟩

theorem ReaderLoads.publish (known : ReaderLoads consumed published least loads) (count : Nat) :
    ReaderLoads consumed (published + count) least loads := by
  refine ⟨known.outPos, fun value found => ?_⟩
  obtain ⟨old, same, order, close⟩ := known.inPos value found
  exact ⟨old, same, by omega, close⟩

/-- A finished `read` leaves a running `write` where it was. -/
theorem PutAt.consume (at_ : PutAt capacity buffer consumed queued buf pc)
    (available : count ≤ queued.length) :
    PutAt capacity buffer (consumed + count) (queued.drop count) buf pc := by
  have total : consumed + count + (queued.drop count).length = consumed + queued.length := by
    rw [List.length_drop]
    omega
  have shorter : (queued.drop count).length ≤ queued.length := by
    rw [List.length_drop]
    omega
  have rest {front : Bytes} (held : Holds capacity buffer consumed (queued ++ front)) :
      Holds capacity buffer (consumed + count) (queued.drop count ++ front) := by
    have dropped := held.drop count
    rwa [List.drop_append_of_le_length available] at dropped
  cases pc with
  | guard loads =>
    unfold PutAt
    rw [total]
    exact WriterLoads.consume at_ count
  | clamp loads =>
    refine ⟨Nat.le_trans (Nat.add_le_add_right shorter _) at_.1, ?_⟩
    rw [total]
    exact at_.2.consume count
  | part len => exact ⟨Nat.le_trans (Nat.add_le_add_right shorter _) at_.1, at_.2⟩
  | place len l =>
    obtain ⟨room, whole, first⟩ := at_
    refine ⟨Nat.le_trans (Nat.add_le_add_right shorter _) room, whole, ?_⟩
    rwa [total]
  | head len l offset copied =>
    obtain ⟨room, whole, first, place, within, held⟩ := at_
    refine ⟨Nat.le_trans (Nat.add_le_add_right shorter _) room, whole, ?_, ?_, within, rest held⟩
    · rwa [total]
    · rwa [total]
  | tail len l copied =>
    obtain ⟨room, whole, first, within, held⟩ := at_
    refine ⟨Nat.le_trans (Nat.add_le_add_right shorter _) room, whole, ?_, within, rest held⟩
    rwa [total]
  | update len =>
    obtain ⟨room, whole, held⟩ := at_
    exact ⟨Nat.le_trans (Nat.add_le_add_right shorter _) room, whole, rest held⟩

/-- A finished `write` leaves a running `read` where it was. -/
theorem GetAt.publish (at_ : GetAt capacity consumed queued size bytes pc) (buf : Bytes) :
    GetAt capacity consumed (queued ++ buf) size bytes pc := by
  have longer : consumed + (queued ++ buf).length = consumed + queued.length + buf.length := by
    rw [List.length_append, Nat.add_assoc]
  have more (stored : size.toNat ≤ queued.length) : size.toNat ≤ (queued ++ buf).length := by
    rw [List.length_append]
    omega
  cases pc with
  | guard loads =>
    refine ⟨at_.1, ?_⟩
    rw [longer]
    exact at_.2.publish _
  | clamp loads =>
    refine ⟨more at_.1, at_.2.1, ?_⟩
    rw [longer]
    exact at_.2.2.publish _
  | part len => exact ⟨more at_.1, at_.2⟩
  | place len l => exact ⟨more at_.1, at_.2⟩
  | head len l offset copied =>
    obtain ⟨stored, same, first, place, within, got⟩ := at_
    refine ⟨more stored, same, first, place, within, ?_⟩
    unfold firstCopy at first
    rw [got, List.take_append_of_le_length (by omega)]
  | tail len l copied =>
    obtain ⟨stored, same, first, within, got⟩ := at_
    refine ⟨more stored, same, first, within, ?_⟩
    unfold firstCopy at first
    rw [got, List.take_append_of_le_length (by omega)]
  | update len =>
    obtain ⟨stored, same, got⟩ := at_
    refine ⟨more stored, same, ?_⟩
    rw [got, List.take_append_of_le_length stored]

/-- A byte of a `write` is never stored in a cell that holds a byte not yet taken. -/
theorem PutAt.target (at_ : PutAt capacity buffer consumed queued buf pc) (positive : 0 < capacity)
    (small : buf.length ≤ capacity) (next : pc.target = some cell) (inside : k < queued.length) :
    cell ≠ (consumed + k) % capacity := by
  cases pc with
  | head len l offset copied =>
    obtain ⟨room, whole, first, place, within, held⟩ := at_
    simp only [CopyPc.target, Option.ite_none_right_eq_some, Option.some.injEq] at next
    obtain ⟨more, rfl⟩ := next
    rw [place, ← (copy_cell positive first small copied).1 more]
    unfold firstCopy at first
    exact (cell_ne (by omega) (by omega)).symm
  | tail len l copied =>
    obtain ⟨room, whole, first, within, held⟩ := at_
    have short : l.toNat ≤ len.toNat := by
      unfold firstCopy at first
      omega
    have rest := Represents.secondPart len l short
    simp only [CopyPc.target, Option.ite_none_right_eq_some, Option.some.injEq] at next
    obtain ⟨more, rfl⟩ := next
    have wrapped := (copy_cell positive first small copied).2 (by omega)
    intro same
    have low : consumed + k < consumed + queued.length + (l.toNat + copied) := by omega
    have close : consumed + queued.length + (l.toNat + copied) < consumed + k + capacity := by omega
    exact cell_ne low close (by rw [wrapped, same])
  | guard | clamp | part | place | update => cases next

/-- Both sides and the queue between them: what the completed writes put is what the
completed reads took, followed by what is stored. -/
structure Spin.Inv (bufSize : UInt32) (spin : Spin) (consumed : Nat) (queued : Bytes) : Prop where
  sized : spin.view.bufSize = bufSize
  queue : Represents spin.view consumed queued
  todo : ∀ buf ∈ spin.writer.todo, buf.length ≤ bufSize.toNat
  writing : ∀ buf pc, spin.writer.call = some (buf, pc) → buf.length ≤ bufSize.toNat ∧
    PutAt bufSize.toNat spin.view.buffer consumed queued buf pc
  reading : ∀ size bytes pc, spin.reader.call = some (size, bytes, pc) →
    GetAt bufSize.toNat consumed queued size bytes pc
  balance : spin.writer.done.flatMap Prod.fst = spin.reader.done.flatMap Prod.snd ++ queued
  put : ∀ call ∈ spin.writer.done, call.2.toNat = call.1.length
  got : ∀ call ∈ spin.reader.done, call.2.length = call.1.toNat

theorem Spin.Inv.start (segment : SharedMemoryView) (reads : List UInt32)
    (low : 3 ≤ exponent) (high : exponent ≤ 30) (size : bufSize.toNat = 2 ^ exponent)
    (small : ∀ buf ∈ writes, buf.length ≤ bufSize.toNat) :
    (Spin.start segment bufSize writes reads).Inv bufSize 0 [] := by
  refine ⟨rfl, ⟨⟨exponent, low, high, size⟩, rfl, rfl, Nat.zero_le _, holds_nil _ _ _⟩, small,
    ?_, ?_, rfl, ?_, ?_⟩
  · intro buf pc call
    cases call
  · intro size bytes pc call
    cases call
  · intro call member
    cases member
  · intro call member
    cases member

theorem Spin.Inv.writer {spin after : Spin} (inv : spin.Inv bufSize consumed queued)
    (moved : spin.next (.producer, order) = some after) :
    ∃ more, after.Inv bufSize consumed (queued ++ more) := by
  obtain ⟨⟨view, writer⟩, stepped, rfl⟩ := Option.map_eq_some_iff.mp moved
  simp only [Writer.next] at stepped
  cases running : spin.writer.call with
  | none =>
    rw [running] at stepped
    cases todo : spin.writer.todo with
    | nil => simp [todo] at stepped
    | cons buf rest =>
      simp only [todo, Option.some.injEq, Prod.mk.injEq] at stepped
      obtain ⟨rfl, rfl⟩ := stepped
      have fits := inv.todo
      rw [todo] at fits
      refine ⟨[], ?_⟩
      rw [List.append_nil]
      refine ⟨inv.sized, inv.queue, fun other member => fits other (List.mem_cons_of_mem buf member),
        ?_, inv.reading, inv.balance, inv.put, inv.got⟩
      intro other pc call
      cases call
      exact ⟨fits buf List.mem_cons_self, .none _ _ _ _⟩
  | some call =>
    obtain ⟨buf, pc⟩ := call
    obtain ⟨small, at_⟩ := inv.writing buf pc running
    rw [running] at stepped
    obtain ⟨result, put, same⟩ := Option.map_eq_some_iff.mp stepped
    rw [← inv.sized] at small at_
    have kept := at_.step inv.queue small put
    cases result with
    | goto later next =>
      cases same
      obtain ⟨rep, sized, getsOn⟩ := kept
      refine ⟨[], ?_⟩
      rw [List.append_nil]
      refine ⟨sized.trans inv.sized, rep, inv.todo, ?_, inv.reading, inv.balance, inv.put, inv.got⟩
      intro other pc call
      cases call
      rw [sized, inv.sized] at getsOn
      exact ⟨inv.sized ▸ small, getsOn⟩
    | «return» later len =>
      cases same
      obtain ⟨whole, sized, rep⟩ := kept
      refine ⟨buf, sized.trans inv.sized, rep, inv.todo, ?_, ?_, ?_, ?_, inv.got⟩
      · intro other pc call
        cases call
      · intro size bytes pc call
        exact (inv.reading size bytes pc call).publish buf
      · simp [inv.balance]
      · intro call member
        rcases List.mem_append.mp member with old | new
        · exact inv.put call old
        · cases List.mem_singleton.mp new
          exact whole

theorem Spin.Inv.reader {spin after : Spin} (inv : spin.Inv bufSize consumed queued)
    (moved : spin.next (.consumer, order) = some after) :
    ∃ count, after.Inv bufSize (consumed + count) (queued.drop count) := by
  obtain ⟨⟨view, reader⟩, stepped, rfl⟩ := Option.map_eq_some_iff.mp moved
  simp only [Reader.next] at stepped
  cases running : spin.reader.call with
  | none =>
    rw [running] at stepped
    cases todo : spin.reader.todo with
    | nil => simp [todo] at stepped
    | cons size rest =>
      simp only [todo, Option.some.injEq, Prod.mk.injEq] at stepped
      obtain ⟨rfl, rfl⟩ := stepped
      refine ⟨0, inv.sized, inv.queue, inv.todo, inv.writing, ?_, inv.balance, inv.put, inv.got⟩
      intro other bytes pc call
      cases call
      exact ⟨rfl, .none _ _ _⟩
  | some call =>
    obtain ⟨size, bytes, pc⟩ := call
    have at_ := inv.reading size bytes pc running
    rw [running] at stepped
    obtain ⟨result, got, same⟩ := Option.map_eq_some_iff.mp stepped
    rw [← inv.sized] at at_
    have kept := at_.step inv.queue got
    cases result with
    | goto more next =>
      cases same
      refine ⟨0, inv.sized, inv.queue, inv.todo, inv.writing, ?_, inv.balance, inv.put, inv.got⟩
      intro other bytes pc call
      cases call
      rwa [inv.sized] at kept
    | «return» later taken =>
      cases same
      obtain ⟨stored, rfl, sized, sameBuffer, rep⟩ := kept
      refine ⟨size.toNat, sized.trans inv.sized, rep, inv.todo, ?_, ?_, ?_, inv.put, ?_⟩
      · intro buf pc call
        obtain ⟨small, getsOn⟩ := inv.writing buf pc call
        refine ⟨small, ?_⟩
        rw [sameBuffer]
        exact getsOn.consume stored
      · intro other bytes pc call
        cases call
      · simp [inv.balance]
      · intro call member
        rcases List.mem_append.mp member with old | new
        · exact inv.got call old
        · cases List.mem_singleton.mp new
          exact List.length_take_of_le stored

theorem Spin.reaches_inv {segment : SharedMemoryView} {spin : Spin} (low : 3 ≤ exponent) (high : exponent ≤ 30)
    (size : bufSize.toNat = 2 ^ exponent) (small : ∀ buf ∈ writes, buf.length ≤ bufSize.toNat)
    (path : Reaches Spin.next (Spin.start segment bufSize writes reads) spin) :
    ∃ consumed queued, spin.Inv bufSize consumed queued := by
  refine path.invariant (fun spin => ∃ consumed queued, spin.Inv bufSize consumed queued)
    ⟨0, [], .start segment reads low high size small⟩ ?_
  rintro ⟨party, order⟩ before after ⟨consumed, queued, inv⟩ moved
  cases party with
  | producer =>
    obtain ⟨more, later⟩ := inv.writer moved
    exact ⟨_, _, later⟩
  | consumer =>
    obtain ⟨count, later⟩ := inv.reader moved
    exact ⟨_, _, later⟩

theorem poke_buffer (view : SharedMemoryView) (byte : UInt8) (other : position ≠ cell) :
    (view.poke position byte).buffer cell = view.buffer cell :=
  store_outside _ _ (by simp only [List.length_singleton]; omega)

/-- A step of `write` changes the cell it is about to store to, and no other. -/
theorem putStep_buffer (moved : putStep order view buf size pc = some result)
    (other : pc.target ≠ some cell) :
    match result with
    | .goto after _ => after.buffer cell = view.buffer cell
    | .return after _ => after.buffer cell = view.buffer cell := by
  cases pc with
  | guard loads | clamp loads =>
    simp only [putStep] at moved
    cases loaded : loads.both with
    | none =>
      rw [loaded] at moved
      obtain ⟨more, -, rfl⟩ := Option.map_eq_some_iff.mp moved
      rfl
    | some values =>
      rw [loaded] at moved
      cases moved
      rfl
  | part | place | update =>
    cases moved
    rfl
  | head len l offset copied =>
    simp only [putStep] at moved
    split at moved
    · rename_i more
      obtain ⟨byte, -, rfl⟩ := Option.map_eq_some_iff.mp moved
      exact poke_buffer view byte fun same => other (by rw [CopyPc.target, if_pos more, same])
    · cases moved
      rfl
  | tail len l copied =>
    simp only [putStep] at moved
    split at moved
    · rename_i more
      obtain ⟨byte, -, rfl⟩ := Option.map_eq_some_iff.mp moved
      exact poke_buffer view byte fun same => other (by rw [CopyPc.target, if_pos more, same])
    · cases moved
      rfl

theorem Spin.next_buffer {spin after : Spin} (moved : spin.next label = some after)
    (other : spin.writer.target ≠ some cell) : after.view.buffer cell = spin.view.buffer cell := by
  obtain ⟨party, order⟩ := label
  cases party with
  | producer =>
    obtain ⟨⟨view, writer⟩, stepped, rfl⟩ := Option.map_eq_some_iff.mp moved
    unfold Writer.target at other
    simp only [Writer.next] at stepped
    cases running : spin.writer.call with
    | none =>
      rw [running] at stepped
      cases todo : spin.writer.todo with
      | nil => simp [todo] at stepped
      | cons buf rest =>
        simp only [todo, Option.some.injEq, Prod.mk.injEq] at stepped
        obtain ⟨rfl, -⟩ := stepped
        rfl
    | some call =>
      rw [running] at stepped other
      obtain ⟨result, put, same⟩ := Option.map_eq_some_iff.mp stepped
      have kept := putStep_buffer put other
      cases result <;> cases same <;> exact kept
  | consumer =>
    obtain ⟨⟨view, reader⟩, stepped, rfl⟩ := Option.map_eq_some_iff.mp moved
    simp only [Reader.next] at stepped
    cases running : spin.reader.call with
    | none =>
      rw [running] at stepped
      cases todo : spin.reader.todo with
      | nil => simp [todo] at stepped
      | cons size rest =>
        simp only [todo, Option.some.injEq, Prod.mk.injEq] at stepped
        obtain ⟨rfl, -⟩ := stepped
        rfl
    | some call =>
      obtain ⟨size, bytes, pc⟩ := call
      rw [running] at stepped
      obtain ⟨result, got, same⟩ := Option.map_eq_some_iff.mp stepped
      cases result with
      | goto => cases same; rfl
      | «return» later taken =>
        cases same
        cases pc with
        | update => cases got; rfl
        | guard loads | clamp loads =>
          simp only [getStep] at got
          cases loaded : loads.both <;> simp [loaded] at got
        | part | place => cases got
        | head | tail =>
          simp only [getStep] at got
          split at got <;> cases got

/-- The ring as a queue: nothing published is lost, overwritten or shortened. -/
structure Spin.Fifo (spin : Spin) : Prop where
  bounded : spin.view.inPos - spin.view.outPos ≤ spin.view.bufSize
  spared : ∀ cell, spin.writer.target = some cell →
    ∀ k < (spin.view.inPos - spin.view.outPos).toNat,
      cell ≠ (spin.view.outPos.toNat + k) % spin.view.bufSize.toNat
  kept : ∀ label after, Spin.next label spin = some after →
    ∀ k < (spin.view.inPos - spin.view.outPos).toNat,
      after.view.buffer ((spin.view.outPos.toNat + k) % spin.view.bufSize.toNat) =
        spin.view.buffer ((spin.view.outPos.toNat + k) % spin.view.bufSize.toNat)
  put : ∀ call ∈ spin.writer.done, call.2.toNat = call.1.length
  got : ∀ call ∈ spin.reader.done, call.2.length = call.1.toNat
  order : spin.reader.done.flatMap Prod.snd <+: spin.writer.done.flatMap Prod.fst

/-- The cell of a stored byte, computed from the counter that wraps. -/
theorem Represents.cell (rep : Represents view consumed queued) (k : Nat) :
    (view.outPos.toNat + k) % view.bufSize.toNat = (consumed + k) % view.bufSize.toNat := by
  obtain ⟨exponent, _, high, size⟩ := rep.powerOfTwo
  have divides : 2 ^ exponent ∣ 2 ^ 32 := Nat.pow_dvd_pow 2 (by omega)
  rw [rep.outPos, UInt32.toNat_ofNat', size, Nat.add_mod, Nat.mod_mod_of_dvd _ divides,
    ← Nat.add_mod]

/-- The byte a running `write` is about to store goes to none of the stored ones. -/
theorem Spin.Inv.spared {spin : Spin} (inv : spin.Inv bufSize consumed queued)
    (next : spin.writer.target = some cell) (inside : k < (spin.view.inPos - spin.view.outPos).toNat) :
    cell ≠ (spin.view.outPos.toNat + k) % spin.view.bufSize.toNat := by
  rw [inv.queue.stored] at inside
  rw [inv.queue.cell]
  unfold Writer.target at next
  cases running : spin.writer.call with
  | none =>
    rw [running] at next
    cases next
  | some call =>
    obtain ⟨buf, pc⟩ := call
    obtain ⟨small, at_⟩ := inv.writing buf pc running
    rw [running] at next
    rw [← inv.sized] at small at_
    exact at_.target inv.queue.bufSize_pos small next inside

theorem Spin.Inv.fifo {spin : Spin} (inv : spin.Inv bufSize consumed queued) : spin.Fifo where
  bounded := by
    rw [UInt32.le_iff_toNat_le, inv.queue.stored]
    exact inv.queue.fits
  spared _ next _ inside := inv.spared next inside
  kept _ _ moved _ inside := Spin.next_buffer moved fun next => inv.spared next inside rfl
  put := inv.put
  got := inv.got
  order := ⟨queued, inv.balance.symm⟩

/-- In every interleaving of the two sides, step by step, the lock-free ring is a queue. -/
theorem spin_fifo (segment : SharedMemoryView) (bufSize : UInt32) (exponent : Nat)
    (writes : List Bytes) (reads : List UInt32) (spin : Spin) (low : 3 ≤ exponent)
    (high : exponent ≤ 30) (size : bufSize.toNat = 2 ^ exponent)
    (small : ∀ buf ∈ writes, buf.length ≤ bufSize.toNat)
    (path : Reaches Spin.next (Spin.start segment bufSize writes reads) spin) : spin.Fifo := by
  obtain ⟨consumed, queued, inv⟩ := Spin.reaches_inv low high size small path
  exact inv.fifo

/-- A read of two bytes overlaps with the write of three: it is copying when the write of
the next buffer begins. -/
def overlapRun : List (Party × Counter) :=
  [[(.producer, .inPos), (.consumer, .inPos), (.producer, .outPos)],
    List.replicate 3 (.producer, .inPos), [(.producer, .outPos)],
    List.replicate 9 (.producer, .inPos),
    [(.consumer, .inPos), (.consumer, .outPos), (.consumer, .inPos), (.consumer, .outPos)],
    List.replicate 5 (.consumer, .inPos), [(.producer, .inPos), (.producer, .outPos)],
    List.replicate 4 (.consumer, .inPos)].flatten

theorem spin_fifo_overlap :
    ∃ spin : Spin, spin.reader.done = [(2, [1, 2])] ∧ spin.writer.done = [([1, 2, 3], 3)] ∧
      spin.Fifo := by
  have ran : (run Spin.next overlapRun (Spin.start .zeroed 8 [[1, 2, 3], [4]] [2])).map
      (fun spin => (spin.reader.done, spin.writer.done)) =
      some ([(2, [1, 2])], [([1, 2, 3], 3)]) := by
    decide +kernel
  obtain ⟨spin, finished, done⟩ := Option.map_eq_some_iff.mp ran
  exact ⟨spin, (Prod.mk.inj done).1, (Prod.mk.inj done).2,
    spin_fifo .zeroed 8 3 [[1, 2, 3], [4]] [2] spin (by decide) (by decide) rfl (by decide)
      (Reaches.ofRun _ finished)⟩

end GaiaNet.Mem
