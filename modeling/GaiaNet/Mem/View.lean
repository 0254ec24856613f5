import GaiaNet.IChannel
import GaiaNet.Lib.Circular

/-! The ring buffer in shared memory: `SharedMemoryView` of memchannel.cpp and
its reading as a queue of bytes. -/

namespace GaiaNet.Mem

open Lib.Circular

/-- The shared segment. `inPos` and `outPos` are the free-running counters `in`
and `out`; the flexible array `buffer` is a memory indexed from its first byte. -/
structure SharedMemoryView where
  bufSize : UInt32
  enableCv : Bool
  clientAttached : Int
  inPos : UInt32
  outPos : UInt32
  buffer : Nat → UInt8

namespace SharedMemoryView

/-- A segment as `ftruncate` makes it. -/
def zeroed : SharedMemoryView := ⟨0, false, 0, 0, 0, fun _ => 0⟩

/-- `init` sets the header only; the buffer keeps what the segment contained. -/
def init (view : SharedMemoryView) (argBufSize : UInt32) (argEnableCv : Bool) : SharedMemoryView :=
  { view with
    bufSize := argBufSize
    enableCv := argEnableCv
    clientAttached := 0
    inPos := 0
    outPos := 0 }

/-- `memcpy` of the first `count` bytes at `source` to `buffer + offset`. -/
def copyIn (view : SharedMemoryView) (offset : UInt32) (source : Bytes) (count : UInt32) :
    SharedMemoryView :=
  { view with buffer := store view.buffer offset.toNat (source.take count.toNat) }

/-- `memcpy` of `count` bytes out of `buffer + offset`. -/
def copyOut (view : SharedMemoryView) (offset : UInt32) (count : UInt32) : Bytes :=
  load view.buffer offset.toNat count.toNat

def put (view : SharedMemoryView) (buf : Bytes) (len : UInt32) : SharedMemoryView :=
  let len := min len (view.bufSize - view.inPos + view.outPos)
  let l := min len (view.bufSize - (view.inPos &&& (view.bufSize - 1)))
  let view := view.copyIn (view.inPos &&& (view.bufSize - 1)) buf l
  let view := view.copyIn 0 (buf.drop l.toNat) (len - l)
  { view with inPos := view.inPos + len }

def get (view : SharedMemoryView) (len : UInt32) : Bytes × SharedMemoryView :=
  let len := min len (view.inPos - view.outPos)
  let l := min len (view.bufSize - (view.outPos &&& (view.bufSize - 1)))
  let head := view.copyOut (view.outPos &&& (view.bufSize - 1)) l
  let tail := view.copyOut 0 (len - l)
  (head ++ tail, { view with outPos := view.outPos + len })

def canPut (view : SharedMemoryView) (size : UInt32) : Bool :=
  (view.inPos - view.outPos) + size ≤ view.bufSize

def canGet (view : SharedMemoryView) (size : UInt32) : Bool :=
  view.inPos - view.outPos ≥ size

end SharedMemoryView

theorem toNat_min (first second : UInt32) :
    (min first second).toNat = min first.toNat second.toNat := by
  rw [Nat.min_def]
  by_cases below : first ≤ second
  · have same : min first second = first := if_pos below
    rw [same, if_pos (UInt32.le_iff_toNat_le.mp below)]
  · have same : min first second = second := if_neg below
    rw [same, if_neg (fun reverse => below (UInt32.le_iff_toNat_le.mpr reverse))]

/-- The segment as a queue: of all bytes ever put, `consumed` have been taken
and `queued` are stored. Both counters are these unbounded totals modulo `2 ^ 32`. -/
structure Represents (view : SharedMemoryView) (consumed : Nat) (queued : Bytes) : Prop where
  powerOfTwo : ∃ exponent, 3 ≤ exponent ∧ exponent ≤ 30 ∧ view.bufSize.toNat = 2 ^ exponent
  outPos : view.outPos = UInt32.ofNat consumed
  inPos : view.inPos = UInt32.ofNat (consumed + queued.length)
  fits : queued.length ≤ view.bufSize.toNat
  cells : Holds view.bufSize.toNat view.buffer consumed queued

namespace Represents

variable {view : SharedMemoryView} {consumed : Nat} {queued : Bytes}

theorem bufSize_pos (rep : Represents view consumed queued) : 0 < view.bufSize.toNat := by
  obtain ⟨exponent, _, _, size⟩ := rep.powerOfTwo
  rw [size]
  exact Nat.two_pow_pos exponent

theorem bufSize_le (rep : Represents view consumed queued) : view.bufSize.toNat ≤ 2 ^ 30 := by
  obtain ⟨exponent, _, high, size⟩ := rep.powerOfTwo
  rw [size]
  exact Nat.pow_le_pow_right (by omega) high

theorem eight_le_bufSize (rep : Represents view consumed queued) : 8 ≤ view.bufSize.toNat := by
  obtain ⟨exponent, low, _, size⟩ := rep.powerOfTwo
  rw [size]
  exact Nat.pow_le_pow_right (n := 2) (by omega) low

/-- The masked counter is the cell of the unbounded total. -/
theorem mask (rep : Represents view consumed queued) (total : Nat) :
    (UInt32.ofNat total &&& (view.bufSize - 1)).toNat = total % view.bufSize.toNat := by
  obtain ⟨exponent, _, high, size⟩ := rep.powerOfTwo
  have positive := rep.bufSize_pos
  have below : view.bufSize.toNat < 2 ^ 32 := view.bufSize.toNat_lt
  have pred : (view.bufSize - 1).toNat = 2 ^ exponent - 1 := by
    rw [UInt32.toNat_sub, ← size]
    have one : (1 : UInt32).toNat = 1 := rfl
    omega
  have divides : 2 ^ exponent ∣ 2 ^ 32 := Nat.pow_dvd_pow 2 (by omega)
  rw [UInt32.toNat_and, pred, Nat.and_two_pow_sub_one_eq_mod, UInt32.toNat_ofNat', size,
    Nat.mod_mod_of_dvd _ divides]

theorem stored (rep : Represents view consumed queued) :
    (view.inPos - view.outPos).toNat = queued.length := by
  have bound := rep.bufSize_le
  have fits := rep.fits
  rw [rep.inPos, rep.outPos, UInt32.toNat_sub, UInt32.toNat_ofNat', UInt32.toNat_ofNat']
  omega

theorem free (rep : Represents view consumed queued) :
    (view.bufSize - view.inPos + view.outPos).toNat = view.bufSize.toNat - queued.length := by
  have bound := rep.bufSize_le
  have fits := rep.fits
  rw [rep.inPos, rep.outPos, UInt32.toNat_add, UInt32.toNat_sub, UInt32.toNat_ofNat',
    UInt32.toNat_ofNat']
  omega

/-- `can_put` asks whether the queue has room. -/
theorem canPut_iff (rep : Represents view consumed queued) (small : len ≤ view.bufSize) :
    view.canPut len = true ↔ queued.length + len.toNat ≤ view.bufSize.toNat := by
  have bound := rep.bufSize_le
  have fits := rep.fits
  rw [UInt32.le_iff_toNat_le] at small
  rw [SharedMemoryView.canPut, decide_eq_true_iff, UInt32.le_iff_toNat_le, UInt32.toNat_add,
    rep.stored]
  omega

/-- `can_get` asks whether enough bytes are stored. -/
theorem canGet_iff (rep : Represents view consumed queued) :
    view.canGet len = true ↔ len.toNat ≤ queued.length := by
  rw [SharedMemoryView.canGet, decide_eq_true_iff, ge_iff_le, UInt32.le_iff_toNat_le, rep.stored]

/-- Length of the first of the two copies, up to the end of the buffer. -/
theorem firstPart (rep : Represents view consumed queued) (total : Nat) (len : UInt32) :
    (min len (view.bufSize - (UInt32.ofNat total &&& (view.bufSize - 1)))).toNat =
      min len.toNat (view.bufSize.toNat - total % view.bufSize.toNat) := by
  have low := Nat.mod_lt total rep.bufSize_pos
  have below : view.bufSize.toNat < 2 ^ 32 := view.bufSize.toNat_lt
  rw [toNat_min, UInt32.toNat_sub, rep.mask]
  congr 1
  omega

/-- The length of the second copy, which starts at the beginning of the buffer. -/
theorem secondPart (len first : UInt32) (part : first.toNat ≤ len.toNat) :
    (len - first).toNat = len.toNat - first.toNat := by
  have below : len.toNat < 2 ^ 32 := len.toNat_lt
  rw [UInt32.toNat_sub]
  omega

/-- When there is room `put` appends exactly the requested bytes. -/
theorem put (rep : Represents view consumed queued) (buf : Bytes)
    (room : queued.length + len.toNat ≤ view.bufSize.toNat) (enough : len.toNat ≤ buf.length) :
    Represents (view.put buf len) consumed (queued ++ buf.take len.toNat) := by
  have whole : min len (view.bufSize - view.inPos + view.outPos) = len := by
    apply UInt32.toNat_inj.mp
    rw [toNat_min, rep.free]
    omega
  have part := rep.firstPart (consumed + queued.length) len
  rw [← rep.inPos] at part
  have second := secondPart len (min len (view.bufSize - (view.inPos &&& (view.bufSize - 1))))
    (by omega)
  have offset : (view.inPos &&& (view.bufSize - 1)).toNat =
      (consumed + queued.length) % view.bufSize.toNat := by
    rw [rep.inPos, rep.mask]
  have length : (buf.take len.toNat).length = len.toNat := by
    rw [List.length_take]
    omega
  have cells := rep.cells.append (buf.take len.toNat) rep.bufSize_pos (by omega) offset rfl
  refine ⟨rep.powerOfTwo, ?_, ?_, ?_, ?_⟩
  · exact rep.outPos
  · simp only [SharedMemoryView.put, SharedMemoryView.copyIn, whole]
    rw [rep.inPos, List.length_append, length, ← Nat.add_assoc, UInt32.ofNat_add _ len.toNat,
      UInt32.ofNat_toNat]
  · simp only [SharedMemoryView.put, SharedMemoryView.copyIn, List.length_append, length]
    exact room
  · have zero : (0 : UInt32).toNat = 0 := rfl
    simp only [SharedMemoryView.put, SharedMemoryView.copyIn, whole, part, second, zero]
    rw [length, offset, List.take_take, List.drop_take] at cells
    rw [offset]
    simpa [Nat.min_assoc] using cells

/-- When enough is stored `get` takes exactly the requested bytes off the front. -/
theorem get (rep : Represents view consumed queued) (available : len.toNat ≤ queued.length) :
    (view.get len).1 = queued.take len.toNat ∧
      Represents (view.get len).2 (consumed + len.toNat) (queued.drop len.toNat) := by
  have fits := rep.fits
  have whole : min len (view.inPos - view.outPos) = len := by
    apply UInt32.toNat_inj.mp
    rw [toNat_min, rep.stored]
    omega
  have part := rep.firstPart consumed len
  rw [← rep.outPos] at part
  have second := secondPart len (min len (view.bufSize - (view.outPos &&& (view.bufSize - 1))))
    (by omega)
  have offset : (view.outPos &&& (view.bufSize - 1)).toNat = consumed % view.bufSize.toNat := by
    rw [rep.outPos, rep.mask]
  constructor
  · have zero : (0 : UInt32).toNat = 0 := rfl
    simp only [SharedMemoryView.get, SharedMemoryView.copyOut, whole, zero, second]
    exact rep.cells.load rep.bufSize_pos available (by omega) offset (by rw [part, offset])
  · refine ⟨rep.powerOfTwo, ?_, ?_, ?_, ?_⟩
    · simp only [SharedMemoryView.get, whole]
      rw [rep.outPos, UInt32.ofNat_add, UInt32.ofNat_toNat]
    · simp only [SharedMemoryView.get]
      rw [rep.inPos, List.length_drop]
      congr 1
      omega
    · simp only [SharedMemoryView.get, List.length_drop]
      omega
    · exact rep.cells.drop len.toNat

end Represents

end GaiaNet.Mem
