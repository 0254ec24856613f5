import GaiaNet.Lib.Transition
import GaiaNet.Mem.Channel

/-! `SharedMemoryView::write` and `read` without the condition variable: every load
of a counter, every byte copied and every update of a counter is one step. -/

namespace GaiaNet.Mem

open Lib.Circular

inductive Counter where
  | inPos
  | outPos
  deriving DecidableEq

/-- The operands of `in - out` loaded so far; their order is not specified. -/
structure Loads where
  inPos : Option UInt32
  outPos : Option UInt32

namespace Loads

def none : Loads := ⟨.none, .none⟩

def both (loads : Loads) : Option (UInt32 × UInt32) := do
  let inPos ← loads.inPos
  let outPos ← loads.outPos
  return (inPos, outPos)

/-- Load one of the operands still missing. -/
def load (view : SharedMemoryView) (loads : Loads) : Counter → Option Loads
  | .inPos => if loads.inPos.isNone then some { loads with inPos := some view.inPos } else .none
  | .outPos => if loads.outPos.isNone then some { loads with outPos := some view.outPos } else .none

end Loads

/-- Where a call stands: in the guard, in the four statements of `put` or `get`
(`head` and `tail` are its two `memcpy`s), or at the update of its counter. -/
inductive CopyPc where
  | guard (loads : Loads)
  | clamp (loads : Loads)
  | part (len : UInt32)
  | place (len l : UInt32)
  | head (len l offset : UInt32) (copied : Nat)
  | tail (len l : UInt32) (copied : Nat)
  | update (len : UInt32)

/-- One byte stored in `buffer`. -/
def SharedMemoryView.poke (view : SharedMemoryView) (cell : Nat) (byte : UInt8) :
    SharedMemoryView :=
  { view with buffer := store view.buffer cell [byte] }

/-- What a step of `write` leads to. -/
inductive PutStep where
  | goto (view : SharedMemoryView) (pc : CopyPc)
  | return (view : SharedMemoryView) (len : UInt32)

/-- The next step of `write(buf, size)`; `order` says which operand is loaded next. -/
def putStep (order : Counter) (view : SharedMemoryView) (buf : Bytes) (size : UInt32) :
    CopyPc → Option PutStep
  | .guard loads =>
    match loads.both with
    | none => (loads.load view order).map fun loads => .goto view (.guard loads)
    | some (inPos, outPos) =>
      some (.goto view (if (inPos - outPos) + size ≤ view.bufSize then .clamp .none
        else .guard .none))
  | .clamp loads =>
    match loads.both with
    | none => (loads.load view order).map fun loads => .goto view (.clamp loads)
    | some (inPos, outPos) =>
      some (.goto view (.part (min size (view.bufSize - inPos + outPos))))
  | .part len =>
    some (.goto view (.place len (min len (view.bufSize - (view.inPos &&& (view.bufSize - 1))))))
  | .place len l => some (.goto view (.head len l (view.inPos &&& (view.bufSize - 1)) 0))
  | .head len l offset copied =>
    if copied < l.toNat then
      buf[copied]?.map fun byte =>
        .goto (view.poke (offset.toNat + copied) byte) (.head len l offset (copied + 1))
    else some (.goto view (.tail len l 0))
  | .tail len l copied =>
    if copied < (len - l).toNat then
      buf[l.toNat + copied]?.map fun byte =>
        .goto (view.poke copied byte) (.tail len l (copied + 1))
    else some (.goto view (.update len))
  | .update len => some (.return { view with inPos := view.inPos + len } len)

/-- What a step of `read` leads to; `bytes` is what it has copied so far. -/
inductive GetStep where
  | goto (bytes : Bytes) (pc : CopyPc)
  | return (view : SharedMemoryView) (bytes : Bytes)

/-- The next step of `read(buf, size)`. -/
def getStep (order : Counter) (view : SharedMemoryView) (size : UInt32) (bytes : Bytes) :
    CopyPc → Option GetStep
  | .guard loads =>
    match loads.both with
    | none => (loads.load view order).map fun loads => .goto bytes (.guard loads)
    | some (inPos, outPos) =>
      some (.goto bytes (if inPos - outPos ≥ size then .clamp .none else .guard .none))
  | .clamp loads =>
    match loads.both with
    | none => (loads.load view order).map fun loads => .goto bytes (.clamp loads)
    | some (inPos, outPos) => some (.goto bytes (.part (min size (inPos - outPos))))
  | .part len =>
    some (.goto bytes (.place len (min len (view.bufSize - (view.outPos &&& (view.bufSize - 1))))))
  | .place len l => some (.goto bytes (.head len l (view.outPos &&& (view.bufSize - 1)) 0))
  | .head len l offset copied =>
    if copied < l.toNat then
      some (.goto (bytes ++ [view.buffer (offset.toNat + copied)]) (.head len l offset (copied + 1)))
    else some (.goto bytes (.tail len l 0))
  | .tail len l copied =>
    if copied < (len - l).toNat then
      some (.goto (bytes ++ [view.buffer copied]) (.tail len l (copied + 1)))
    else some (.goto bytes (.update len))
  | .update len => some (.return { view with outPos := view.outPos + len } bytes)

/-- The writing side: buffers of the calls to come, the call running, and the buffer
and the number of bytes put of each completed call. -/
structure Writer where
  todo : List Bytes
  call : Option (Bytes × CopyPc)
  done : List (Bytes × UInt32)

/-- The reading side, with the lengths asked for and the bytes copied. -/
structure Reader where
  todo : List UInt32
  call : Option (UInt32 × Bytes × CopyPc)
  done : List (UInt32 × Bytes)

structure Spin where
  view : SharedMemoryView
  writer : Writer
  reader : Reader

def Writer.next (order : Counter) (view : SharedMemoryView) (writer : Writer) :
    Option (SharedMemoryView × Writer) :=
  match writer.call with
  | none =>
    match writer.todo with
    | [] => none
    | buf :: rest => some (view, { writer with todo := rest, call := some (buf, .guard .none) })
  | some (buf, pc) =>
    (putStep order view buf (UInt32.ofNat buf.length) pc).map fun
      | .goto view pc => (view, { writer with call := some (buf, pc) })
      | .return view len => (view, { writer with call := none, done := writer.done ++ [(buf, len)] })

def Reader.next (order : Counter) (view : SharedMemoryView) (reader : Reader) :
    Option (SharedMemoryView × Reader) :=
  match reader.call with
  | none =>
    match reader.todo with
    | [] => none
    | size :: rest => some (view, { reader with todo := rest, call := some (size, [], .guard .none) })
  | some (size, bytes, pc) =>
    (getStep order view size bytes pc).map fun
      | .goto bytes pc => (view, { reader with call := some (size, bytes, pc) })
      | .return view bytes =>
        (view, { reader with call := none, done := reader.done ++ [(size, bytes)] })

def Spin.next : Party × Counter → Spin → Option Spin
  | (.producer, order), spin =>
    (spin.writer.next order spin.view).map fun (view, writer) => { spin with view, writer }
  | (.consumer, order), spin =>
    (spin.reader.next order spin.view).map fun (view, reader) => { spin with view, reader }

/-- A fresh segment and the calls of both sides. -/
def Spin.start (segment : SharedMemoryView) (bufSize : UInt32) (writes : List Bytes)
    (reads : List UInt32) : Spin where
  view := segment.init bufSize false
  writer := { todo := writes, call := none, done := [] }
  reader := { todo := reads, call := none, done := [] }

/-- The cell that the next step of a `write` stores a byte to. -/
def CopyPc.target : CopyPc → Option Nat
  | .head _ l offset copied => if copied < l.toNat then some (offset.toNat + copied) else none
  | .tail len l copied => if copied < (len - l).toNat then some copied else none
  | _ => none

def Writer.target (writer : Writer) : Option Nat :=
  match writer.call with
  | none => none
  | some (_, pc) => pc.target

end GaiaNet.Mem
