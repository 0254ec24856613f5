import GaiaNet.Lib.Chunks
import GaiaNet.Lib.LittleEndian
import GaiaNet.Mem.View

/-! `MemChannel::send` and `MemChannel::recv`: the length frame and the chunk
loops, cut at the ring operations between which the other end may run. -/

namespace GaiaNet.Mem

open Lib

/-- Locals of the chunk loop shared by `send` and `recv_body`. `chunk_cnt` is
at most `2 ^ 29` for the chunk sizes the constructor asserts, so `int i` never wraps. -/
structure ChunkLoop where
  chunkSize : UInt32
  chunkCnt : Nat
  i : Nat
  pos : Int32
  bodyLen : UInt32

namespace ChunkLoop

def start (bodyLen chunkSize : UInt32) : ChunkLoop where
  chunkSize := chunkSize
  chunkCnt := ((bodyLen + chunkSize - 1) / chunkSize).toNat
  i := 0
  pos := 0
  bodyLen := bodyLen

def len (loop : ChunkLoop) : UInt32 := min loop.bodyLen loop.chunkSize

def next (loop : ChunkLoop) : ChunkLoop :=
  { loop with
    i := loop.i + 1
    pos := loop.pos + loop.len.toInt32
    bodyLen := loop.bodyLen - loop.len }

/-- The range `[pos, pos + len)` lies inside a buffer of the given size. -/
def inside (loop : ChunkLoop) (size : Nat) : Bool :=
  0 ≤ loop.pos.toInt ∧ loop.pos.toInt + loop.len.toNat ≤ size

end ChunkLoop

/-- What an endpoint does next: a ring operation, a step of its own, or an
access outside the buffer it was given. -/
inductive Action (σ : Type) where
  | write (buf : Bytes) (len : UInt32) (next : σ)
  | read (len : UInt32) (next : Bytes → σ)
  | local (next : σ)
  | outside

/-- `write` and `read` with guard and copy in one step; `none` while the guard fails. -/
def Action.perform : Action σ → SharedMemoryView → Option (SharedMemoryView × σ)
  | .write buf len next, view => if view.canPut len then some (view.put buf len, next) else none
  | .read len next, view =>
    if view.canGet len then
      let (bytes, after) := view.get len
      some (after, next bytes)
    else none
  | .local next, view => some (view, next)
  | .outside, _ => none

inductive SendPc where
  | idle
  | chunks (body : Bytes) (loop : ChunkLoop)

/-- The sending end: messages not yet begun and the position inside `send`. -/
structure Producer where
  todo : List Bytes
  pc : SendPc
  stats : Statistics

/-- `MemChannel::send`: the frame with the length, then the chunks. -/
def Producer.action (bufSize : UInt32) (producer : Producer) : Option (Action Producer) :=
  match producer.pc with
  | .idle =>
    match producer.todo with
    | [] => none
    | body :: rest =>
      let bodyLen := UInt32.ofNat body.length
      some (.write (LittleEndian.encode 4 bodyLen.toNat) 4
        { producer with todo := rest, pc := .chunks body (ChunkLoop.start bodyLen bufSize) })
  | .chunks body loop =>
    if loop.i < loop.chunkCnt then
      if loop.inside body.length then
        some (.write (body.drop loop.pos.toInt.toNat) loop.len
          { producer with pc := .chunks body loop.next })
      else some .outside
    else
      some (.local { producer with
        pc := .idle
        stats := producer.stats.statisticsSend (UInt64.ofNat body.length) })

/-- A string under `fast_resize`: kept bytes, then bytes nobody has initialised. -/
abbrev RawString := List (Option UInt8)

def fastResize (str : RawString) (size : Nat) : RawString :=
  str.take size ++ List.replicate (size - str.length) none

/-- `memcpy` into the string at `pos`. -/
def overwrite (str : RawString) (pos : Nat) (bytes : Bytes) : RawString :=
  str.take pos ++ bytes.map some ++ str.drop (pos + bytes.length)

inductive RecvPc where
  | idle
  | chunks (str : RawString) (loop : ChunkLoop)

/-- The receiving end: the strings passed to the calls still to come, the
position inside `recv`, and what the completed calls returned. -/
structure Consumer where
  todo : List Bytes
  pc : RecvPc
  returned : List RawString
  stats : Statistics

/-- `MemChannel::recv(std::string&)` and the `recv_body` it calls. -/
def Consumer.action (bufSize : UInt32) (consumer : Consumer) : Option (Action Consumer) :=
  match consumer.pc with
  | .idle =>
    match consumer.todo with
    | [] => none
    | str :: rest =>
      some (.read 4 fun bytes =>
        let bodyLen := UInt32.ofNat (LittleEndian.decode bytes)
        let str := fastResize (str.map some) bodyLen.toNat
        { consumer with
          todo := rest
          pc := .chunks str (ChunkLoop.start (UInt32.ofNat str.length) bufSize) })
  | .chunks str loop =>
    if loop.i < loop.chunkCnt then
      if loop.inside str.length then
        some (.read loop.len fun bytes =>
          { consumer with pc := .chunks (overwrite str loop.pos.toInt.toNat bytes) loop.next })
      else some .outside
    else
      some (.local { consumer with
        pc := .idle
        returned := consumer.returned ++ [str]
        stats := consumer.stats.statisticsRecv (UInt64.ofNat str.length) })

inductive Party where
  | producer
  | consumer
  deriving DecidableEq

/-- One direction of a `MemChannel` pair. -/
structure Session where
  view : SharedMemoryView
  producer : Producer
  consumer : Consumer

/-- One atomic step of a party. -/
def Session.next (bufSize : UInt32) : Party → Session → Option Session
  | .producer, session => do
    let action ← session.producer.action bufSize
    let (view, producer) ← action.perform session.view
    return { session with view, producer }
  | .consumer, session => do
    let action ← session.consumer.action bufSize
    let (view, consumer) ← action.perform session.view
    return { session with view, consumer }

/-- A fresh segment, all messages still to be sent, one string for each call of `recv`. -/
def Session.start (segment : SharedMemoryView) (bufSize : UInt32) (messages strings : List Bytes) :
    Session where
  view := segment.init bufSize true
  producer := { todo := messages, pc := .idle, stats := .zero }
  consumer := { todo := strings, pc := .idle, returned := [], stats := .zero }

end GaiaNet.Mem
