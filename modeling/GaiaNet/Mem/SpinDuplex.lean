import GaiaNet.Mem.Deadlock
import GaiaNet.Mem.SpinFifo

/-! A pair of ends over lock-free rings (`enable_cv` false): the loads, byte copies and
counter updates of `read` and `write` are the steps, and each call still looks like one. -/

namespace GaiaNet.Mem

open Lib Lib.Circular Lib.Duplex Lib.Transition

/-- A running `write` with its bytes, or a running `read` with those it has copied. -/
inductive RingCall where
  | put (buf : Bytes) (pc : CopyPc)
  | get (size : UInt32) (bytes : Bytes) (pc : CopyPc)

structure SpinDuplex where
  endpoint : Side → Endpoint
  ring : Side → SharedMemoryView
  call : Side → Option RingCall

/-- A stale guard lets no more bytes through than the ring holds. -/
theorem WriterLoads.whole_fits (rep : Represents view consumed queued)
    (known : WriterLoads view.bufSize.toNat consumed (consumed + queued.length) 0 loads)
    (loaded : loads.both = some (input, output)) (short : size.toNat ≤ 2 ^ 30)
    (passed : (input - output) + size ≤ view.bufSize) : size.toNat ≤ view.bufSize.toNat := by
  obtain ⟨first, second⟩ := Loads.both_eq loaded
  obtain ⟨old, rfl, order, close⟩ := known.outPos _ second
  have bound := rep.bufSize_le
  have span := rep.span (show old ≤ consumed + queued.length by omega) (by omega)
  rw [known.inPos _ first, UInt32.le_iff_toNat_le, UInt32.toNat_add, span] at passed
  omega

/-- A step inside a `write`, which may be too long for the ring. -/
theorem PutAt.goto (at_ : PutAt view.bufSize.toNat view.buffer consumed queued buf pc)
    (rep : Represents view consumed queued)
    (place : buf.length ≤ view.bufSize.toNat ∨ ∃ loads, pc = .guard loads)
    (short : buf.length ≤ 2 ^ 30)
    (moved : putStep order view buf (UInt32.ofNat buf.length) pc = some (.goto after next)) :
    Represents after consumed queued ∧ after.bufSize = view.bufSize ∧
      (buf.length ≤ after.bufSize.toNat ∨ ∃ loads, next = .guard loads) ∧
      PutAt after.bufSize.toNat after.buffer consumed queued buf next := by
  by_cases small : buf.length ≤ view.bufSize.toNat
  · obtain ⟨kept, sized, later⟩ := PutAt.step rep at_ small moved
    exact ⟨kept, sized, .inl (by rwa [sized]), later⟩
  · obtain ⟨loads, rfl⟩ := place.resolve_left small
    have size : (UInt32.ofNat buf.length).toNat = buf.length := by
      rw [UInt32.toNat_ofNat']
      omega
    simp only [putStep] at moved
    cases loaded : loads.both with
    | none =>
      rw [loaded] at moved
      obtain ⟨more, load, same⟩ := Option.map_eq_some_iff.mp moved
      cases same
      exact ⟨rep, rfl, .inr ⟨more, rfl⟩, at_.load rep rep.fits load⟩
    | some values =>
      obtain ⟨input, output⟩ := values
      rw [loaded] at moved
      cases moved
      refine ⟨rep, rfl, ?_⟩
      split
      · rename_i passed
        have fits := at_.whole_fits rep loaded (by omega) passed
        exact absurd (by omega) small
      · exact ⟨.inr ⟨.none, rfl⟩, .none _ _ _ _⟩

theorem putStep_return (moved : putStep order view buf size pc = some (.return after count)) :
    ∃ len, pc = .update len := by
  cases pc with
  | update len => exact ⟨len, rfl⟩
  | guard loads | clamp loads =>
    simp only [putStep] at moved
    cases loaded : loads.both <;> simp [loaded] at moved
  | part | place => cases moved
  | head | tail =>
    simp only [putStep] at moved
    split at moved <;> simp at moved

namespace SpinDuplex

open Function

/-- A step of an end that is in no ring operation: it enters one or moves on alone. -/
def enter (chunkSize : Side → UInt32) (side : Side) (spin : SpinDuplex) : Option SpinDuplex :=
  match (spin.endpoint side).action (chunkSize side) with
  | some (.write buf len _) =>
    some { spin with call := update spin.call side (some (.put (buf.take len.toNat) (.guard .none))) }
  | some (.read len _) =>
    some { spin with call := update spin.call side (some (.get len [] (.guard .none))) }
  | some (.local next) => some { spin with endpoint := update spin.endpoint side next }
  | _ => none

/-- One step of an end; `order` says which counter is loaded next. -/
def next (chunkSize : Side → UInt32) : Side × Counter → SpinDuplex → Option SpinDuplex
  | (side, order), spin =>
    match spin.call side with
    | none => spin.enter chunkSize side
    | some (.put buf pc) =>
      match (spin.endpoint side).action (chunkSize side),
          putStep order (spin.ring side) buf (UInt32.ofNat buf.length) pc with
      | some (.write _ _ _), some (.goto view pc) =>
        some { spin with
          ring := update spin.ring side view
          call := update spin.call side (some (.put buf pc)) }
      | some (.write _ _ next), some (.return view _) =>
        some {
          endpoint := update spin.endpoint side next
          ring := update spin.ring side view
          call := update spin.call side none }
      | _, _ => none
    | some (.get size bytes pc) =>
      match (spin.endpoint side).action (chunkSize side),
          getStep order (spin.ring side.other) size bytes pc with
      | some (.read _ _), some (.goto bytes pc) =>
        some { spin with call := update spin.call side (some (.get size bytes pc)) }
      | some (.read _ next), some (.return view bytes) =>
        some {
          endpoint := update spin.endpoint side (next bytes)
          ring := update spin.ring side.other view
          call := update spin.call side none }
      | _, _ => none

/-- Fresh segments without condition variables and two ends that have made no call. -/
def start (segment : Side → SharedMemoryView) (bufSize : UInt32) (script : Side → List Call) :
    SpinDuplex where
  endpoint side := { script := script side, running := .idle, returned := [], stats := .zero }
  ring side := (segment side).init bufSize false
  call _ := none

/-- What a step of an end can be, with the action it belongs to. -/
inductive Moved (chunkSize : Side → UInt32) (side : Side) (order : Counter) (before : SpinDuplex) :
    SpinDuplex → Prop where
  | alone (final : Endpoint) (free : before.call side = none)
      (chosen : (before.endpoint side).action (chunkSize side) = some (.local final)) :
      Moved chunkSize side order before
        { before with endpoint := update before.endpoint side final }
  | enterPut (free : before.call side = none)
      (chosen : (before.endpoint side).action (chunkSize side) = some (.write source len final)) :
      Moved chunkSize side order before { before with
        call := update before.call side (some (.put (source.take len.toNat) (.guard .none))) }
  | enterGet (free : before.call side = none)
      (chosen : (before.endpoint side).action (chunkSize side) = some (.read len more)) :
      Moved chunkSize side order before { before with
        call := update before.call side (some (.get len [] (.guard .none))) }
  | put (running : before.call side = some (.put buf pc))
      (chosen : (before.endpoint side).action (chunkSize side) = some (.write source len final))
      (moved : putStep order (before.ring side) buf (UInt32.ofNat buf.length) pc =
        some (.goto view later)) :
      Moved chunkSize side order before { before with
        ring := update before.ring side view
        call := update before.call side (some (.put buf later)) }
  | putReturn (running : before.call side = some (.put buf pc))
      (chosen : (before.endpoint side).action (chunkSize side) = some (.write source len final))
      (moved : putStep order (before.ring side) buf (UInt32.ofNat buf.length) pc =
        some (.return view count)) :
      Moved chunkSize side order before {
        endpoint := update before.endpoint side final
        ring := update before.ring side view
        call := update before.call side none }
  | get (running : before.call side = some (.get size bytes pc))
      (chosen : (before.endpoint side).action (chunkSize side) = some (.read len more))
      (moved : getStep order (before.ring side.other) size bytes pc = some (.goto copied later)) :
      Moved chunkSize side order before { before with
        call := update before.call side (some (.get size copied later)) }
  | getReturn (running : before.call side = some (.get size bytes pc))
      (chosen : (before.endpoint side).action (chunkSize side) = some (.read len more))
      (moved : getStep order (before.ring side.other) size bytes pc = some (.return view copied)) :
      Moved chunkSize side order before {
        endpoint := update before.endpoint side (more copied)
        ring := update before.ring side.other view
        call := update before.call side none }

theorem next_moved {before after : SpinDuplex}
    (moved : before.next chunkSize (side, order) = some after) :
    Moved chunkSize side order before after := by
  simp only [next] at moved
  cases running : before.call side with
  | none =>
    simp only [running, enter] at moved
    split at moved
    · rename_i chosen
      cases moved
      exact .enterPut running chosen
    · rename_i chosen
      cases moved
      exact .enterGet running chosen
    · rename_i chosen
      cases moved
      exact .alone _ running chosen
    · cases moved
  | some call =>
    cases call with
    | put buf pc =>
      simp only [running] at moved
      split at moved
      · rename_i chosen stepped
        cases moved
        exact .put running chosen stepped
      · rename_i chosen stepped
        cases moved
        exact .putReturn running chosen stepped
      · cases moved
    | get size bytes pc =>
      simp only [running] at moved
      split at moved
      · rename_i chosen stepped
        cases moved
        exact .get running chosen stepped
      · rename_i chosen stepped
        cases moved
        exact .getReturn running chosen stepped
      · cases moved

/-- How far the running ring operation of an end has got. A `write` of more bytes than the
ring holds never leaves its guard. -/
def CallAt (capacity : Nat) (action : Option (Action Endpoint)) (buffer : Nat → UInt8)
    (put got : Nat) (outgoing incoming : Bytes) : Option RingCall → Prop
  | none => True
  | some (.put buf pc) => ∃ source len next, action = some (.write source len next) ∧
      buf = source.take len.toNat ∧ (buf.length ≤ capacity ∨ ∃ loads, pc = .guard loads) ∧
      PutAt capacity buffer put outgoing buf pc
  | some (.get size bytes pc) => ∃ next, action = some (.read size next) ∧
      GetAt capacity got incoming size bytes pc

/-- The rings hold what is in the queues and what the running operations have stored. -/
structure Refines (bufSize : UInt32) (chunkSize : Side → UInt32) (spin : SpinDuplex)
    (net : Net Endpoint UInt8) (consumed : Side → Nat) : Prop where
  program : net.program = spin.endpoint
  sized : ∀ side, (spin.ring side).bufSize = bufSize
  queue : ∀ side, Represents (spin.ring side) (consumed side) (net.queue side)
  calls : ∀ side, CallAt bufSize.toNat ((spin.endpoint side).action (chunkSize side))
    (spin.ring side).buffer (consumed side) (consumed side.other) (net.queue side)
    (net.queue side.other) (spin.call side)

theorem CallAt.publish {call : Option RingCall}
    (at_ : CallAt capacity action buffer gone got outgoing arriving call)
    (data : Bytes) : CallAt capacity action buffer gone got outgoing (arriving ++ data) call := by
  match call with
  | none => trivial
  | some (.put buf pc) => exact at_
  | some (.get size bytes pc) =>
    obtain ⟨more, chosen, gets⟩ := at_
    exact ⟨more, chosen, gets.publish data⟩

theorem CallAt.consume {call : Option RingCall}
    (at_ : CallAt capacity action buffer gone got outgoing arriving call)
    (stored : count ≤ outgoing.length) :
    CallAt capacity action buffer (gone + count) got (outgoing.drop count) arriving call := by
  match call with
  | none => trivial
  | some (.put buf pc) =>
    obtain ⟨source, len, next, chosen, whole, place, puts⟩ := at_
    exact ⟨source, len, next, chosen, whole, place, puts.consume stored⟩
  | some (.get size bytes pc) => exact at_

namespace Refines

variable {bufSize : UInt32} {chunkSize : Side → UInt32} {messages : Side → List Bytes}
  {spin : SpinDuplex} {net : Net Endpoint UInt8} {consumed : Side → Nat} {out : Side → Bytes}

/-- Another place in the operation of one end, over the same queues. -/
theorem setCall (refines : spin.Refines bufSize chunkSize net consumed) (side : Side)
    (call : Option RingCall)
    (at_ : CallAt bufSize.toNat ((spin.endpoint side).action (chunkSize side))
      (spin.ring side).buffer (consumed side) (consumed side.other) (net.queue side)
      (net.queue side.other) call) :
    Refines bufSize chunkSize { spin with call := update spin.call side call } net consumed := by
  refine ⟨refines.program, refines.sized, refines.queue, Side.forall_of side ?_ ?_⟩
  · simpa using at_
  · simpa using refines.calls side.other

theorem alone (refines : spin.Refines bufSize chunkSize net consumed)
    (free : spin.call side = none)
    (chosen : (spin.endpoint side).action (chunkSize side) = some (.local final)) :
    ∃ later, net.next bufSize.toNat (moves chunkSize) side = some later ∧
      Refines bufSize chunkSize { spin with endpoint := update spin.endpoint side final } later
        consumed := by
  refine ⟨{ net with program := update net.program side final }, ?_, ?_, refines.sized,
    refines.queue, Side.forall_of side ?_ ?_⟩
  · exact Net.Moved.next_eq (.silent final (by simp [moves, Endpoint.move, refines.program, chosen,
      Action.move]))
  · rw [refines.program]
  · simp [free, CallAt]
  · simpa using refines.calls side.other

theorem enterPut (refines : spin.Refines bufSize chunkSize net consumed)
    (chosen : (spin.endpoint side).action (chunkSize side) = some (.write source len final)) :
    Refines bufSize chunkSize { spin with
      call := update spin.call side (some (.put (source.take len.toNat) (.guard .none))) }
      net consumed :=
  refines.setCall side _ ⟨source, len, final, chosen, rfl, .inr ⟨.none, rfl⟩, .none _ _ _ _⟩

theorem enterGet (refines : spin.Refines bufSize chunkSize net consumed)
    (chosen : (spin.endpoint side).action (chunkSize side) = some (.read len more)) :
    Refines bufSize chunkSize { spin with
      call := update spin.call side (some (.get len [] (.guard .none))) } net consumed :=
  refines.setCall side _ ⟨more, chosen, rfl, .none _ _ _⟩

theorem get (refines : spin.Refines bufSize chunkSize net consumed)
    (running : spin.call side = some (.get size bytes pc))
    (moved : getStep order (spin.ring side.other) size bytes pc = some (.goto copied later)) :
    Refines bufSize chunkSize { spin with
      call := update spin.call side (some (.get size copied later)) } net consumed := by
  have at_ := refines.calls side
  rw [running] at at_
  obtain ⟨more, chosen, gets⟩ := at_
  have kept := GetAt.step (refines.queue side.other) (by rwa [refines.sized]) moved
  rw [refines.sized] at kept
  exact refines.setCall side _ ⟨more, chosen, kept⟩

theorem put (refines : spin.Refines bufSize chunkSize net consumed)
    (short : LegalSize (chunkSize side))
    (running : spin.call side = some (.put buf pc))
    (fits : buf.length ≤ (chunkSize side).toNat)
    (moved : putStep order (spin.ring side) buf (UInt32.ofNat buf.length) pc =
      some (.goto view later)) :
    Refines bufSize chunkSize { spin with
      ring := update spin.ring side view
      call := update spin.call side (some (.put buf later)) } net consumed := by
  have at_ := refines.calls side
  rw [running] at at_
  obtain ⟨source, len, next, chosen, whole, place, puts⟩ := at_
  rw [← refines.sized side] at place puts
  have high := short.high
  obtain ⟨rep, sized, placed, kept⟩ := puts.goto (refines.queue side) place (by omega) moved
  rw [sized, refines.sized] at kept placed
  refine ⟨refines.program, Side.forall_of side ?_ ?_, Side.forall_of side ?_ ?_,
    Side.forall_of side ?_ ?_⟩
  · simpa using sized.trans (refines.sized side)
  · simpa using refines.sized side.other
  · simpa using rep
  · simpa using refines.queue side.other
  · simp only [update_self]
    exact ⟨source, len, next, chosen, whole, placed, kept⟩
  · simpa using refines.calls side.other

theorem fits (refines : spin.Refines bufSize chunkSize net consumed)
    (balanced : Net.Balanced (Talking chunkSize messages) out net)
    (legal : ∀ side, LegalSize (chunkSize side)) (running : spin.call side = some (.put buf pc)) :
    buf.length ≤ (chunkSize side).toNat := by
  have at_ := refines.calls side
  rw [running] at at_
  obtain ⟨source, len, next, chosen, rfl, -⟩ := at_
  have spec := Endpoint.Talks.action (legal side) (balanced side)
  rw [refines.program, chosen] at spec
  obtain ⟨-, small, -⟩ := spec
  rw [UInt32.le_iff_toNat_le] at small
  exact Nat.le_trans (List.length_take_le _ _) small

/-- The update of `in` publishes all the bytes of the call at once. -/
theorem putReturn (refines : spin.Refines bufSize chunkSize net consumed)
    (running : spin.call side = some (.put buf pc))
    (chosen : (spin.endpoint side).action (chunkSize side) = some (.write source len final))
    (moved : putStep order (spin.ring side) buf (UInt32.ofNat buf.length) pc =
      some (.return view count)) :
    ∃ later, net.next bufSize.toNat (moves chunkSize) side = some later ∧
      Refines bufSize chunkSize {
        endpoint := update spin.endpoint side final
        ring := update spin.ring side view
        call := update spin.call side none } later consumed := by
  have at_ := refines.calls side
  rw [running] at at_
  obtain ⟨source', len', final', same, rfl, place, puts⟩ := at_
  rw [chosen] at same
  cases same
  obtain ⟨len, rfl⟩ := putStep_return moved
  have small := place.resolve_right fun ⟨loads, here⟩ => by cases here
  have room := puts.1
  rw [← refines.sized side] at small puts
  obtain ⟨-, sized, rep⟩ := PutAt.step (refines.queue side) puts small moved
  refine ⟨_, Net.Moved.next_eq (.write _ final ?_ room), ?_, ?_, ?_, ?_⟩
  · simp only [moves, Endpoint.move, refines.program, chosen, Option.bind_some, Action.move]
  · rw [refines.program]
  · refine Side.forall_of side ?_ ?_
    · simpa using sized.trans (refines.sized side)
    · simpa using refines.sized side.other
  · refine Side.forall_of side ?_ ?_
    · simpa using rep
    · simpa using refines.queue side.other
  · refine Side.forall_of side ?_ ?_
    · simp [CallAt]
    · have theirs := refines.calls side.other
      simpa using theirs.publish _

/-- The update of `out` gives back the room of all the bytes at once. -/
theorem getReturn (refines : spin.Refines bufSize chunkSize net consumed)
    (running : spin.call side = some (.get size bytes pc))
    (chosen : (spin.endpoint side).action (chunkSize side) = some (.read len more))
    (moved : getStep order (spin.ring side.other) size bytes pc = some (.return view copied)) :
    ∃ later, net.next bufSize.toNat (moves chunkSize) side = some later ∧
      Refines bufSize chunkSize {
        endpoint := update spin.endpoint side (more copied)
        ring := update spin.ring side.other view
        call := update spin.call side none } later
        (update consumed side.other (consumed side.other + size.toNat)) := by
  have at_ := refines.calls side
  rw [running] at at_
  obtain ⟨more', same, gets⟩ := at_
  rw [chosen] at same
  cases same
  obtain ⟨stored, rfl, sized, buffer, rep⟩ := GetAt.step (refines.queue side.other)
    (by rwa [refines.sized]) moved
  refine ⟨_, Net.Moved.next_eq (.read size.toNat more ?_ stored), ?_, ?_, ?_, ?_⟩
  · simp only [moves, Endpoint.move, refines.program, chosen, Option.bind_some, Action.move]
  · rw [refines.program]
  · refine Side.forall_of side ?_ ?_
    · simpa using refines.sized side
    · simpa using sized.trans (refines.sized side.other)
  · refine Side.forall_of side ?_ ?_
    · simpa using refines.queue side
    · simpa using rep
  · refine Side.forall_of side ?_ ?_
    · simp [CallAt]
    · have theirs := refines.calls side.other
      simpa [buffer] using theirs.consume stored

/-- A step of the ends is one of the queues or none at all. -/
theorem step (refines : spin.Refines bufSize chunkSize net consumed)
    (balanced : Net.Balanced (Talking chunkSize messages) out net)
    (legal : ∀ side, LegalSize (chunkSize side)) (moved : Moved chunkSize side order spin after) :
    after.Refines bufSize chunkSize net consumed ∨
      ∃ later taken, net.next bufSize.toNat (moves chunkSize) side = some later ∧
        after.Refines bufSize chunkSize later taken := by
  cases moved with
  | alone final free chosen =>
    obtain ⟨later, step, kept⟩ := refines.alone free chosen
    exact .inr ⟨later, consumed, step, kept⟩
  | enterPut free chosen => exact .inl (refines.enterPut chosen)
  | enterGet free chosen => exact .inl (refines.enterGet chosen)
  | put running chosen moved =>
    exact .inl (refines.put (legal side) running (refines.fits balanced legal running) moved)
  | putReturn running chosen moved =>
    obtain ⟨later, step, kept⟩ := refines.putReturn running chosen moved
    exact .inr ⟨later, consumed, step, kept⟩
  | get running chosen moved => exact .inl (refines.get running moved)
  | getReturn running chosen moved =>
    obtain ⟨later, step, kept⟩ := refines.getReturn running chosen moved
    exact .inr ⟨later, _, step, kept⟩

end Refines

end SpinDuplex

end GaiaNet.Mem
