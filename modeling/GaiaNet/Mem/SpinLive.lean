import GaiaNet.Mem.SpinDuplex

/-! The lock-free path agrees with the one that takes locks: an operation that the queues
allow gets through its loads and copies when its end is let run, so both paths bring the ends
to the same places. -/

namespace GaiaNet.Mem

open Lib Lib.Circular Lib.Duplex Lib.Transition

namespace Loads

/-- Operands still to be loaded. -/
def missing (loads : Loads) : Nat :=
  (if loads.inPos.isNone then 1 else 0) + if loads.outPos.isNone then 1 else 0

/-- The counter of the other side is not loaded yet, or was loaded as it now is. -/
def freshOut (view : SharedMemoryView) (loads : Loads) : Bool :=
  loads.outPos.all (· == view.outPos)

def freshIn (view : SharedMemoryView) (loads : Loads) : Bool :=
  loads.inPos.all (· == view.inPos)

variable {loads : Loads}

theorem missing_both (loaded : loads.both = some values) : loads.missing = 0 := by
  obtain ⟨input, output⟩ := values
  obtain ⟨first, second⟩ := both_eq loaded
  simp [missing, first, second]

/-- Loading an operand makes nothing stale. -/
theorem exists_load (view : SharedMemoryView) (unloaded : loads.both = Option.none) :
    ∃ order after, loads.load view order = some after ∧ after.missing < loads.missing ∧
      (loads.freshOut view → after.freshOut view) ∧ (loads.freshIn view → after.freshIn view) := by
  obtain ⟨first, second⟩ := loads
  cases first with
  | none =>
    refine ⟨.inPos, ⟨some view.inPos, second⟩, rfl, ?_, id, ?_⟩
    · simp [missing]
    · simp [freshIn]
  | some input =>
    cases second with
    | none =>
      refine ⟨.outPos, ⟨some input, some view.outPos⟩, rfl, ?_, ?_, id⟩
      · simp [missing]
      · simp [freshOut]
    | some output => simp [both] at unloaded

end Loads

/-- Steps left of an operation that is let run; a guard that has loaded an old counter
may fail once. -/
def CopyPc.rank (fresh : Loads → Bool) (size : Nat) : CopyPc → Nat
  | .guard loads => size + 9 + loads.missing + if fresh loads then 0 else 3
  | .clamp loads => size + 6 + loads.missing
  | .part _ => size + 5
  | .place _ _ => size + 4
  | .head _ _ _ copied => 3 + (size - copied)
  | .tail _ l copied => 2 + (size - l.toNat - copied)
  | .update _ => 1

theorem WriterLoads.passes (rep : Represents view consumed queued)
    (known : WriterLoads view.bufSize.toNat consumed (consumed + queued.length) 0 loads)
    (loaded : loads.both = some (input, output)) (fresh : loads.freshOut view)
    (room : queued.length + size.toNat ≤ view.bufSize.toNat) :
    (input - output) + size ≤ view.bufSize := by
  obtain ⟨first, second⟩ := Loads.both_eq loaded
  have bound := rep.bufSize_le
  have now : output = view.outPos := by simpa [Loads.freshOut, second] using fresh
  rw [now, known.inPos _ first, ← rep.inPos, UInt32.le_iff_toNat_le, UInt32.toNat_add, rep.stored]
  omega

theorem ReaderLoads.passes (rep : Represents view consumed queued)
    (known : ReaderLoads consumed (consumed + queued.length) 0 loads)
    (loaded : loads.both = some (input, output)) (fresh : loads.freshIn view)
    (stored : size.toNat ≤ queued.length) : input - output ≥ size := by
  obtain ⟨first, second⟩ := Loads.both_eq loaded
  have now : input = view.inPos := by simpa [Loads.freshIn, first] using fresh
  rw [now, known.outPos _ second, ← rep.outPos, ge_iff_le, UInt32.le_iff_toNat_le, rep.stored]
  exact stored

/-- A `write` that has room can always make a step, and no step leads back. -/
theorem PutAt.advances (rep : Represents view consumed queued)
    (at_ : PutAt view.bufSize.toNat view.buffer consumed queued buf pc)
    (room : queued.length + buf.length ≤ view.bufSize.toNat) :
    ∃ order result, putStep order view buf (UInt32.ofNat buf.length) pc = some result ∧
      ∀ after next, result = .goto after next → after.outPos = view.outPos ∧
        next.rank (Loads.freshOut view) buf.length < pc.rank (Loads.freshOut view) buf.length := by
  have bound := rep.bufSize_le
  have size : (UInt32.ofNat buf.length).toNat = buf.length := by
    rw [UInt32.toNat_ofNat']
    omega
  cases pc with
  | guard loads =>
    cases loaded : loads.both with
    | none =>
      obtain ⟨order, more, load, fewer, fresh, -⟩ := Loads.exists_load view loaded
      refine ⟨order, .goto view (.guard more), by simp [putStep, loaded, load], ?_⟩
      rintro after next same
      cases same
      refine ⟨rfl, ?_⟩
      simp only [CopyPc.rank]
      split <;> split <;> first | omega | simp_all
    | some values =>
      obtain ⟨input, output⟩ := values
      have whole := Loads.missing_both loaded
      refine ⟨.inPos, _, by simp only [putStep, loaded]; rfl, ?_⟩
      rintro after next same
      cases same
      refine ⟨rfl, ?_⟩
      split
      · simp only [CopyPc.rank, Loads.missing, Loads.none, Option.isNone_none, ↓reduceIte]
        omega
      · rename_i failed
        have stale : ¬ loads.freshOut view := fun fresh =>
          failed (at_.passes rep loaded fresh (by omega))
        simp only [CopyPc.rank, whole, stale]
        simp [Loads.missing, Loads.none, Loads.freshOut]
  | clamp loads =>
    cases loaded : loads.both with
    | none =>
      obtain ⟨order, more, load, fewer, -⟩ := Loads.exists_load view loaded
      refine ⟨order, .goto view (.clamp more), by simp [putStep, loaded, load], ?_⟩
      rintro after next same
      cases same
      exact ⟨rfl, by simp only [CopyPc.rank]; omega⟩
    | some values =>
      refine ⟨.inPos, _, by simp only [putStep, loaded]; rfl, ?_⟩
      rintro after next same
      cases same
      exact ⟨rfl, by simp only [CopyPc.rank]; omega⟩
  | part len =>
    refine ⟨.inPos, _, rfl, ?_⟩
    rintro after next same
    cases same
    exact ⟨rfl, by simp only [CopyPc.rank]; omega⟩
  | place len l =>
    refine ⟨.inPos, _, rfl, ?_⟩
    rintro after next same
    cases same
    exact ⟨rfl, by simp only [CopyPc.rank]; omega⟩
  | head len l offset copied =>
    obtain ⟨-, whole, first, -, within, -⟩ := at_
    unfold firstCopy at first
    by_cases more : copied < l.toNat
    · have inside : copied < buf.length := by omega
      refine ⟨.inPos, .goto (view.poke (offset.toNat + copied) buf[copied]) (.head len l offset (copied + 1)),
        by simp [putStep, more, inside], ?_⟩
      rintro after next same
      cases same
      exact ⟨rfl, by simp only [CopyPc.rank]; omega⟩
    · refine ⟨.inPos, .goto view (.tail len l 0), by simp [putStep, more], ?_⟩
      rintro after next same
      cases same
      exact ⟨rfl, by simp only [CopyPc.rank]; omega⟩
  | tail len l copied =>
    obtain ⟨-, whole, first, within, -⟩ := at_
    unfold firstCopy at first
    have rest := Represents.secondPart len l (by omega)
    by_cases more : copied < (len - l).toNat
    · have inside : l.toNat + copied < buf.length := by omega
      refine ⟨.inPos, .goto (view.poke copied buf[l.toNat + copied]) (.tail len l (copied + 1)),
        by simp [putStep, more, inside], ?_⟩
      rintro after next same
      cases same
      exact ⟨rfl, by simp only [CopyPc.rank]; omega⟩
    · refine ⟨.inPos, .goto view (.update len), by simp [putStep, more], ?_⟩
      rintro after next same
      cases same
      exact ⟨rfl, by simp only [CopyPc.rank]; omega⟩
  | update len =>
    refine ⟨.inPos, _, rfl, ?_⟩
    rintro after next same
    cases same

/-- The same for a `read` whose bytes are there. -/
theorem GetAt.advances (rep : Represents view consumed queued)
    (at_ : GetAt view.bufSize.toNat consumed queued size bytes pc)
    (stored : size.toNat ≤ queued.length) :
    ∃ order result, getStep order view size bytes pc = some result ∧
      ∀ more next, result = .goto more next →
        next.rank (Loads.freshIn view) size.toNat < pc.rank (Loads.freshIn view) size.toNat := by
  cases pc with
  | guard loads =>
    obtain ⟨-, known⟩ := at_
    cases loaded : loads.both with
    | none =>
      obtain ⟨order, more, load, fewer, -, fresh⟩ := Loads.exists_load view loaded
      refine ⟨order, .goto bytes (.guard more), by simp [getStep, loaded, load], ?_⟩
      rintro copied next same
      cases same
      simp only [CopyPc.rank]
      split <;> split <;> first | omega | simp_all
    | some values =>
      obtain ⟨input, output⟩ := values
      have whole := Loads.missing_both loaded
      refine ⟨.inPos, _, by simp only [getStep, loaded]; rfl, ?_⟩
      rintro copied next same
      cases same
      split
      · simp only [CopyPc.rank, Loads.missing, Loads.none, Option.isNone_none, ↓reduceIte]
        omega
      · rename_i failed
        have stale : ¬ loads.freshIn view := fun fresh => failed (known.passes rep loaded fresh stored)
        simp only [CopyPc.rank, whole, stale]
        simp [Loads.missing, Loads.none, Loads.freshIn]
  | clamp loads =>
    cases loaded : loads.both with
    | none =>
      obtain ⟨order, more, load, fewer, -⟩ := Loads.exists_load view loaded
      refine ⟨order, .goto bytes (.clamp more), by simp [getStep, loaded, load], ?_⟩
      rintro copied next same
      cases same
      simp only [CopyPc.rank]
      omega
    | some values =>
      refine ⟨.inPos, _, by simp only [getStep, loaded]; rfl, ?_⟩
      rintro copied next same
      cases same
      simp only [CopyPc.rank]
      omega
  | part len | place len l =>
    refine ⟨.inPos, _, rfl, ?_⟩
    rintro copied next same
    cases same
    simp only [CopyPc.rank]
    omega
  | head len l offset copied =>
    obtain ⟨-, rfl, first, -, within, -⟩ := at_
    unfold firstCopy at first
    by_cases more : copied < l.toNat
    · refine ⟨.inPos, _, by simp only [getStep, if_pos more]; rfl, ?_⟩
      rintro copied next same
      cases same
      simp only [CopyPc.rank]
      omega
    · refine ⟨.inPos, _, by simp only [getStep, if_neg more]; rfl, ?_⟩
      rintro copied next same
      cases same
      simp only [CopyPc.rank]
      omega
  | tail len l copied =>
    obtain ⟨-, rfl, first, within, -⟩ := at_
    unfold firstCopy at first
    have rest := Represents.secondPart len l (by omega)
    by_cases more : copied < (len - l).toNat
    · refine ⟨.inPos, _, by simp only [getStep, if_pos more]; rfl, ?_⟩
      rintro copied next same
      cases same
      simp only [CopyPc.rank]
      omega
    · refine ⟨.inPos, _, by simp only [getStep, if_neg more]; rfl, ?_⟩
      rintro copied next same
      cases same
      simp only [CopyPc.rank]
      omega
  | update len =>
    refine ⟨.inPos, _, rfl, ?_⟩
    rintro copied next same
    cases same

namespace SpinDuplex

open Function

variable {bufSize : UInt32} {chunkSize : Side → UInt32} {messages : Side → List Bytes}
  {spin : SpinDuplex} {net later : Net Endpoint UInt8} {consumed : Side → Nat} {out : Side → Bytes}

theorem Moved.next_eq (moved : Moved chunkSize side order spin after) :
    spin.next chunkSize (side, order) = some after := by
  cases moved with
  | alone final free chosen | enterPut free chosen | enterGet free chosen =>
    simp [next, enter, free, chosen]
  | put running chosen moved | putReturn running chosen moved | get running chosen moved
  | getReturn running chosen moved => simp [next, running, chosen, moved]

namespace Refines

theorem room (refines : spin.Refines bufSize chunkSize net consumed)
    (chosen : (spin.endpoint side).action (chunkSize side) = some (.write source len final))
    (ready : net.next bufSize.toNat (moves chunkSize) side = some later) :
    (net.queue side).length + (source.take len.toNat).length ≤ bufSize.toNat := by
  have move : moves chunkSize side (net.program side) = some (.write (source.take len.toNat) final) := by
    simp only [moves, Endpoint.move, refines.program, chosen, Option.bind_some, Action.move]
  unfold Net.next at ready
  rw [move] at ready
  exact (Option.ite_none_right_eq_some.mp ready).1

theorem stored (refines : spin.Refines bufSize chunkSize net consumed)
    (chosen : (spin.endpoint side).action (chunkSize side) = some (.read len more))
    (ready : net.next bufSize.toNat (moves chunkSize) side = some later) :
    len.toNat ≤ (net.queue side.other).length := by
  have move : moves chunkSize side (net.program side) = some (.read len.toNat more) := by
    simp only [moves, Endpoint.move, refines.program, chosen, Option.bind_some, Action.move]
  unfold Net.next at ready
  rw [move] at ready
  exact (Option.ite_none_right_eq_some.mp ready).1

/-- A `write` that has room returns when its end is let run. -/
theorem finishPut (refines : spin.Refines bufSize chunkSize net consumed)
    (balanced : Net.Balanced (Talking chunkSize messages) out net)
    (legal : ∀ side, LegalSize (chunkSize side))
    (running : spin.call side = some (.put buf pc))
    (ready : net.next bufSize.toNat (moves chunkSize) side = some later) :
    ∃ after, Reaches (SpinDuplex.next chunkSize) spin after ∧
      after.Refines bufSize chunkSize later consumed ∧ after.call = update spin.call side none := by
  induction left : pc.rank (Loads.freshOut (spin.ring side)) buf.length using Nat.strongRecOn
    generalizing spin pc with
  | ind steps ih =>
    have at_ := refines.calls side
    rw [running] at at_
    obtain ⟨source, len, final, chosen, rfl, place, puts⟩ := at_
    have room := refines.room chosen ready
    obtain ⟨order, result, moved, lower⟩ :=
      PutAt.advances (refines.queue side) (by rwa [refines.sized]) (by rwa [refines.sized])
    cases result with
    | goto view next =>
      obtain ⟨same, shorter⟩ := lower view next rfl
      have stepped : Moved chunkSize side order spin _ := .put running chosen moved
      have kept := refines.put (legal side) running (refines.fits balanced legal running) moved
      have smaller : next.rank (Loads.freshOut (update spin.ring side view side))
          (source.take len.toNat).length < steps := by
        rw [update_self, ← left]
        unfold Loads.freshOut at shorter ⊢
        rwa [same]
      obtain ⟨after, path, last, calls⟩ := ih _ smaller kept (update_self _ _ _) rfl
      refine ⟨after, ((Reaches.refl _ _).step stepped.next_eq).trans path, last, ?_⟩
      simpa using calls
    | «return» view count =>
      have stepped : Moved chunkSize side order spin _ := .putReturn running chosen moved
      obtain ⟨after, step, kept⟩ := refines.putReturn running chosen moved
      rw [ready] at step
      cases step
      exact ⟨_, (Reaches.refl _ _).step stepped.next_eq, kept, rfl⟩

/-- A `read` whose bytes are there returns when its end is let run. -/
theorem finishGet (refines : spin.Refines bufSize chunkSize net consumed)
    (running : spin.call side = some (.get size bytes pc))
    (ready : net.next bufSize.toNat (moves chunkSize) side = some later) :
    ∃ after taken, Reaches (SpinDuplex.next chunkSize) spin after ∧
      after.Refines bufSize chunkSize later taken ∧ after.call = update spin.call side none := by
  induction left : pc.rank (Loads.freshIn (spin.ring side.other)) size.toNat using Nat.strongRecOn
    generalizing spin bytes pc with
  | ind steps ih =>
    have at_ := refines.calls side
    rw [running] at at_
    obtain ⟨more, chosen, gets⟩ := at_
    have stored := refines.stored chosen ready
    obtain ⟨order, result, moved, lower⟩ :=
      GetAt.advances (refines.queue side.other) (by rwa [refines.sized]) stored
    cases result with
    | goto copied next =>
      have shorter := lower copied next rfl
      have stepped : Moved chunkSize side order spin _ := .get running chosen moved
      have kept := refines.get running moved
      obtain ⟨after, taken, path, last, calls⟩ :=
        ih _ (left ▸ shorter) kept (update_self _ _ _) rfl
      refine ⟨after, taken, ((Reaches.refl _ _).step stepped.next_eq).trans path, last, ?_⟩
      simpa using calls
    | «return» view copied =>
      have stepped : Moved chunkSize side order spin _ := .getReturn running chosen moved
      obtain ⟨after, step, kept⟩ := refines.getReturn running chosen moved
      rw [ready] at step
      cases step
      exact ⟨_, _, (Reaches.refl _ _).step stepped.next_eq, kept, rfl⟩

/-- Where the queues allow a step of an end, the end makes it when it is let run. -/
theorem realize (refines : spin.Refines bufSize chunkSize net consumed)
    (balanced : Net.Balanced (Talking chunkSize messages) out net)
    (legal : ∀ side, LegalSize (chunkSize side))
    (ready : net.next bufSize.toNat (moves chunkSize) side = some later) :
    ∃ after taken, Reaches (SpinDuplex.next chunkSize) spin after ∧
      after.Refines bufSize chunkSize later taken ∧ after.call = update spin.call side none := by
  cases running : spin.call side with
  | some call =>
    cases call with
    | put buf pc =>
      obtain ⟨after, path, last, calls⟩ := refines.finishPut balanced legal running ready
      exact ⟨after, consumed, path, last, calls⟩
    | get size bytes pc => exact refines.finishGet running ready
  | none =>
    cases chosen : (spin.endpoint side).action (chunkSize side) with
    | none => simp [Net.next, moves, Endpoint.move, refines.program, chosen] at ready
    | some action =>
      cases action with
      | write source len final =>
        have stepped : Moved chunkSize side .inPos spin _ := .enterPut running chosen
        obtain ⟨after, path, last, calls⟩ := (refines.enterPut chosen).finishPut balanced legal
          (update_self _ _ _) ready
        refine ⟨after, consumed, ((Reaches.refl _ _).step stepped.next_eq).trans path, last, ?_⟩
        simpa using calls
      | read len more =>
        have stepped : Moved chunkSize side .inPos spin _ := .enterGet running chosen
        obtain ⟨after, taken, path, last, calls⟩ := (refines.enterGet chosen).finishGet
          (update_self _ _ _) ready
        refine ⟨after, taken, ((Reaches.refl _ _).step stepped.next_eq).trans path, last, ?_⟩
        simpa using calls
      | «local» final =>
        have stepped : Moved chunkSize side .inPos spin _ := .alone final running chosen
        obtain ⟨after, step, kept⟩ := refines.alone running chosen
        rw [ready] at step
        cases step
        refine ⟨_, consumed, (Reaches.refl _ _).step stepped.next_eq, kept, ?_⟩
        exact (update_eq_self_iff.mpr running.symm).symm
      | outside => simp [Net.next, moves, Endpoint.move, refines.program, chosen, Action.move] at ready

end Refines

/-- Rings with running operations beside queues, with what both ends still have to say. -/
def Coupled (bufSize : UInt32) (chunkSize : Side → UInt32) (messages : Side → List Bytes)
    (spin : SpinDuplex) (net : Net Endpoint UInt8) : Prop :=
  (∃ consumed, spin.Refines bufSize chunkSize net consumed) ∧
    ∃ out, Net.Balanced (Talking chunkSize messages) out net

theorem Coupled.step (coupled : spin.Coupled bufSize chunkSize messages net)
    (legal : ∀ side, LegalSize (chunkSize side))
    (moved : spin.next chunkSize label = some after) :
    ∃ later, (later = net ∨ Step (Net.next bufSize.toNat (moves chunkSize)) net later) ∧
      after.Coupled bufSize chunkSize messages later := by
  obtain ⟨⟨consumed, refines⟩, out, balanced⟩ := coupled
  obtain ⟨side, order⟩ := label
  rcases refines.step balanced legal (next_moved moved) with same | ⟨later, taken, ready, kept⟩
  · exact ⟨net, .inl rfl, ⟨consumed, same⟩, out, balanced⟩
  · obtain ⟨rest, still, -, -⟩ := balanced.moved (talking_follows legal) (Net.next_moved ready)
    exact ⟨later, .inr ⟨side, ready⟩, ⟨taken, kept⟩, rest, still⟩

/-- A run of the queues is made by letting one end at a time run. -/
theorem Coupled.realizes (coupled : spin.Coupled bufSize chunkSize messages net)
    (legal : ∀ side, LegalSize (chunkSize side))
    (path : Reaches (Net.next bufSize.toNat (moves chunkSize)) net later) :
    ∃ after, Reaches (SpinDuplex.next chunkSize) spin after ∧
      after.Coupled bufSize chunkSize messages later ∧
      ∀ side, spin.call side = none → after.call side = none := by
  induction path with
  | refl => exact ⟨spin, Reaches.refl _ _, coupled, fun _ free => free⟩
  | tail _ moved ih =>
    obtain ⟨side, ready⟩ := moved
    obtain ⟨middle, reached, ⟨⟨consumed, refines⟩, out, balanced⟩, free⟩ := ih
    obtain ⟨after, taken, path, kept, calls⟩ := refines.realize balanced legal ready
    obtain ⟨rest, still, -, -⟩ := balanced.moved (talking_follows legal) (Net.next_moved ready)
    refine ⟨after, reached.trans path, ⟨⟨taken, kept⟩, rest, still⟩, fun any none => ?_⟩
    rw [calls, update_apply]
    split
    · rfl
    · exact free any none

theorem Coupled.initial (sized : Sized bufSize chunkSize) (segment : Side → SharedMemoryView)
    (script : Side → List Call) (short : ∀ side, ∀ body ∈ sent (script side), body.length ≤ 2 ^ 31) :
    (start segment bufSize script).Coupled bufSize chunkSize (incoming script) (startNet script) := by
  obtain ⟨exponent, low, high, size⟩ := sized.segment
  obtain ⟨-, balanced⟩ := sized.coupled segment short
  refine ⟨⟨fun _ => 0, rfl, fun _ => rfl, fun side => ?_, fun _ => trivial⟩, balanced⟩
  exact ⟨⟨exponent, low, high, size⟩, rfl, rfl, Nat.zero_le _, holds_nil _ _ _⟩

/-- An end without calls is in no ring operation. -/
theorem Refines.free (refines : spin.Refines bufSize chunkSize net consumed)
    (ended : AllReturned net) (side : Side) : spin.call side = none := by
  obtain ⟨idle, script⟩ := ended side
  have at_ := refines.calls side
  have still : (spin.endpoint side).action (chunkSize side) = none := by
    rw [← refines.program, Endpoint.action, idle, script]
  cases running : spin.call side with
  | none => rfl
  | some call =>
    rw [running, still] at at_
    cases call with
    | put buf pc =>
      obtain ⟨source, len, final, chosen, -⟩ := at_
      cases chosen
    | get size bytes pc =>
      obtain ⟨more, chosen, -⟩ := at_
      cases chosen

/-- Both ends have made all their calls, received exactly these messages, and are in no
ring operation. -/
def Done (received : Side → List Bytes) (spin : SpinDuplex) : Prop :=
  (∀ side, spin.call side = none) ∧ Duplex.Done received ⟨spin.endpoint, spin.ring⟩

end SpinDuplex

/-- With and without locks the ends get to the same places: whatever the interleaving of
loads, copies and counter updates has brought them to is reached by whole ring operations,
and the other way round. -/
theorem spin_agrees (segment : Side → SharedMemoryView) (bufSize : UInt32)
    (chunkSize : Side → UInt32) (script : Side → List Call) (sized : Sized bufSize chunkSize)
    (short : ∀ side, ∀ body ∈ sent (script side), body.length ≤ 2 ^ 31) :
    (∀ spin, Reaches (SpinDuplex.next chunkSize) (SpinDuplex.start segment bufSize script) spin →
      ∃ duplex, Reaches (Duplex.next chunkSize) (Duplex.start segment bufSize script) duplex ∧
        duplex.endpoint = spin.endpoint) ∧
    ∀ duplex, Reaches (Duplex.next chunkSize) (Duplex.start segment bufSize script) duplex →
      ∃ spin, Reaches (SpinDuplex.next chunkSize) (SpinDuplex.start segment bufSize script) spin ∧
        spin.endpoint = duplex.endpoint ∧ ∀ side, spin.call side = none := by
  have atStart := sized.coupled segment short
  have step := @coupled_step bufSize chunkSize (incoming script) sized.legal
  have fine := SpinDuplex.Coupled.initial sized segment script short
  constructor
  · intro spin path
    obtain ⟨net, moved, ⟨consumed, refines⟩, -⟩ := path.related _ fine
      fun label before after old _ coupled moved => coupled.step sized.legal moved
    obtain ⟨duplex, reached, atNet⟩ := realizes_lockstep _ step atStart moved
    exact ⟨duplex, reached, by rw [← atNet.1.program, refines.program]⟩
  · intro duplex path
    obtain ⟨net, moved, atNet⟩ := reaches_lockstep _ step atStart path
    obtain ⟨spin, reached, ⟨⟨consumed, refines⟩, -⟩, free⟩ := fine.realizes sized.legal moved
    exact ⟨spin, reached, by rw [← refines.program, atNet.1.program], fun side => free side rfl⟩

/-- A run of whole ring operations delivers three bytes, so one over lock-free rings does. -/
theorem spin_agrees_three :
    ∃ spin, Reaches (SpinDuplex.next fun _ => 8) (SpinDuplex.start (fun _ => .zeroed) 8
        (sides [.send [1, 2, 3]] [.recv [9]])) spin ∧
      (spin.endpoint .right).returned = [[some 1, some 2, some 3]] ∧ spin.call .left = none := by
  have ran : (run (Duplex.next fun _ => 8)
      [.left, .left, .left, .left, .left, .right, .right, .right, .right, .right]
      (Duplex.start (fun _ => .zeroed) 8 (sides [.send [1, 2, 3]] [.recv [9]]))).map
      (fun duplex => (duplex.endpoint .right).returned) = some [[some 1, some 2, some 3]] := by
    decide +kernel
  obtain ⟨duplex, finished, returned⟩ := Option.map_eq_some_iff.mp ran
  obtain ⟨spin, path, same, free⟩ := (spin_agrees (fun _ => .zeroed) 8 (fun _ => 8)
    (sides [.send [1, 2, 3]] [.recv [9]]) Sized.eight
    (fun side => by cases side <;> simp [sides, sent])).2 duplex (Reaches.ofRun _ finished)
  exact ⟨spin, path, by rw [same, returned], free .left⟩

/-- Over lock-free rings too, two scripts can always run to their end exactly if their whole
calls do. -/
theorem spin_completes_iff (segment : Side → SharedMemoryView) (bufSize : UInt32)
    (chunkSize : Side → UInt32) (script : Side → List Call) (exchange : Exchange)
    (sized : Sized bufSize chunkSize) (fits : ∀ side, (chunkSize side).toNat ≤ bufSize.toNat)
    (short : ∀ side, ∀ body ∈ sent (script side), body.length ≤ 2 ^ 31)
    (path : Reaches (Exchange.next bufSize.toNat) (Exchange.start script) exchange)
    (stopped : Halted (Exchange.next bufSize.toNat) exchange) :
    (∀ reached, Reaches (SpinDuplex.next chunkSize) (SpinDuplex.start segment bufSize script) reached →
      ∃ final, Reaches (SpinDuplex.next chunkSize) reached final ∧ final.Done exchange.received) ↔
    exchange.Finished := by
  have fine := SpinDuplex.Coupled.initial sized segment script short
  have matched : ∀ label before after old, Reaches (Net.next bufSize.toNat (moves chunkSize))
      (startNet script) old → before.Coupled bufSize chunkSize (incoming script) old →
      SpinDuplex.next chunkSize label before = some after → _ :=
    fun _ _ _ _ _ coupled moved => coupled.step sized.legal moved
  obtain ⟨net, run, clean, still⟩ := sized.follows fits short path
  constructor
  · intro returns
    refine Classical.byContradiction fun unfinished => ?_
    obtain ⟨final, reached, -, done⟩ := returns _ (Reaches.refl _ _)
    obtain ⟨last, moved, ⟨consumed, refines⟩, -⟩ := reached.related _ fine matched
    have ended : AllReturned last := fun side => by
      rw [refines.program]
      exact ⟨(done side).1, (done side).2.1⟩
    have ends := (Net.commutes bufSize.toNat (moves chunkSize)).reaches moved ended.halted run
    exact clean.never_returns still sized.legal stopped unfinished ends ended
  · intro finished reached strayed
    have ended : AllReturned net := fun side =>
      ⟨clean.idle side, by rw [clean.script, finished side]⟩
    obtain ⟨last, moved, coupled⟩ := strayed.related _ fine matched
    have ends := (Net.commutes bufSize.toNat (moves chunkSize)).reaches run ended.halted moved
    obtain ⟨final, realized, ⟨⟨consumed, refines⟩, -⟩, -⟩ := coupled.realizes sized.legal ends
    refine ⟨final, realized, refines.free ended, fun side => ?_⟩
    simp only [← refines.program]
    exact ⟨clean.idle side, (ended side).2, clean.returned side⟩

/-- Two ends that both send first: three bytes fit into segments of eight, five do not. -/
theorem spin_completes_three_not_five :
    (∃ final, Reaches (SpinDuplex.next fun _ => 8) (SpinDuplex.start (fun _ => .zeroed) 8
        fun _ => [.send [1, 2, 3], .recv []]) final ∧ final.Done fun _ => [[1, 2, 3]]) ∧
    ¬ ∀ reached, Reaches (SpinDuplex.next fun _ => 8) (SpinDuplex.start (fun _ => .zeroed) 8
        fun _ => [.send [1, 2, 3, 4, 5], .recv []]) reached →
      ∃ final, Reaches (SpinDuplex.next fun _ => 8) reached final ∧ final.Done fun _ => [] := by
  constructor
  · exact (spin_completes_iff (fun _ => .zeroed) 8 (fun _ => 8) _ _ Sized.eight (fun _ => by decide)
      (fun side => by simp [sent]) (Reaches.ofRun _ Exchange.three_crosses)
      Exchange.three_stops).mpr (fun _ => rfl) _ (Reaches.refl _ _)
  · intro returns
    have finished := (spin_completes_iff (fun _ => .zeroed) 8 (fun _ => 8) _ _ Sized.eight
      (fun _ => by decide) (fun side => by simp [sent]) (Reaches.refl _ _)
      Exchange.five_stops).mp returns
    cases finished .left

end GaiaNet.Mem
