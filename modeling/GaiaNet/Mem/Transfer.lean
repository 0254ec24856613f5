import GaiaNet.Lib.Transition
import GaiaNet.Mem.ChunkLoop

/-! Transfer of messages through one ring: what both ends still have to do is
described by one common sequence of frame segments. -/

namespace GaiaNet.Mem

open Lib Lib.Chunks Lib.Transition

/-- The ring operations for one message: its length, then its chunks. -/
def segments (size : Nat) (body : Bytes) : List Bytes :=
  LittleEndian.encode 4 body.length ::
    chunksFrom size body 0 (chunkCount size body.length)

def frames (size : Nat) (messages : List Bytes) : List Bytes :=
  messages.flatMap (segments size)

/-- The producer still has exactly these segments to write. -/
def Producer.Sends (size : Nat) (producer : Producer) (ahead : List Bytes) : Prop :=
  (∀ body ∈ producer.todo, body.length ≤ 2 ^ 31) ∧
    match producer.pc with
    | .idle => ahead = frames size producer.todo
    | .chunks body loop => body.length ≤ 2 ^ 31 ∧ ∃ index,
        loop.At size body.length index ∧ ahead = chunksAfter size body index ++ frames size producer.todo

/-- The consumer has returned a prefix of the messages and still waits for
exactly these segments, which complete the message it is assembling first. -/
def Consumer.Expects (size : Nat) (messages : List Bytes) (consumer : Consumer)
    (ahead : List Bytes) : Prop :=
  (∀ body ∈ messages, body.length ≤ 2 ^ 31) ∧ ∃ done rest,
    consumer.returned = done.map (List.map some) ∧
    match consumer.pc with
    | .idle => messages = done ++ rest ∧ ahead = frames size rest
    | .chunks str loop => ∃ body index, messages = done ++ body :: rest ∧
        loop.At size body.length index ∧ str.length = body.length ∧
        str.take (index * size) = (body.take (index * size)).map some ∧
        ahead = chunksAfter size body index ++ frames size rest

theorem frames_cons (size : Nat) (body : Bytes) (rest : List Bytes) :
    frames size (body :: rest) =
      LittleEndian.encode 4 body.length :: (chunksAfter size body 0 ++ frames size rest) := by
  rw [frames, List.flatMap_cons]
  rfl

/-- What the next action of a producer does to the segments it has to write. -/
theorem Producer.Sends.action {producer : Producer} (legal : LegalSize bufSize)
    (sends : producer.Sends bufSize.toNat ahead) :
    match producer.action bufSize with
    | none => ahead = []
    | some (.write buf len next) => ∃ rest, ahead = buf.take len.toNat :: rest ∧
        len.toNat ≤ buf.length ∧ 0 < len.toNat ∧ len ≤ bufSize ∧ next.Sends bufSize.toNat rest
    | some (.local next) => next.Sends bufSize.toNat ahead
    | some (.read _ _) => False
    | some .outside => False := by
  have low := legal.low
  obtain ⟨short, position⟩ := sends
  cases pc : producer.pc with
  | idle =>
    simp only [pc] at position
    cases todo : producer.todo with
    | nil => simp [Producer.action, pc, todo, position, frames]
    | cons body rest =>
      have bodyShort : body.length ≤ 2 ^ 31 := short body (by simp [todo])
      have same : (UInt32.ofNat body.length).toNat = body.length := by
        rw [UInt32.toNat_ofNat']
        omega
      have four : (4 : UInt32).toNat = 4 := rfl
      simp only [Producer.action, pc, todo, same]
      refine ⟨chunksAfter bufSize.toNat body 0 ++ frames bufSize.toNat rest, ?_, ?_, ?_, ?_, ?_⟩
      · rw [position, todo, frames_cons, four, List.take_of_length_le (by simp)]
      · simp [four]
      · omega
      · rw [UInt32.le_iff_toNat_le]
        omega
      · refine ⟨fun other member => short other (by simp [todo, member]), bodyShort, 0, ?_, rfl⟩
        exact ChunkLoop.At.start legal (by have high := legal.high; omega)
  | chunks body loop =>
    simp only [pc] at position
    obtain ⟨bodyShort, index, state, same⟩ := position
    have positive : 0 < bufSize.toNat := by omega
    by_cases more : index < chunkCount bufSize.toNat body.length
    · have guard : loop.i < loop.chunkCnt := by rw [state.i, state.chunkCnt]; exact more
      have room := (lt_chunkCount _ _ positive).mp more
      have len := state.len
      have pos : loop.pos.toInt.toNat = index * bufSize.toNat := by
        rw [state.offset room (by omega)]
        omega
      simp only [Producer.action, pc, guard, ↓reduceIte,
        state.inside room (by omega) (Nat.le_refl _)]
      refine ⟨chunksAfter bufSize.toNat body (index + 1) ++ frames bufSize.toNat producer.todo,
        ?_, ?_, ?_, ?_, ?_⟩
      · rw [same, chunksAfter_of_lt more, pos, len, chunk]
        simp [List.take_eq_take_iff]
      · rw [List.length_drop]
        omega
      · omega
      · rw [UInt32.le_iff_toNat_le]
        omega
      · exact ⟨short, bodyShort, index + 1, state.next, rfl⟩
    · have guard : ¬ loop.i < loop.chunkCnt := by rw [state.i, state.chunkCnt]; exact more
      simp only [Producer.action, pc, guard, ↓reduceIte]
      refine ⟨short, ?_⟩
      rw [same, chunksAfter_of_le (by omega)]
      rfl

/-- What the next action of a consumer does to the segments it waits for. -/
theorem Consumer.Expects.action {consumer : Consumer} (legal : LegalSize bufSize)
    (expects : consumer.Expects bufSize.toNat messages ahead) :
    match consumer.action bufSize with
    | none => consumer.todo = []
    | some (.read len next) => 0 < len.toNat ∧ ∀ segment rest, ahead = segment :: rest →
        len.toNat = segment.length ∧ (next segment).Expects bufSize.toNat messages rest
    | some (.local next) => next.Expects bufSize.toNat messages ahead
    | some (.write _ _ _) => False
    | some .outside => False := by
  have low := legal.low
  obtain ⟨short, done, rest, returned, position⟩ := expects
  cases pc : consumer.pc with
  | idle =>
    simp only [pc] at position
    obtain ⟨whole, same⟩ := position
    cases todo : consumer.todo with
    | nil => simp [Consumer.action, pc, todo]
    | cons str strings =>
      have four : (4 : UInt32).toNat = 4 := rfl
      simp only [Consumer.action, pc, todo]
      refine ⟨by omega, ?_⟩
      intro segment tail found
      cases rest with
      | nil => simp [same, frames] at found
      | cons body rest =>
        rw [same, frames_cons] at found
        injection found with head tailSame
        have bodyShort : body.length ≤ 2 ^ 31 := short body (by simp [whole])
        have decoded : LittleEndian.decode segment = body.length := by
          rw [← head, LittleEndian.decode_encode]
          omega
        have fits : (UInt32.ofNat body.length).toNat = body.length := by
          rw [UInt32.toNat_ofNat']
          omega
        refine ⟨by rw [← head, LittleEndian.length_encode, four], short, done, rest, returned, ?_⟩
        simp only [decoded, fits, length_fastResize]
        refine ⟨body, 0, whole, ChunkLoop.At.start legal (by have high := legal.high; omega), rfl, ?_,
          tailSame.symm⟩
        simp
  | chunks str loop =>
    simp only [pc] at position
    obtain ⟨body, index, whole, state, length, front, same⟩ := position
    have bodyShort : body.length ≤ 2 ^ 31 := short body (by simp [whole])
    have positive : 0 < bufSize.toNat := by omega
    by_cases more : index < chunkCount bufSize.toNat body.length
    · have guard : loop.i < loop.chunkCnt := by rw [state.i, state.chunkCnt]; exact more
      have room := (lt_chunkCount _ _ positive).mp more
      have len := state.len
      have pos : loop.pos.toInt.toNat = index * bufSize.toNat := by
        rw [state.offset room (by omega)]
        omega
      simp only [Consumer.action, pc, guard, ↓reduceIte, length,
        state.inside room (by omega) (Nat.le_refl _)]
      refine ⟨by omega, ?_⟩
      intro segment tail found
      rw [same, chunksAfter_of_lt more] at found
      injection found with head tailSame
      subst segment
      obtain ⟨kept, extended⟩ := overwrite_chunk length front room
      refine ⟨by rw [length_chunk]; exact len, short, done, rest, returned, ?_⟩
      simp only [pos]
      exact ⟨body, index + 1, whole, state.next, kept, extended, tailSame.symm⟩
    · have guard : ¬ loop.i < loop.chunkCnt := by rw [state.i, state.chunkCnt]; exact more
      simp only [Consumer.action, pc, guard, ↓reduceIte]
      have covered : body.length ≤ index * bufSize.toNat := by
        have covers := lt_chunkCount index body.length positive
        omega
      have complete : str = body.map some := by
        rw [List.take_of_length_le (by omega), List.take_of_length_le covered] at front
        exact front
      refine ⟨short, done ++ [body], rest, ?_, ?_, ?_⟩
      · simp [returned, complete]
      · simpa using whole
      · rw [same, chunksAfter_of_le (by omega)]
        rfl

/-- Both ends agree on the segments to come: those stored in the ring, then
those the producer has not written. -/
structure Session.Aligned (bufSize : UInt32) (messages : List Bytes) (session : Session)
    (consumed : Nat) (inflight ahead : List Bytes) : Prop where
  sized : session.view.bufSize = bufSize
  queue : Represents session.view consumed inflight.flatten
  sends : session.producer.Sends bufSize.toNat ahead
  expects : session.consumer.Expects bufSize.toNat messages (inflight ++ ahead)

def Session.Inv (bufSize : UInt32) (messages : List Bytes) (session : Session) : Prop :=
  ∃ consumed inflight ahead, session.Aligned bufSize messages consumed inflight ahead

theorem Represents.legal (rep : Represents view consumed queued) : LegalSize view.bufSize :=
  ⟨rep.eight_le_bufSize, rep.bufSize_le⟩

theorem Session.next_producer {session after : Session}
    (moved : session.next bufSize .producer = some after) :
    ∃ action view producer, session.producer.action bufSize = some action ∧
      action.perform session.view = some (view, producer) ∧
      after = { session with view, producer } := by
  cases chosen : session.producer.action bufSize with
  | none => simp [Session.next, chosen] at moved
  | some action =>
    cases performed : action.perform session.view with
    | none => simp [Session.next, chosen, performed] at moved
    | some result =>
      refine ⟨action, result.1, result.2, rfl, performed, ?_⟩
      simpa [Session.next, chosen, performed] using moved.symm

theorem Session.next_consumer {session after : Session}
    (moved : session.next bufSize .consumer = some after) :
    ∃ action view consumer, session.consumer.action bufSize = some action ∧
      action.perform session.view = some (view, consumer) ∧
      after = { session with view, consumer } := by
  cases chosen : session.consumer.action bufSize with
  | none => simp [Session.next, chosen] at moved
  | some action =>
    cases performed : action.perform session.view with
    | none => simp [Session.next, chosen, performed] at moved
    | some result =>
      refine ⟨action, result.1, result.2, rfl, performed, ?_⟩
      simpa [Session.next, chosen, performed] using moved.symm

@[simp] theorem SharedMemoryView.put_bufSize (view : SharedMemoryView) (buf : Bytes) (len : UInt32) :
    (view.put buf len).bufSize = view.bufSize := rfl

@[simp] theorem SharedMemoryView.get_bufSize (view : SharedMemoryView) (len : UInt32) :
    (view.get len).2.bufSize = view.bufSize := rfl

/-- A step of the producer appends the segment it writes to the stored ones. -/
theorem Session.Inv.producer {session after : Session} (inv : session.Inv bufSize messages)
    (moved : session.next bufSize .producer = some after) : after.Inv bufSize messages := by
  obtain ⟨consumed, inflight, ahead, aligned⟩ := inv
  obtain ⟨action, view, producer, chosen, performed, rfl⟩ := Session.next_producer moved
  have legal : LegalSize bufSize := aligned.sized ▸ aligned.queue.legal
  have step := aligned.sends.action legal
  rw [chosen] at step
  cases action with
  | write buf len next =>
    obtain ⟨rest, split, enough, _, small, sends⟩ := step
    by_cases room : session.view.canPut len = true
    · simp only [Action.perform, room, ↓reduceIte, Option.some.injEq, Prod.mk.injEq] at performed
      obtain ⟨rfl, rfl⟩ := performed
      have space := (aligned.queue.canPut_iff (by rw [aligned.sized]; exact small)).mp room
      refine ⟨consumed, inflight ++ [buf.take len.toNat], rest, aligned.sized, ?_, sends, ?_⟩
      · simpa using aligned.queue.put buf space enough
      · simpa [split] using aligned.expects
    · simp [Action.perform, room] at performed
  | «local» next =>
    simp only [Action.perform, Option.some.injEq, Prod.mk.injEq] at performed
    obtain ⟨rfl, rfl⟩ := performed
    exact ⟨consumed, inflight, ahead, aligned.sized, aligned.queue, step, aligned.expects⟩
  | read len next => exact step.elim
  | outside => exact step.elim

/-- A read that passes its guard finds the segment the consumer waits for. -/
theorem Session.Aligned.pending {session : Session}
    (aligned : session.Aligned bufSize messages consumed inflight ahead)
    (positive : 0 < len.toNat) (ready : session.view.canGet len = true) :
    ∃ segment rest, inflight = segment :: rest := by
  have available := aligned.queue.canGet_iff.mp ready
  cases inflight with
  | nil => simp at available; omega
  | cons segment rest => exact ⟨segment, rest, rfl⟩

/-- A step of the consumer takes the first stored segment. -/
theorem Session.Inv.consumer {session after : Session} (inv : session.Inv bufSize messages)
    (moved : session.next bufSize .consumer = some after) : after.Inv bufSize messages := by
  obtain ⟨consumed, inflight, ahead, aligned⟩ := inv
  obtain ⟨action, view, consumer, chosen, performed, rfl⟩ := Session.next_consumer moved
  have legal : LegalSize bufSize := aligned.sized ▸ aligned.queue.legal
  have step := aligned.expects.action legal
  rw [chosen] at step
  cases action with
  | read len next =>
    obtain ⟨positive, taken⟩ := step
    by_cases ready : session.view.canGet len = true
    · simp only [Action.perform, ready, ↓reduceIte, Option.some.injEq, Prod.mk.injEq] at performed
      obtain ⟨rfl, rfl⟩ := performed
      obtain ⟨segment, rest, rfl⟩ := aligned.pending positive ready
      obtain ⟨length, expects⟩ := taken segment (rest ++ ahead) rfl
      have available := aligned.queue.canGet_iff.mp ready
      obtain ⟨bytes, queue⟩ := aligned.queue.get available
      have first : (session.view.get len).1 = segment := by
        rw [bytes, length, List.flatten_cons, List.take_left]
      rw [length, List.flatten_cons, List.drop_left] at queue
      rw [first]
      exact ⟨consumed + segment.length, rest, ahead, aligned.sized, queue, aligned.sends, expects⟩
    · simp [Action.perform, ready] at performed
  | «local» next =>
    simp only [Action.perform, Option.some.injEq, Prod.mk.injEq] at performed
    obtain ⟨rfl, rfl⟩ := performed
    exact ⟨consumed, inflight, ahead, aligned.sized, aligned.queue, aligned.sends, step⟩
  | write buf len next => exact step.elim
  | outside => exact step.elim

theorem Session.Inv.next {session after : Session} (inv : session.Inv bufSize messages)
    (moved : session.next bufSize party = some after) : after.Inv bufSize messages := by
  cases party with
  | producer => exact inv.producer moved
  | consumer => exact inv.consumer moved

theorem Represents.init (segment : SharedMemoryView) (low : 3 ≤ exponent) (high : exponent ≤ 30)
    (size : bufSize.toNat = 2 ^ exponent) : Represents (segment.init bufSize true) 0 [] :=
  ⟨⟨exponent, low, high, size⟩, rfl, rfl, Nat.zero_le _, Lib.Circular.holds_nil _ _ _⟩

theorem Session.Inv.start (segment : SharedMemoryView) (low : 3 ≤ exponent) (high : exponent ≤ 30)
    (size : bufSize.toNat = 2 ^ exponent) (messages strings : List Bytes)
    (short : ∀ body ∈ messages, body.length ≤ 2 ^ 31) :
    (Session.start segment bufSize messages strings).Inv bufSize messages :=
  ⟨0, [], frames bufSize.toNat messages, rfl, Represents.init segment low high size,
    ⟨short, rfl⟩, short, [], messages, rfl, rfl, rfl⟩

/-- Every reachable state of a session satisfies the alignment invariant. -/
theorem Session.reaches_inv {segment : SharedMemoryView} {session : Session}
    (low : 3 ≤ exponent) (high : exponent ≤ 30) (size : bufSize.toNat = 2 ^ exponent)
    (short : ∀ body ∈ messages, body.length ≤ 2 ^ 31)
    (path : Reaches (Session.next bufSize) (Session.start segment bufSize messages strings) session) :
    session.Inv bufSize messages :=
  path.invariant (Session.Inv bufSize messages) (Session.Inv.start segment low high size messages strings short)
    (fun _ _ _ inv moved => inv.next moved)

theorem Session.Inv.delivered {session : Session} (inv : session.Inv bufSize messages) :
    session.consumer.returned <+: messages.map (List.map some) := by
  obtain ⟨_, _, _, aligned⟩ := inv
  obtain ⟨_, done, rest, returned, position⟩ := aligned.expects
  rw [returned]
  cases pc : session.consumer.pc with
  | idle =>
    simp only [pc] at position
    rw [position.1, List.map_append]
    exact List.prefix_append _ _
  | chunks str loop =>
    simp only [pc] at position
    obtain ⟨body, _, whole, _⟩ := position
    rw [whole, List.map_append]
    exact List.prefix_append _ _

/-- Exactly once, in order and intact: what the completed calls of `recv`
returned is a prefix of the messages, each byte initialised with the byte sent. -/
theorem mem_delivery (segment : SharedMemoryView) (bufSize : UInt32) (exponent : Nat)
    (messages strings : List Bytes) (session : Session)
    (low : 3 ≤ exponent) (high : exponent ≤ 30) (size : bufSize.toNat = 2 ^ exponent)
    (short : ∀ body ∈ messages, body.length < 2 ^ 31)
    (path : Reaches (Session.next bufSize) (Session.start segment bufSize messages strings) session) :
    session.consumer.returned <+: messages.map (List.map some) :=
  (Session.reaches_inv low high size (fun body member => Nat.le_of_lt (short body member)) path).delivered

/-- A message longer than the ring and an empty one, both received. -/
theorem mem_delivery_two :
    ∃ session : Session, session.consumer.returned = [[1, 2, 3, 4, 5, 6, 7, 8, 9, 10].map some, []] ∧
      session.consumer.returned <+:
        [[1, 2, 3, 4, 5, 6, 7, 8, 9, 10], []].map (List.map some) := by
  refine ⟨_, ?_, mem_delivery .zeroed 8 3 [[1, 2, 3, 4, 5, 6, 7, 8, 9, 10], []] [[], [5]] _
    (by decide) (by decide) rfl (by decide)
    (Reaches.ofRun [.producer, .consumer, .producer, .consumer, .producer, .consumer, .producer,
      .consumer, .producer, .consumer, .producer, .consumer] rfl)⟩
  rfl

end GaiaNet.Mem
