import GaiaNet.Mem.Streams

/-! One call of an end from its first to its last step: what it has still to move, and
what it waits for when it cannot go on. -/

namespace GaiaNet.Mem

open Lib Lib.Chunks Lib.Duplex Lib.Transition

/-- `send(body)` before its frame, in its chunks, after the last of them. -/
inductive Producer.Phase (body : Bytes) : Producer → Prop where
  | before (stats : Statistics) : Phase body ⟨[body], .idle, stats⟩
  | inside (loop : ChunkLoop) (stats : Statistics) : Phase body ⟨[], .chunks body loop, stats⟩
  | after (stats : Statistics) : Phase body ⟨[], .idle, stats⟩

/-- `recv` as the call after `count` others: before its frame, in its chunks, after them. -/
inductive Consumer.Phase (count : Nat) : Consumer → Prop where
  | before (str : Bytes) (returned : List RawString) (stats : Statistics)
      (position : returned.length = count) : Phase count ⟨[str], .idle, returned, stats⟩
  | inside (str : RawString) (loop : ChunkLoop) (returned : List RawString) (stats : Statistics)
      (position : returned.length = count) : Phase count ⟨[], .chunks str loop, returned, stats⟩
  | after (returned : List RawString) (stats : Statistics)
      (position : returned.length = count + 1) : Phase count ⟨[], .idle, returned, stats⟩

theorem Producer.Phase.action {producer : Producer} (phase : producer.Phase body)
    (chunkSize : UInt32) :
    match producer.action chunkSize with
    | some (.write _ _ next) => next.Phase body
    | some (.read _ _) => False
    | some (.local next) => next.Phase body
    | _ => True := by
  cases phase with
  | before stats => exact .inside _ _
  | inside loop stats =>
    simp only [Producer.action]
    by_cases more : loop.i < loop.chunkCnt
    · by_cases within : loop.inside body.length = true
      · simp only [more, within, ↓reduceIte]
        exact .inside _ _
      · simp [more, within]
    · simp only [more, ↓reduceIte]
      exact .after _
  | after stats => trivial

theorem Consumer.Phase.action {consumer : Consumer} (phase : consumer.Phase count)
    (chunkSize : UInt32) :
    match consumer.action chunkSize with
    | some (.write _ _ _) => False
    | some (.read _ next) => ∀ bytes, (next bytes).Phase count
    | some (.local next) => next.Phase count
    | _ => True := by
  cases phase with
  | before str returned stats position => exact fun bytes => .inside _ _ _ _ position
  | inside str loop returned stats position =>
    simp only [Consumer.action]
    by_cases more : loop.i < loop.chunkCnt
    · by_cases within : loop.inside str.length = true
      · simp only [more, within, ↓reduceIte]
        exact fun bytes => .inside _ _ _ _ position
      · simp [more, within]
    · simp only [more, ↓reduceIte]
      exact .after _ _ (by simp [position])
  | after returned stats position => trivial

/-- Calls of `recv` that a completed call adds. -/
def Call.results : Call → Nat
  | .send _ => 0
  | _ => 1

/-- An end inside the given call, or back from it. -/
structure Endpoint.During (call : Call) (rest : List Call) (count : Nat) (endpoint : Endpoint) :
    Prop where
  script : endpoint.script = rest
  phase : match endpoint.running with
    | .idle => endpoint.returned.length = count + call.results
    | .sending producer => (∃ body, call = .send body ∧ producer.Phase body) ∧
        endpoint.returned.length = count
    | .receiving consumer => call.results = 1 ∧ consumer.Phase count
    | .header buf => call = .recvInto buf ∧ endpoint.returned.length = count
    | .aborted buf => call = .recvInto buf ∧ endpoint.returned.length = count

namespace Endpoint.During

variable {endpoint : Endpoint} {call : Call} {rest : List Call} {count : Nat}

theorem begin (count : endpoint.returned.length = number) (rest : List Call) (call : Call) :
    (endpoint.begin rest call).During call rest number := by
  cases call with
  | send body => exact ⟨rfl, ⟨body, rfl, .before _⟩, count⟩
  | recv str => exact ⟨rfl, rfl, .before _ _ _ count⟩
  | recvInto buf => exact ⟨rfl, rfl, count⟩

theorem assertLength (during : endpoint.During call rest count) (chunkSize : UInt32)
    (header : endpoint.running = .header buf) (bytes : Bytes) :
    (endpoint.assertLength chunkSize buf bytes).During call rest count := by
  obtain ⟨script, phase⟩ := during
  simp only [header] at phase
  obtain ⟨rfl, position⟩ := phase
  unfold Endpoint.assertLength
  split
  · exact ⟨script, rfl, .inside _ _ _ _ position⟩
  · exact ⟨script, rfl, position⟩

/-- Inside a call every step stays inside it or returns from it. -/
theorem action (during : endpoint.During call rest count) (chunkSize : UInt32)
    (running : endpoint.running ≠ .idle) :
    match endpoint.action chunkSize with
    | some (.write _ _ next) => next.During call rest count
    | some (.read _ next) => ∀ bytes, (next bytes).During call rest count
    | some (.local next) => next.During call rest count
    | _ => True := by
  have whole := during
  obtain ⟨script, phase⟩ := during
  cases stage : endpoint.running with
  | idle => exact absurd stage running
  | sending producer =>
    simp only [stage] at phase
    obtain ⟨⟨body, rfl, phase⟩, position⟩ := phase
    have step := phase.action chunkSize
    simp only [Endpoint.action, stage]
    cases chosen : producer.action chunkSize with
    | none => exact ⟨script, position⟩
    | some action =>
      rw [chosen] at step
      cases action with
      | write buf len next => exact ⟨script, ⟨body, rfl, step⟩, position⟩
      | read len next => exact step.elim
      | «local» next => exact ⟨script, ⟨body, rfl, step⟩, position⟩
      | outside => trivial
  | receiving consumer =>
    simp only [stage] at phase
    obtain ⟨receives, phase⟩ := phase
    have step := phase.action chunkSize
    simp only [Endpoint.action, stage]
    cases chosen : consumer.action chunkSize with
    | none =>
      refine ⟨script, ?_⟩
      cases phase with
      | before str returned stats position => simp [Consumer.action] at chosen
      | inside str loop returned stats position =>
        cases (Consumer.action_none chosen).1
      | after returned stats position =>
        simp only [receives]
        exact position
    | some action =>
      rw [chosen] at step
      cases action with
      | read len next => exact fun bytes => ⟨script, receives, step bytes⟩
      | write buf len next => exact step.elim
      | «local» next => exact ⟨script, receives, step⟩
      | outside => trivial
  | header buf =>
    simp only [Endpoint.action, stage]
    exact whole.assertLength chunkSize stage
  | aborted buf => simp [Endpoint.action, stage]

theorem position (during : endpoint.During call rest count) (idle : endpoint.running = .idle) :
    endpoint.returned.length = count + call.results := by
  have phase := during.phase
  simpa only [idle] using phase

/-- `send` reads nothing. -/
theorem sends (during : endpoint.During (.send body) rest count) (chunkSize : UInt32) :
    endpoint.move chunkSize ≠ some (.read amount later) := by
  intro chosen
  obtain ⟨-, phase⟩ := during
  cases stage : endpoint.running with
  | idle =>
    cases script : endpoint.script <;>
      simp [Endpoint.move, Endpoint.action, stage, script, Action.move] at chosen
  | sending producer =>
    simp only [stage] at phase
    obtain ⟨⟨other, -, phase⟩, -⟩ := phase
    have step := phase.action chunkSize
    simp only [Endpoint.move, Endpoint.action, stage] at chosen
    cases acts : producer.action chunkSize with
    | none => simp [acts, Action.move] at chosen
    | some action =>
      cases action with
      | read len next =>
        rw [acts] at step
        exact step.elim
      | _ => simp [acts, Action.map, Action.move] at chosen
  | receiving consumer =>
    simp only [stage] at phase
    cases phase.1
  | header buf =>
    simp only [stage] at phase
    cases phase.1
  | aborted buf => simp [Endpoint.move, Endpoint.action, stage] at chosen

/-- `recv` writes nothing. -/
theorem receives (during : endpoint.During call rest count) (receives : call.results = 1)
    (chunkSize : UInt32) : endpoint.move chunkSize ≠ some (.write data later) := by
  intro chosen
  obtain ⟨-, phase⟩ := during
  cases stage : endpoint.running with
  | idle =>
    cases script : endpoint.script <;>
      simp [Endpoint.move, Endpoint.action, stage, script, Action.move] at chosen
  | sending producer =>
    simp only [stage] at phase
    obtain ⟨⟨body, rfl, -⟩, -⟩ := phase
    cases receives
  | receiving consumer =>
    simp only [stage] at phase
    have step := phase.2.action chunkSize
    simp only [Endpoint.move, Endpoint.action, stage] at chosen
    cases acts : consumer.action chunkSize with
    | none => simp [acts, Action.move] at chosen
    | some action =>
      cases action with
      | write buf len next =>
        rw [acts] at step
        exact step.elim
      | _ => simp [acts, Action.map, Action.move] at chosen
  | header buf => simp [Endpoint.move, Endpoint.action, stage, Action.move] at chosen
  | aborted buf => simp [Endpoint.move, Endpoint.action, stage] at chosen

end Endpoint.During

/-- A message of this length is moved in pieces: the next one and what is left after it. -/
def Piece (size length next left : Nat) : Prop :=
  (next = 4 ∧ left = length) ∨ ∃ index, index * size < length ∧
    next = min size (length - index * size) ∧ next + left = length - index * size

/-- A writer and a reader of one message never both wait, when one piece size divides the
other and either the message or every piece fits into the queue. -/
theorem Piece.progress (writes : Piece size length next left) (reads : Piece other length amount rest)
    (balance : queued + (next + left) = amount + rest) (low : 4 ≤ capacity)
    (carried : length ≤ capacity ∨ (size ≤ capacity ∧ other ≤ capacity))
    (nested : size ∣ other ∨ other ∣ size) :
    queued + next ≤ capacity ∨ amount ≤ queued := by
  rcases writes with ⟨rfl, rfl⟩ | ⟨index, inside, rfl, rest_of_body⟩
  · rcases reads with ⟨rfl, rfl⟩ | ⟨position, within, -, rest_of_read⟩
    · exact .inl (by omega)
    · omega
  · rcases reads with ⟨rfl, rfl⟩ | ⟨position, within, rfl, rest_of_read⟩
    · exact .inr (by omega)
    · rcases carried with small | ⟨fits, readable⟩
      · exact .inl (by omega)
      · have distance : queued + position * other = index * size := by omega
        rcases nested with divides | divides
        · -- the queue holds whole pieces of the writer, and a piece of the reader is some of them
          obtain ⟨factor, rfl⟩ := divides
          have multiple : size ∣ queued := by
            refine (Nat.dvd_add_iff_left (Nat.dvd_mul_left_of_dvd (Nat.dvd_mul_right size factor)
              position)).mpr ?_
            rw [distance]
            exact Nat.dvd_mul_left size index
          obtain ⟨pieces, rfl⟩ := multiple
          by_cases short : pieces < factor
          · have room : size * (pieces + 1) ≤ size * factor := Nat.mul_le_mul_left size short
            rw [Nat.mul_add, Nat.mul_one] at room
            exact .inl (by omega)
          · have enough : size * factor ≤ size * pieces := Nat.mul_le_mul_left size (by omega)
            exact .inr (by omega)
        · have multiple : other ∣ queued := by
            refine (Nat.dvd_add_iff_left (Nat.dvd_mul_left other position)).mpr ?_
            rw [distance]
            exact Nat.dvd_mul_left_of_dvd divides index
          rcases Nat.eq_zero_or_pos queued with empty | stored
          · exact .inl (by omega)
          · have enough := Nat.le_of_dvd stored multiple
            exact .inr (by omega)

theorem length_ofNat (small : length ≤ 2 ^ 31) : (UInt32.ofNat length).toNat = length := by
  rw [UInt32.toNat_ofNat']
  omega

/-- What an end inside `send(body)` writes next and after it. -/
theorem Endpoint.Talks.write_front {endpoint : Endpoint} {chunkSize : UInt32}
    (talks : endpoint.Talks chunkSize.toNat messages out awaited) (legal : LegalSize chunkSize)
    (during : endpoint.During (.send body) rest count)
    (chosen : endpoint.move chunkSize = some (.write data later)) :
    ∃ front, out = data ++ front ++ stream (sent rest) ∧
      Piece chunkSize.toNat body.length data.length front.length := by
  have low := legal.low
  obtain ⟨⟨-, emits⟩, -⟩ := talks
  obtain ⟨script, phase⟩ := during
  rw [script] at emits
  cases stage : endpoint.running with
  | sending producer =>
    simp only [stage] at emits phase
    obtain ⟨ahead, ⟨small, position⟩, rfl⟩ := emits
    obtain ⟨⟨other, same, phase⟩, -⟩ := phase
    cases same
    cases phase with
    | before stats =>
      have short : body.length ≤ 2 ^ 31 := small body List.mem_cons_self
      have four : (4 : UInt32).toNat = 4 := rfl
      simp only [Endpoint.move, Endpoint.action, stage, Producer.action, Action.map,
        Option.bind_some, Action.move, Option.some.injEq, Move.write.injEq, length_ofNat short,
        four] at chosen
      rw [List.take_of_length_le (by simp)] at chosen
      obtain ⟨rfl, -⟩ := chosen
      refine ⟨body, ?_, .inl ⟨LittleEndian.length_encode _ _, rfl⟩⟩
      rw [position, flatten_frames (by omega)]
      simp [frame]
    | inside loop stats =>
      obtain ⟨short, index, state, rfl⟩ := position
      simp only [Endpoint.move, Endpoint.action, stage, Producer.action] at chosen
      by_cases inside : loop.i < loop.chunkCnt
      · have more : index * chunkSize.toNat < body.length := by
          rw [state.i, state.chunkCnt] at inside
          exact (lt_chunkCount _ _ (by omega)).mp inside
        have len := state.len
        have pos : loop.pos.toInt.toNat = index * chunkSize.toNat := by
          rw [state.offset more (by omega)]
          omega
        simp only [inside, state.inside more (by omega) (Nat.le_refl _), ↓reduceIte, Action.map,
          Option.bind_some, Action.move, Option.some.injEq, Move.write.injEq, pos, len] at chosen
        obtain ⟨rfl, -⟩ := chosen
        refine ⟨(body.drop (index * chunkSize.toNat)).drop
          (min chunkSize.toNat (body.length - index * chunkSize.toNat)), ?_, .inr ⟨index, more, ?_, ?_⟩⟩
        · rw [List.flatten_append, flatten_chunksAfter (by omega), List.take_append_drop]
          simp [frames]
        · simp only [List.length_take, List.length_drop]
          omega
        · simp only [List.length_take, List.length_drop]
          omega
      · simp [inside, Action.map, Action.move] at chosen
    | after stats => simp [Endpoint.move, Endpoint.action, stage, Producer.action, Action.move] at chosen
  | idle =>
    cases next : endpoint.script <;>
      simp [Endpoint.move, Endpoint.action, stage, next, Action.move] at chosen
  | receiving consumer =>
    simp only [stage] at phase
    cases phase.1
  | header buf => simp [Endpoint.move, Endpoint.action, stage, Action.move] at chosen
  | aborted buf => simp [Endpoint.move, Endpoint.action, stage] at chosen

/-- What is left of the messages when the first `count` are done. -/
theorem messages_split {done rest messages : List Bytes} (whole : messages = done ++ rest)
    (position : done.length = count) : rest = messages.drop count := by
  rw [whole, ← position, List.drop_left]

theorem drop_message {messages : List Bytes} (present : messages[count]? = some body) :
    messages.drop count = body :: messages.drop (count + 1) := by
  obtain ⟨inside, same⟩ := List.getElem?_eq_some_iff.mp present
  rw [List.drop_eq_getElem_cons inside, same]

/-- What an end inside a call of `recv` reads next and after it. -/
theorem Endpoint.Talks.read_front {endpoint : Endpoint} {chunkSize : UInt32}
    {messages : List Bytes} (talks : endpoint.Talks chunkSize.toNat messages out awaited)
    (legal : LegalSize chunkSize) (during : endpoint.During call rest count)
    (present : messages[count]? = some body)
    (chosen : endpoint.move chunkSize = some (.read amount later)) :
    ∃ front left, awaited = front ++ stream (messages.drop (count + 1)) ∧
      front.length = amount + left ∧ Piece chunkSize.toNat body.length amount left := by
  have low := legal.low
  have four : (4 : UInt32).toNat = 4 := rfl
  obtain ⟨-, short, awaits⟩ := talks
  have whole := during
  obtain ⟨-, phase⟩ := during
  have next := drop_message present
  cases stage : endpoint.running with
  | receiving consumer =>
    simp only [stage] at awaits phase
    obtain ⟨ahead, ⟨-, done, left, returned, position⟩, rfl⟩ := awaits
    have number : consumer.returned.length = done.length := by rw [returned, List.length_map]
    obtain ⟨-, phase⟩ := phase
    cases phase with
    | before str returned stats length =>
      obtain ⟨whole, rfl⟩ := position
      simp only [Endpoint.move, Endpoint.action, stage, Consumer.action, Action.map,
        Option.bind_some, Action.move, Option.some.injEq, Move.read.injEq, four] at chosen
      rw [messages_split whole (number.symm.trans length), next, flatten_frames (by omega),
        stream_cons, ← chosen.1]
      exact ⟨frame body, body.length, rfl, length_frame body, .inl ⟨rfl, rfl⟩⟩
    | inside str loop returned stats length =>
      obtain ⟨other, index, whole, state, same, -, rfl⟩ := position
      have tail := messages_split whole (number.symm.trans length)
      rw [next] at tail
      obtain ⟨rfl, rfl⟩ := List.cons.inj tail
      simp only [Endpoint.move, Endpoint.action, stage, Consumer.action] at chosen
      by_cases inside : loop.i < loop.chunkCnt
      · have more : index * chunkSize.toNat < other.length := by
          rw [state.i, state.chunkCnt] at inside
          exact (lt_chunkCount _ _ (by omega)).mp inside
        have small : other.length ≤ 2 ^ 31 := short other (List.mem_of_getElem? present)
        simp only [inside, same, state.inside more (by omega) (Nat.le_refl _), ↓reduceIte,
          Action.map, Option.bind_some, Action.move, Option.some.injEq, Move.read.injEq,
          state.len] at chosen
        rw [← chosen.1, List.flatten_append, flatten_chunksAfter (by omega),
          flatten_frames (by omega)]
        refine ⟨_, other.length - index * chunkSize.toNat -
          min chunkSize.toNat (other.length - index * chunkSize.toNat), rfl, ?_,
          .inr ⟨index, more, rfl, ?_⟩⟩
        · rw [List.length_drop]
          omega
        · omega
      · simp [inside, Action.map, Action.move] at chosen
    | after returned stats length =>
      simp [Endpoint.move, Endpoint.action, stage, Consumer.action, Action.move] at chosen
  | idle =>
    cases script : endpoint.script <;>
      simp [Endpoint.move, Endpoint.action, stage, script, Action.move] at chosen
  | sending producer =>
    simp only [stage] at phase
    obtain ⟨⟨other, rfl, -⟩, -⟩ := phase
    exact absurd chosen (whole.sends chunkSize)
  | header buf =>
    simp only [stage] at awaits phase
    obtain ⟨done, left, returned, whole, rfl⟩ := awaits
    have number : endpoint.returned.length = done.length := by rw [returned, List.length_map]
    simp only [Endpoint.move, Endpoint.action, stage, Option.bind_some, Action.move,
      Option.some.injEq, Move.read.injEq, four] at chosen
    rw [messages_split whole (number.symm.trans phase.2), next, stream_cons, ← chosen.1]
    exact ⟨frame body, body.length, rfl, length_frame body, .inl ⟨rfl, rfl⟩⟩
  | aborted buf => simp [Endpoint.move, Endpoint.action, stage] at chosen

/-- Both ends finish the calls they are in and begin no other. -/
def held (chunkSize : Side → UInt32) (side : Side) (endpoint : Endpoint) :
    Option (Move Endpoint UInt8) :=
  match endpoint.running with
  | .idle => none
  | _ => moves chunkSize side endpoint

section

variable {chunkSize : Side → UInt32} {messages : Side → List Bytes} {side : Side}
  {endpoint : Endpoint}

theorem held_idle (idle : endpoint.running = .idle) : held chunkSize side endpoint = none := by
  simp [held, idle]

theorem held_running (running : endpoint.running ≠ .idle) :
    held chunkSize side endpoint = moves chunkSize side endpoint := by
  unfold held
  split
  · rename_i idle
    exact absurd idle running
  · rfl

theorem held_follows (legal : ∀ side, LegalSize (chunkSize side)) :
    Net.Follows (held chunkSize) (Talking chunkSize messages) := by
  intro side endpoint out awaited talks
  by_cases idle : endpoint.running = .idle
  · rw [held_idle idle]
    trivial
  · rw [held_running idle]
    exact talking_follows legal side endpoint out awaited talks

theorem held_works (legal : ∀ side, LegalSize (chunkSize side)) :
    Net.Works (held chunkSize) (Talking chunkSize messages) Endpoint.weight := by
  intro side endpoint out awaited talks
  by_cases idle : endpoint.running = .idle
  · rw [held_idle idle]
    trivial
  · rw [held_running idle]
    exact talking_works legal side endpoint out awaited talks

theorem Endpoint.During.held (during : endpoint.During call rest count) :
    Net.Keeps (Endpoint.During call rest count) (held chunkSize side endpoint) := by
  by_cases idle : endpoint.running = .idle
  · rw [held_idle idle]
    trivial
  · have step := during.action (chunkSize side) idle
    rw [held_running idle]
    unfold moves Endpoint.move
    cases chosen : endpoint.action (chunkSize side) with
    | none => trivial
    | some action =>
      rw [chosen] at step
      cases action with
      | outside => trivial
      | _ => exact step

/-- A step within the calls is a step. -/
theorem held_moved {before after : Net Endpoint UInt8}
    (moved : Net.Moved capacity (GaiaNet.Mem.held chunkSize) side before after) :
    Net.Moved capacity (moves chunkSize) side before after := by
  have running : (before.program side).running ≠ .idle := by
    intro idle
    have none : GaiaNet.Mem.held chunkSize side (before.program side) = none := held_idle idle
    cases moved with
    | write data later chosen room => rw [none] at chosen; cases chosen
    | read count later chosen stored => rw [none] at chosen; cases chosen
    | silent later chosen => rw [none] at chosen; cases chosen
  have same : GaiaNet.Mem.held chunkSize side (before.program side) =
      moves chunkSize side (before.program side) := held_running running
  cases moved with
  | write data later chosen room => exact .write data later (same ▸ chosen) room
  | read count later chosen stored => exact .read count later (same ▸ chosen) stored
  | silent later chosen => exact .silent later (same ▸ chosen)

/-- An end that cannot go on within its call has returned, has aborted or waits. -/
theorem held_waits {net : Net Endpoint UInt8} {messages : List Bytes}
    (halted : Halted (Net.next capacity (GaiaNet.Mem.held chunkSize)) net)
    (legal : LegalSize (chunkSize side))
    (talks : (net.program side).Talks (chunkSize side).toNat messages out awaited) :
    (net.program side).running = .idle ∨ (∃ buf, (net.program side).running = .aborted buf) ∨
      (∃ data later, (net.program side).move (chunkSize side) = some (.write data later) ∧
        0 < data.length ∧ capacity < (net.queue side).length + data.length) ∨
      ∃ count later, (net.program side).move (chunkSize side) = some (.read count later) ∧
        (net.queue side.other).length < count := by
  by_cases idle : (net.program side).running = .idle
  · exact .inl idle
  · have step := talks.action legal
    have stuck := halted side
    rw [Net.next, held_running idle, moves] at stuck
    unfold Endpoint.move at stuck ⊢
    cases chosen : (net.program side).action (chunkSize side) with
    | none =>
      rw [chosen] at step
      rcases step with ⟨ended, -⟩ | aborted
      · exact .inl ended
      · exact .inr (.inl aborted)
    | some action =>
      rw [chosen] at step stuck
      cases action with
      | write buf len next =>
        simp only [Option.bind_some, Action.move, Option.ite_none_right_eq_some, ite_eq_right_iff,
          reduceCtorEq, imp_false, Nat.not_le] at stuck
        refine .inr (.inr (.inl ⟨_, next, rfl, ?_, stuck⟩))
        obtain ⟨positive, -, enough, -⟩ := step
        rw [List.length_take]
        omega
      | read len next =>
        simp only [Option.bind_some, Action.move, ite_eq_right_iff, reduceCtorEq, imp_false,
          Nat.not_le] at stuck
        exact .inr (.inr (.inr ⟨_, next, rfl, stuck⟩))
      | «local» next => simp [Action.move] at stuck
      | outside => exact step.elim

end

end GaiaNet.Mem
