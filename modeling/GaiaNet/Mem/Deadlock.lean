import GaiaNet.Mem.Dealing

/-! When the calls of two ends get stuck: a pair whose whole calls cannot go on does not
get further by moving single chunks. -/

namespace GaiaNet.Mem

open Lib Lib.Chunks Lib.Duplex Lib.Transition

namespace Exchange

def Finished (exchange : Exchange) : Prop := ∀ side, exchange.script side = []

/-- The next message of an end has another length than the memory it is received into. -/
def Refuses (exchange : Exchange) (side : Side) : Prop :=
  ∃ buf rest body, exchange.script side = .recvInto buf :: rest ∧
    (exchange.due side)[(exchange.received side).length]? = some body ∧ buf.length ≠ body.length

/-- A call of `recv` accepts the next message unless the end refuses it. -/
theorem accepts_of_not_refuses {exchange : Exchange} (trusts : ¬ exchange.Refuses side)
    (calls : exchange.script side = call :: rest) (receives : call.results = 1)
    (present : (exchange.due side)[(exchange.received side).length]? = some body) :
    call.accepts body = true := by
  cases call with
  | send other => cases receives
  | recv str => rfl
  | recvInto buf =>
    by_cases same : buf.length = body.length
    · simp [Call.accepts, same]
    · exact absurd ⟨buf, rest, body, calls, present, same⟩ trusts

/-- Where no step is possible, a receiving end has neither a message nor a sender. -/
theorem starved {exchange : Exchange} (halted : Halted (next capacity) exchange)
    (trusts : ¬ exchange.Refuses side) (calls : exchange.script side = call :: rest)
    (receives : call.results = 1) :
    exchange.backlog side.other = [] ∧
      ∀ body others, exchange.script side.other ≠ .send body :: others := by
  have empty : exchange.backlog side.other = [] := by
    cases stored : exchange.backlog side.other with
    | nil => rfl
    | cons body more =>
      have present : (exchange.due side)[(exchange.received side).length]? = some body := by
        rw [due, stored, List.getElem?_append_right (Nat.le_refl _), Nat.sub_self]
        rfl
      have accepts := accepts_of_not_refuses trusts calls receives present
      have dealt : Dealt capacity exchange (.collect side) _ :=
        .collect side call rest body more calls stored accepts
      have moves := dealt.next_eq
      rw [halted] at moves
      cases moves
  refine ⟨empty, fun body others sends => ?_⟩
  have present : (exchange.due side)[(exchange.received side).length]? = some body := by
    rw [due, empty, sends, List.getElem?_append_right (Nat.le_refl _), Nat.sub_self]
    rfl
  have accepts := accepts_of_not_refuses trusts calls receives present
  have dealt : Dealt capacity exchange (.handOver side.other) _ :=
    .handOver side.other body others rest call sends (by rwa [Side.other_other]) empty accepts
  have moves := dealt.next_eq
  rw [halted] at moves
  cases moves

/-- Where no step is possible, a sending end has no room for its message. -/
theorem crowded {exchange : Exchange} (halted : Halted (next capacity) exchange)
    (calls : exchange.script side = .send body :: rest) :
    capacity < (stream (exchange.backlog side)).length + (frame body).length := by
  refine Nat.not_le.mp fun fits => ?_
  have moves := (Dealt.deposit side body rest calls fits).next_eq
  rw [halted] at moves
  cases moves

end Exchange

/-- An end that is still in the first of these calls: it has read nothing of it, and if it
sends, it has not written everything. -/
inductive Waits (calls : List Call) (count : Nat) (endpoint : Endpoint) (out : Bytes) : Prop where
  | idle (idle : endpoint.running = .idle) (script : endpoint.script = calls)
      (position : endpoint.returned.length = count)
  | sending (body : Bytes) (rest : List Call) (producer : Producer)
      (first : calls = .send body :: rest) (running : endpoint.running = .sending producer)
      (during : endpoint.During (.send body) rest count)
      (unsent : (stream (sent rest)).length < out.length)
  | receiving (str : Bytes) (rest : List Call) (returned : List RawString) (stats : Statistics)
      (first : calls = .recv str :: rest)
      (running : endpoint.running = .receiving ⟨[str], .idle, returned, stats⟩)
      (script : endpoint.script = rest) (position : returned.length = count)
  | header (buf : RawString) (rest : List Call) (first : calls = .recvInto buf :: rest)
      (running : endpoint.running = .header buf) (script : endpoint.script = rest)
      (position : endpoint.returned.length = count)

namespace Waits

variable {calls : List Call} {count : Nat} {endpoint : Endpoint} {out awaited : Bytes}
  {messages : List Bytes}

/-- Nothing has been read: everything from message `count` on is awaited. -/
theorem awaits (waits : Waits calls count endpoint out) (positive : 0 < size)
    (talks : endpoint.Talks size messages out awaited) :
    awaited = stream (messages.drop count) := by
  cases waits with
  | idle idle script position => exact (talks.idle idle position).2.1
  | sending body rest producer first running during unsent =>
    obtain ⟨-, -, awaits⟩ := talks
    have phase := during.phase
    simp only [running] at awaits phase
    obtain ⟨done, left, returned, whole, rfl⟩ := awaits
    have number : done.length = count := by rw [← phase.2, returned, List.length_map]
    rw [messages_split whole number]
  | receiving str rest returned stats first running script position =>
    obtain ⟨-, -, awaits⟩ := talks
    simp only [running] at awaits
    obtain ⟨ahead, ⟨-, done, left, same, whole, rfl⟩, rfl⟩ := awaits
    have lengths := congrArg List.length same
    rw [List.length_map] at lengths
    have number : done.length = count := lengths.symm.trans position
    rw [flatten_frames positive, messages_split whole number]
  | header buf rest first running script position =>
    obtain ⟨-, -, awaits⟩ := talks
    simp only [running] at awaits
    obtain ⟨done, left, returned, whole, rfl⟩ := awaits
    have number : done.length = count := by rw [← position, returned, List.length_map]
    rw [messages_split whole number]

/-- An end whose first call does not send has its whole script still to write. -/
theorem emits (waits : Waits calls count endpoint out)
    (talks : endpoint.Talks size messages out awaited)
    (silent : ∀ body rest, calls ≠ .send body :: rest) : out = stream (sent calls) := by
  obtain ⟨⟨-, emits⟩, -⟩ := talks
  cases waits with
  | idle idle script position =>
    simp only [idle] at emits
    rw [emits, script]
  | sending body rest producer first running during unsent => exact absurd first (silent body rest)
  | receiving str rest returned stats first running script position =>
    simp only [running] at emits
    rw [emits, first, script, sent_recv]
  | header buf rest first running script position =>
    simp only [running] at emits
    rw [emits, first, script, sent_recvInto]

/-- Beginning the first call. -/
theorem begin (idle : endpoint.running = .idle) (script : endpoint.script = call :: rest)
    (position : endpoint.returned.length = count)
    (talks : endpoint.Talks size messages out awaited) :
    Waits (call :: rest) count (endpoint.begin rest call) out := by
  obtain ⟨⟨-, emits⟩, -⟩ := talks
  simp only [idle, script] at emits
  cases call with
  | send body =>
    refine .sending body rest _ rfl rfl (.begin position rest _) ?_
    rw [emits, sent_send, stream_cons, List.length_append, length_frame]
    omega
  | recv str => exact .receiving str rest _ _ rfl rfl rfl position
  | recvInto buf => exact .header buf rest rfl rfl rfl position

end Waits

/-- Where a step of `send` leads, unless it returns. -/
theorem Endpoint.sending_move {endpoint : Endpoint} {chunkSize : UInt32}
    (running : endpoint.running = .sending producer) (working : producer.action chunkSize ≠ none) :
    Net.Keeps (fun next => ∃ producer, next.running = .sending producer)
      (endpoint.move chunkSize) := by
  unfold Endpoint.move
  simp only [Endpoint.action, running]
  cases acts : producer.action chunkSize with
  | none => exact absurd acts working
  | some action =>
    cases action with
    | write buf len next => exact ⟨next, rfl⟩
    | read len next => exact fun data => ⟨next data, rfl⟩
    | «local» next => exact ⟨next, rfl⟩
    | outside => trivial

/-- `send` does not return before it has written everything. -/
theorem Endpoint.Talks.working {endpoint : Endpoint} {chunkSize : UInt32}
    (talks : endpoint.Talks chunkSize.toNat messages out awaited) (legal : LegalSize chunkSize)
    (running : endpoint.running = .sending producer)
    (unsent : (stream (sent endpoint.script)).length < out.length) :
    producer.action chunkSize ≠ none := by
  intro ended
  obtain ⟨⟨-, emits⟩, -⟩ := talks
  simp only [running] at emits
  obtain ⟨ahead, sends, rfl⟩ := emits
  have step := sends.action legal
  rw [ended] at step
  subst step
  simp at unsent

/-- Both ends are still in the calls that the whole calls stopped at. -/
structure Deadlocked (chunkSize : Side → UInt32) (exchange : Exchange) (net : Net Endpoint UInt8)
    (out : Side → Bytes) : Prop where
  balanced : Net.Balanced (Talking chunkSize exchange.due) out net
  waits : ∀ side, Waits (exchange.script side) (exchange.received side).length (net.program side)
    (out side)

namespace Deadlocked

variable {chunkSize : Side → UInt32} {exchange : Exchange} {net after : Net Endpoint UInt8}
  {out : Side → Bytes} {side : Side} {capacity : Nat}

theorem awaits (locked : Deadlocked chunkSize exchange net out)
    (legal : ∀ side, LegalSize (chunkSize side)) (side : Side) :
    net.queue side.other ++ out side.other =
      stream (exchange.backlog side.other ++ sent (exchange.script side.other)) := by
  have low := (legal side).low
  have awaited := (locked.waits side).awaits (by omega) (locked.balanced side)
  rw [awaited, Exchange.due, List.drop_left]

/-- A receiving end finds nothing to read. -/
theorem empty (locked : Deadlocked chunkSize exchange net out)
    (legal : ∀ side, LegalSize (chunkSize side)) (halted : Halted (Exchange.next capacity) exchange)
    (trusts : ¬ exchange.Refuses side) (calls : exchange.script side = call :: rest)
    (receives : call.results = 1) : net.queue side.other = [] := by
  obtain ⟨nothing, silent⟩ := Exchange.starved halted trusts calls receives
  have awaited := locked.awaits legal side
  have emitted := (locked.waits side.other).emits (locked.balanced side.other) silent
  rw [nothing, List.nil_append, emitted] at awaited
  exact List.append_left_eq_self.mp awaited

/-- Bytes that a sending end has written and those it still has to write. -/
theorem sending_length (locked : Deadlocked chunkSize exchange net out)
    (legal : ∀ side, LegalSize (chunkSize side)) (calls : exchange.script side = .send body :: rest) :
    (net.queue side).length + (out side).length =
      (stream (exchange.backlog side)).length + (frame body).length + (stream (sent rest)).length := by
  have awaited := congrArg List.length (locked.awaits legal side.other)
  rw [Side.other_other, calls, sent_send, stream_append, stream_cons] at awaited
  simpa [Nat.add_assoc] using awaited

/-- The end that moves stays in its call. -/
theorem moved_side (locked : Deadlocked chunkSize exchange net out)
    (legal : ∀ side, LegalSize (chunkSize side)) (halted : Halted (Exchange.next capacity) exchange)
    (trusts : ¬ exchange.Refuses side)
    (moved : Net.Moved capacity (moves chunkSize) side net after)
    (joined : after.queue side ++ later = net.queue side ++ out side) :
    Waits (exchange.script side) (exchange.received side).length (after.program side) later := by
  have talks : (net.program side).Talks _ _ _ _ := locked.balanced side
  cases locked.waits side with
  | idle idle script position =>
    cases calls : exchange.script side with
    | nil =>
      rw [calls] at script
      cases moved with
      | write data next chosen room =>
        simp [moves, Endpoint.move, Endpoint.action, idle, script] at chosen
      | read count next chosen stored =>
        simp [moves, Endpoint.move, Endpoint.action, idle, script] at chosen
      | silent next chosen => simp [moves, Endpoint.move, Endpoint.action, idle, script] at chosen
    | cons call rest =>
      rw [calls] at script
      cases moved with
      | write data next chosen room =>
        simp [moves, Endpoint.move, Endpoint.action, idle, script, Action.move] at chosen
      | read count next chosen stored =>
        simp [moves, Endpoint.move, Endpoint.action, idle, script, Action.move] at chosen
      | silent next chosen =>
        simp only [moves, Endpoint.move, Endpoint.action, idle, script, Option.bind_some,
          Action.move, Option.some.injEq, Move.silent.injEq] at chosen
        subst next
        rw [List.append_cancel_left joined]
        simpa using Waits.begin idle script position talks
  | sending body rest producer calls running during unsent =>
    have working := talks.working (legal side) running (by rw [during.script]; exact unsent)
    have stays := Endpoint.sending_move running working
    have keeps : Net.Keeps (Endpoint.During (.send body) rest _) (held chunkSize side _) := during.held
    rw [held_running (by rw [running]; exact Running.noConfusion), moves] at keeps
    cases moved with
    | write data next chosen room =>
      rw [moves] at chosen
      rw [chosen] at stays keeps
      obtain ⟨producer, running⟩ := stays
      obtain ⟨front, wrote, -⟩ := talks.write_front (legal side) during chosen
      have more : later = front ++ stream (sent rest) := by
        rw [wrote] at joined
        simp only [Function.update_self, List.append_assoc] at joined
        exact List.append_cancel_left (List.append_cancel_left joined)
      have total := locked.sending_length legal calls
      have full := Exchange.crowded halted calls
      rw [wrote, List.length_append, List.length_append] at total
      have inside : next.During (.send body) rest _ := keeps
      refine .sending body rest producer calls (by simpa using running) (by simpa using inside) ?_
      rw [more, List.length_append]
      omega
    | read amount next chosen stored => exact absurd chosen (during.sends _)
    | silent next chosen =>
      rw [moves] at chosen
      rw [chosen] at stays keeps
      obtain ⟨producer, running⟩ := stays
      have inside : next.During (.send body) rest _ := keeps
      rw [List.append_cancel_left joined]
      exact .sending body rest producer calls (by simpa using running) (by simpa using inside) unsent
  | receiving str rest returned stats calls running script position =>
    have nothing := locked.empty legal halted trusts calls rfl
    cases moved with
    | write data next chosen room =>
      simp [moves, Endpoint.move, Endpoint.action, running, Consumer.action, Action.map,
        Action.move] at chosen
    | read amount next chosen stored =>
      rw [nothing] at stored
      simp only [moves, Endpoint.move, Endpoint.action, running, Consumer.action, Action.map,
        Option.bind_some, Action.move, Option.some.injEq, Move.read.injEq] at chosen
      rw [← chosen.1] at stored
      cases stored
    | silent next chosen =>
      simp [moves, Endpoint.move, Endpoint.action, running, Consumer.action, Action.map,
        Action.move] at chosen
  | header buf rest calls running script position =>
    have nothing := locked.empty legal halted trusts calls rfl
    cases moved with
    | write data next chosen room =>
      simp [moves, Endpoint.move, Endpoint.action, running, Action.move] at chosen
    | read amount next chosen stored =>
      rw [nothing] at stored
      simp only [moves, Endpoint.move, Endpoint.action, running, Option.bind_some, Action.move,
        Option.some.injEq, Move.read.injEq] at chosen
      rw [← chosen.1] at stored
      cases stored
    | silent next chosen =>
      simp [moves, Endpoint.move, Endpoint.action, running, Action.move] at chosen

/-- A deadlock stays one. -/
theorem moved (locked : Deadlocked chunkSize exchange net out)
    (legal : ∀ side, LegalSize (chunkSize side)) (halted : Halted (Exchange.next capacity) exchange)
    (trusts : ∀ side, ¬ exchange.Refuses side)
    (moved : Net.Moved capacity (moves chunkSize) side net after) :
    ∃ later, Deadlocked chunkSize exchange after later := by
  obtain ⟨later, kept, same, joined⟩ := locked.balanced.moved (talking_follows legal) moved
  refine ⟨later, kept, Side.forall_of side ?_ ?_⟩
  · exact locked.moved_side legal halted (trusts side) moved joined
  · rw [moved.program_other, same]
    exact locked.waits side.other

end Deadlocked

/-- An end at a call of `recv(void*, length)` that will not get past its assertion. -/
def Refusing (buf : RawString) (rest : List Call) (count : Nat) (endpoint : Endpoint) : Prop :=
  endpoint.returned.length = count ∧
    ((endpoint.running = .idle ∧ endpoint.script = .recvInto buf :: rest) ∨
      endpoint.running = .header buf ∨ endpoint.running = .aborted buf)

/-- `recv_body` is not reached with a length other than the message's. -/
theorem Endpoint.Talks.same_length {endpoint : Endpoint} {messages strings : List Bytes}
    {results : List RawString} {counters : Statistics} {str : RawString} {body : Bytes}
    (talks : endpoint.Talks size messages out awaited)
    (running : endpoint.running = .receiving ⟨strings, .chunks str loop, results, counters⟩)
    (present : messages[results.length]? = some body) : str.length = body.length := by
  obtain ⟨-, -, awaits⟩ := talks
  simp only [running] at awaits
  obtain ⟨ahead, ⟨-, done, left, received, other, index, whole, -, same, -⟩, -⟩ := awaits
  have number : results.length = (done.map (List.map some)).length := congrArg List.length received
  rw [List.length_map] at number
  rw [whole, number, List.getElem?_append_right (Nat.le_refl _), Nat.sub_self] at present
  cases present
  exact same

theorem Refusing.moved {net after : Net Endpoint UInt8} {messages : List Bytes}
    (refusing : Refusing buf rest count (net.program side))
    (present : messages[count]? = some body) (differ : buf.length ≠ body.length)
    (moved : Net.Moved capacity (moves chunkSize) side net after)
    (talks : (after.program side).Talks size messages out awaited) :
    Refusing buf rest count (after.program side) := by
  obtain ⟨position, ⟨idle, script⟩ | header | aborted⟩ := refusing
  · cases moved with
    | write data next chosen room =>
      simp [moves, Endpoint.move, Endpoint.action, idle, script, Action.move] at chosen
    | read amount next chosen stored =>
      simp [moves, Endpoint.move, Endpoint.action, idle, script, Action.move] at chosen
    | silent next chosen =>
      simp only [moves, Endpoint.move, Endpoint.action, idle, script, Option.bind_some,
        Action.move, Option.some.injEq, Move.silent.injEq] at chosen
      subst next
      simp [Refusing, Endpoint.begin, position]
  · cases moved with
    | write data next chosen room =>
      simp [moves, Endpoint.move, Endpoint.action, header, Action.move] at chosen
    | read amount next chosen stored =>
      simp only [moves, Endpoint.move, Endpoint.action, header, Option.bind_some, Action.move,
        Option.some.injEq, Move.read.injEq] at chosen
      obtain ⟨-, rfl⟩ := chosen
      simp only [Function.update_self] at talks ⊢
      unfold Endpoint.assertLength at talks ⊢
      split at talks
      · exact absurd (talks.same_length rfl (position ▸ present)) differ
      · rename_i unequal
        rw [if_neg unequal]
        exact ⟨position, .inr (.inr rfl)⟩
    | silent next chosen =>
      simp [moves, Endpoint.move, Endpoint.action, header, Action.move] at chosen
  · cases moved with
    | write data next chosen room =>
      simp [moves, Endpoint.move, Endpoint.action, aborted] at chosen
    | read amount next chosen stored =>
      simp [moves, Endpoint.move, Endpoint.action, aborted] at chosen
    | silent next chosen => simp [moves, Endpoint.move, Endpoint.action, aborted] at chosen

/-- Both ends have made all their calls. -/
def AllReturned (net : Net Endpoint UInt8) : Prop :=
  ∀ side, (net.program side).running = .idle ∧ (net.program side).script = []

theorem AllReturned.halted {net : Net Endpoint UInt8} (ended : AllReturned net) :
    Halted (Net.next capacity (moves chunkSize)) net := by
  intro side
  obtain ⟨idle, script⟩ := ended side
  simp [Net.next, moves, Endpoint.move, Endpoint.action, idle, script]

/-- Where whole calls are stuck, no run of the two ends finishes. -/
theorem Settled.never_returns {exchange : Exchange} {net later : Net Endpoint UInt8}
    {chunkSize : Side → UInt32} (clean : Settled exchange net) (short : exchange.Short)
    (legal : ∀ side, LegalSize (chunkSize side)) (halted : Halted (Exchange.next capacity) exchange)
    (unfinished : ¬ exchange.Finished)
    (path : Reaches (Net.next capacity (moves chunkSize)) net later) : ¬ AllReturned later := by
  intro ended
  by_cases refuses : ∃ side, exchange.Refuses side
  · obtain ⟨side, buf, rest, body, calls, present, differ⟩ := refuses
    have kept := path.invariant (fun net => ∃ out,
      Net.Balanced (Talking chunkSize exchange.due) out net ∧
        Refusing buf rest (exchange.received side).length (net.program side))
      ⟨_, clean.balanced short, clean.count side,
        .inl ⟨clean.idle side, by rw [clean.script, calls]⟩⟩ ?_
    · obtain ⟨-, -, -, ⟨-, script⟩ | header | aborted⟩ := kept
      · rw [(ended side).2] at script
        cases script
      · rw [(ended side).1] at header
        cases header
      · rw [(ended side).1] at aborted
        cases aborted
    · rintro mover before after ⟨out, balanced, refusing⟩ moved
      have moved := Net.next_moved moved
      obtain ⟨left, kept, -, -⟩ := balanced.moved (talking_follows legal) moved
      refine ⟨left, kept, ?_⟩
      by_cases same : side = mover
      · subst mover
        exact refusing.moved present differ moved (kept side)
      · rw [Side.eq_other_of_ne (Ne.symm same), moved.program_other,
          ← Side.eq_other_of_ne (Ne.symm same)]
        exact refusing
  · have kept := path.invariant (fun net => ∃ out, Deadlocked chunkSize exchange net out)
      ⟨_, clean.balanced short, fun side =>
        .idle (clean.idle side) (clean.script side) (clean.count side)⟩
      fun side before after locked moved => by
        obtain ⟨out, locked⟩ := locked
        exact locked.moved legal halted (fun side refuse => refuses ⟨side, refuse⟩)
          (Net.next_moved moved)
    obtain ⟨out, locked⟩ := kept
    refine unfinished fun side => ?_
    obtain ⟨idle, empty⟩ := ended side
    cases locked.waits side with
    | idle _ script _ => rw [← script, empty]
    | sending body rest producer first running during unsent =>
      rw [idle] at running
      cases running
    | receiving str rest returned stats first running script position =>
      rw [idle] at running
      cases running
    | header buf rest first running script position =>
      rw [idle] at running
      cases running

/-- Both ends have made all their calls and received exactly these messages. -/
def Duplex.Done (received : Side → List Bytes) (duplex : Duplex) : Prop :=
  ∀ side, (duplex.endpoint side).running = .idle ∧ (duplex.endpoint side).script = [] ∧
    (duplex.endpoint side).returned = (received side).map (List.map some)

/-- Sizes that the constructors of both ends assert. -/
structure Sized (bufSize : UInt32) (chunkSize : Side → UInt32) : Prop where
  segment : ∃ exponent, 3 ≤ exponent ∧ exponent ≤ 30 ∧ bufSize.toNat = 2 ^ exponent
  chunk : ∀ side, ∃ exponent, 3 ≤ exponent ∧ exponent ≤ 30 ∧ (chunkSize side).toNat = 2 ^ exponent

namespace Sized

variable {bufSize : UInt32} {chunkSize : Side → UInt32} {script : Side → List Call}
  {exchange : Exchange}

theorem legal (sized : Sized bufSize chunkSize) (side : Side) : LegalSize (chunkSize side) := by
  obtain ⟨exponent, low, high, size⟩ := sized.chunk side
  exact LegalSize.ofPower low high size

theorem nested (sized : Sized bufSize chunkSize) (side : Side) :
    (chunkSize side).toNat ∣ (chunkSize side.other).toNat ∨
      (chunkSize side.other).toNat ∣ (chunkSize side).toNat := by
  obtain ⟨mine, -, -, size⟩ := sized.chunk side
  obtain ⟨theirs, -, -, other⟩ := sized.chunk side.other
  rw [size, other]
  rcases Nat.le_total mine theirs with order | order
  · exact .inl (Nat.pow_dvd_pow 2 order)
  · exact .inr (Nat.pow_dvd_pow 2 order)

theorem four_le (sized : Sized bufSize chunkSize) : 4 ≤ bufSize.toNat := by
  obtain ⟨exponent, low, high, size⟩ := sized.segment
  have bound := (LegalSize.ofPower low high size).low
  omega

theorem coupled (sized : Sized bufSize chunkSize) (segment : Side → SharedMemoryView)
    (short : ∀ side, ∀ body ∈ sent (script side), body.length ≤ 2 ^ 31) :
    Coupled bufSize chunkSize (incoming script) (Duplex.start segment bufSize script)
      (startNet script) := by
  obtain ⟨exponent, low, high, size⟩ := sized.segment
  exact coupled_start segment script low high size short

/-- The ends can follow the whole calls from the start. -/
theorem follows (sized : Sized bufSize chunkSize)
    (fits : ∀ side, (chunkSize side).toNat ≤ bufSize.toNat)
    (short : ∀ side, ∀ body ∈ sent (script side), body.length ≤ 2 ^ 31)
    (path : Reaches (Exchange.next bufSize.toNat) (Exchange.start script) exchange) :
    ∃ net, Reaches (Net.next bufSize.toNat (moves chunkSize)) (startNet script) net ∧
      Settled exchange net ∧ exchange.Short := by
  have clean : Settled (Exchange.start script) (startNet script) :=
    ⟨fun _ => rfl, fun _ => rfl, fun _ => rfl, fun _ => rfl⟩
  have carried : (Exchange.start script).Short := fun side => short side.other
  obtain ⟨net, reached, there, due⟩ :=
    clean.reaches carried sized.legal sized.four_le fits sized.nested path
  refine ⟨net, reached, there, fun side => ?_⟩
  rw [due]
  exact carried side

/-- Where all calls can return, no run of the ends goes astray. -/
theorem finishes (sized : Sized bufSize chunkSize) (segment : Side → SharedMemoryView)
    (short : ∀ side, ∀ body ∈ sent (script side), body.length ≤ 2 ^ 31)
    (run : Reaches (Net.next bufSize.toNat (moves chunkSize)) (startNet script) net)
    (clean : Settled exchange net) (finished : exchange.Finished) (reached : Duplex)
    (strayed : Reaches (Duplex.next chunkSize) (Duplex.start segment bufSize script) reached) :
    ∃ final, Reaches (Duplex.next chunkSize) reached final ∧ final.Done exchange.received := by
  have step := @coupled_step bufSize chunkSize (incoming script) sized.legal
  have ended : AllReturned net := fun side =>
    ⟨clean.idle side, by rw [clean.script, finished side]⟩
  obtain ⟨last, moved, atReached⟩ :=
    reaches_lockstep _ step (sized.coupled segment short) strayed
  have ends := (Net.commutes bufSize.toNat (moves chunkSize)).reaches run ended.halted moved
  obtain ⟨final, realized, atFinal⟩ := realizes_lockstep _ step atReached ends
  refine ⟨final, realized, fun side => ?_⟩
  rw [← atFinal.1.program]
  exact ⟨clean.idle side, (ended side).2, clean.returned side⟩

/-- When the whole calls are stuck before their end, no run of the ends finishes. -/
theorem stuck (sized : Sized bufSize chunkSize) (segment : Side → SharedMemoryView)
    (fits : ∀ side, (chunkSize side).toNat ≤ bufSize.toNat)
    (short : ∀ side, ∀ body ∈ sent (script side), body.length ≤ 2 ^ 31)
    (path : Reaches (Exchange.next bufSize.toNat) (Exchange.start script) exchange)
    (stopped : Halted (Exchange.next bufSize.toNat) exchange) (unfinished : ¬ exchange.Finished)
    (final : Duplex) (done : final.Done received) :
    ¬ Reaches (Duplex.next chunkSize) (Duplex.start segment bufSize script) final := by
  intro realized
  have step := @coupled_step bufSize chunkSize (incoming script) sized.legal
  obtain ⟨net, run, there, still⟩ := sized.follows fits short path
  obtain ⟨last, moved, atFinal⟩ := reaches_lockstep _ step (sized.coupled segment short) realized
  have ended : AllReturned last := fun side => by
    rw [atFinal.1.program]
    exact ⟨(done side).1, (done side).2.1⟩
  have ends := (Net.commutes bufSize.toNat (moves chunkSize)).reaches moved ended.halted run
  exact there.never_returns still sized.legal stopped unfinished ends ended

end Sized

/-- Two scripts can always run to their end, whatever the ends have done so far, exactly if
their whole calls do: one run of whole calls that cannot go on decides it, and what both
ends have received at the end. -/
theorem duplex_completes_iff (segment : Side → SharedMemoryView) (bufSize : UInt32)
    (chunkSize : Side → UInt32) (script : Side → List Call) (exchange : Exchange)
    (sized : Sized bufSize chunkSize) (fits : ∀ side, (chunkSize side).toNat ≤ bufSize.toNat)
    (short : ∀ side, ∀ body ∈ sent (script side), body.length ≤ 2 ^ 31)
    (path : Reaches (Exchange.next bufSize.toNat) (Exchange.start script) exchange)
    (stopped : Halted (Exchange.next bufSize.toNat) exchange) :
    (∀ reached, Reaches (Duplex.next chunkSize) (Duplex.start segment bufSize script) reached →
      ∃ final, Reaches (Duplex.next chunkSize) reached final ∧ final.Done exchange.received) ↔
    exchange.Finished := by
  constructor
  · intro returns
    refine Classical.byContradiction fun unfinished => ?_
    obtain ⟨final, path_of_start, done⟩ := returns _ (Reaches.refl _ _)
    exact sized.stuck segment fits short path stopped unfinished final done path_of_start
  · intro finished reached strayed
    obtain ⟨net, run, clean, -⟩ := sized.follows fits short path
    exact sized.finishes segment short run clean finished reached strayed

theorem Sized.eight : Sized 8 fun _ => 8 :=
  ⟨⟨3, by decide, by decide, rfl⟩, fun _ => ⟨3, by decide, by decide, rfl⟩⟩

/-- Two ends that both send five bytes first, over segments of eight. -/
theorem Exchange.five_stops :
    Halted (Exchange.next 8) (Exchange.start fun _ => [.send [1, 2, 3, 4, 5], .recv []]) := by
  rintro ((_ | _) | (_ | _) | (_ | _)) <;> rfl

/-- Two ends that both send three bytes first. -/
theorem Exchange.three_crosses :
    run (Exchange.next 8) [.deposit .left, .deposit .right, .collect .left, .collect .right]
        (Exchange.start fun _ => [.send [1, 2, 3], .recv []]) =
      some ⟨fun _ => [], fun _ => [], fun _ => [[1, 2, 3]]⟩ := by
  refine congrArg some (Exchange.mk.injEq .. ▸ ⟨?_, ?_, ?_⟩) <;>
  · funext side
    cases side <;> rfl

theorem Exchange.three_stops :
    Halted (Exchange.next 8) ⟨fun _ => [], fun _ => [], fun _ => [[1, 2, 3]]⟩ := by
  rintro (side | side | side) <;> rfl

theorem duplex_completes_not_five :
    ¬ ∀ reached, Reaches (Duplex.next fun _ => 8) (Duplex.start (fun _ => .zeroed) 8
        fun _ => [.send [1, 2, 3, 4, 5], .recv []]) reached →
      ∃ final, Reaches (Duplex.next fun _ => 8) reached final ∧ final.Done fun _ => [] := by
  intro returns
  have finished := (duplex_completes_iff (fun _ => .zeroed) 8 (fun _ => 8) _ _ Sized.eight
    (fun _ => by decide) (fun side => by cases side <;> simp [sent]) (Reaches.refl _ _)
    Exchange.five_stops).mp returns
  cases finished .left

end GaiaNet.Mem
