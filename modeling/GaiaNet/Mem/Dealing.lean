import GaiaNet.Mem.CallPhases
import GaiaNet.Mem.Exchange

/-! Every step between whole calls can be followed by the two ends, from rings that hold
whole messages to rings that hold whole messages. -/

namespace GaiaNet.Mem

open Lib Lib.Chunks Lib.Duplex Lib.Transition

/-- Both ends are between two calls and the queues hold whole messages. -/
structure Settled (exchange : Exchange) (net : Net Endpoint UInt8) : Prop where
  script : ∀ side, (net.program side).script = exchange.script side
  idle : ∀ side, (net.program side).running = .idle
  returned : ∀ side, (net.program side).returned = (exchange.received side).map (List.map some)
  queue : ∀ side, net.queue side = stream (exchange.backlog side)

/-- Every message that is under way or received can be carried. -/
def Exchange.Short (exchange : Exchange) : Prop :=
  ∀ side, ∀ body ∈ exchange.due side, body.length ≤ 2 ^ 31

theorem Exchange.Short.sent {exchange : Exchange} (short : exchange.Short) (side : Side) :
    ∀ body ∈ sent (exchange.script side), body.length ≤ 2 ^ 31 := by
  intro body member
  refine short side.other body ?_
  simp [Exchange.due, member]

/-- What an idle end writes and waits for. -/
theorem Endpoint.Talks.idle {endpoint : Endpoint} {messages : List Bytes}
    (talks : endpoint.Talks size messages out awaited) (idle : endpoint.running = .idle)
    (position : endpoint.returned.length = count) :
    out = stream (sent endpoint.script) ∧ awaited = stream (messages.drop count) ∧
      endpoint.returned = (messages.take count).map (List.map some) := by
  obtain ⟨⟨-, emits⟩, -, awaits⟩ := talks
  simp only [idle] at emits awaits
  obtain ⟨done, rest, returned, whole, same⟩ := awaits
  have number : done.length = count := by rw [← position, returned, List.length_map]
  refine ⟨emits, ?_, ?_⟩
  · rw [same, messages_split whole number]
  · rw [returned, whole, ← number, List.take_left]

namespace Settled

variable {exchange : Exchange} {net : Net Endpoint UInt8} {chunkSize : Side → UInt32}

theorem balanced (clean : Settled exchange net) (short : exchange.Short) :
    Net.Balanced (Talking chunkSize exchange.due)
      (fun side => stream (sent (exchange.script side))) net := by
  intro side
  have idle := clean.idle side
  refine ⟨⟨?_, ?_⟩, short side, ?_⟩
  · rw [clean.script]
    exact short.sent side
  · simp only [idle, clean.script]
  · simp only [idle]
    refine ⟨exchange.received side, _, clean.returned side, rfl, ?_⟩
    rw [clean.queue, ← stream_append]

theorem count (clean : Settled exchange net) (side : Side) :
    (net.program side).returned.length = (exchange.received side).length := by
  rw [clean.returned, List.length_map]

end Settled

/-- The ends keep to their roles until each has returned from its call or waits in it. -/
theorem play_out {net : Net Endpoint UInt8} {chunkSize : Side → UInt32}
    {messages : Side → List Bytes} {out : Side → Bytes} {mine theirs : Endpoint → Prop}
    (balanced : Net.Balanced (Talking chunkSize messages) out net)
    (legal : ∀ side, LegalSize (chunkSize side)) (capacity : Nat) (side : Side)
    (here : mine (net.program side)) (there : theirs (net.program side.other))
    (stays : ∀ endpoint, mine endpoint → Net.Keeps mine (held chunkSize side endpoint))
    (remains : ∀ endpoint, theirs endpoint → Net.Keeps theirs (held chunkSize side.other endpoint)) :
    ∃ final rest, Reaches (Net.next capacity (moves chunkSize)) net final ∧
      Halted (Net.next capacity (held chunkSize)) final ∧
      Net.Balanced (Talking chunkSize messages) rest final ∧
      mine (final.program side) ∧ theirs (final.program side.other) := by
  let role : Side → Endpoint → Prop := Function.update (fun _ => theirs) side mine
  have roleHere : role side = mine := Function.update_self _ _ _
  have roleThere : role side.other = theirs := Function.update_of_ne side.other_ne _ _
  have plays : ∀ any, role any (net.program any) :=
    Side.forall_of side (roleHere ▸ here) (roleThere ▸ there)
  have kept : ∀ any endpoint, role any endpoint → Net.Keeps (role any) (held chunkSize any endpoint) :=
    Side.forall_of side (roleHere ▸ stays) (roleThere ▸ remains)
  have both : Net.Balanced (fun any program out awaited =>
      Talking chunkSize messages any program out awaited ∧ role any program) out net :=
    fun any => ⟨balanced any, plays any⟩
  have works : Net.Works (held chunkSize) (fun any program out awaited =>
      Talking chunkSize messages any program out awaited ∧ role any program) Endpoint.weight :=
    fun any program out awaited talks => held_works legal any program out awaited talks.1
  obtain ⟨final, rest, path, halted, talks⟩ :=
    both.halts ((held_follows legal).keeps role kept) works capacity
  refine ⟨final, rest, ?_, halted, fun any => (talks any).1, ?_, ?_⟩
  · exact path.invariant (Reaches (Net.next capacity (moves chunkSize)) net) (Reaches.refl _ _)
      fun _ before after reached moved =>
        reached.step (held_moved (Net.next_moved moved)).next_eq
  · exact roleHere ▸ (talks side).2
  · exact roleThere ▸ (talks side.other).2

/-- An idle end that begins no call does not change. -/
theorem idle_remains {chunkSize : Side → UInt32} {resting : Endpoint}
    (idle : resting.running = .idle) (endpoint : Endpoint) (same : resting = endpoint) :
    Net.Keeps (Eq resting) (held chunkSize side endpoint) := by
  rw [held_idle (by rw [← same, idle])]
  trivial

section

variable {exchange : Exchange} {net : Net Endpoint UInt8} {chunkSize : Side → UInt32}

/-- The net once one end has begun its next call. -/
def begun (net : Net Endpoint UInt8) (side : Side) (rest : List Call) (call : Call) :
    Net Endpoint UInt8 :=
  { net with program := Function.update net.program side ((net.program side).begin rest call) }

theorem begun_moved (idle : (net.program side).running = .idle)
    (next : (net.program side).script = call :: rest) (capacity : Nat) :
    Net.Moved capacity (moves chunkSize) side net (begun net side rest call) := by
  refine .silent _ ?_
  simp [moves, Endpoint.move, Endpoint.action, idle, next, Action.move]

/-- One end makes its next call while the other rests. -/
theorem Settled.solo (clean : Settled exchange net) (short : exchange.Short)
    (legal : ∀ side, LegalSize (chunkSize side)) (calls : exchange.script side = call :: rest)
    (capacity : Nat) :
    ∃ final left, Reaches (Net.next capacity (moves chunkSize)) net final ∧
      Halted (Net.next capacity (held chunkSize)) final ∧
      Net.Balanced (Talking chunkSize exchange.due) left final ∧
      (final.program side).During call rest (exchange.received side).length ∧
      final.program side.other = net.program side.other ∧
      left side.other = stream (sent (exchange.script side.other)) ∧
      final.queue side ++ left side = stream (exchange.backlog side ++ sent (exchange.script side)) := by
  have begins : Net.Moved capacity (moves chunkSize) side net (begun net side rest call) :=
    begun_moved (clean.idle side) (by rw [clean.script, calls]) capacity
  obtain ⟨out, balanced, -, -⟩ :=
    (clean.balanced short).moved (talking_follows legal) begins
  have engaged : ((begun net side rest call).program side).During call rest
      (exchange.received side).length := by
    simpa [begun] using Endpoint.During.begin (clean.count side) rest call
  have resting : (begun net side rest call).program side.other = net.program side.other := by
    simp [begun]
  obtain ⟨final, left, path, halted, talks, mine, theirs⟩ := play_out balanced legal capacity side
    engaged resting.symm (fun endpoint during => during.held) (idle_remains (clean.idle side.other))
  have theirTalk := talks side.other
  rw [← theirs, Side.other_other] at theirTalk
  obtain ⟨emitted, queued, -⟩ := Endpoint.Talks.idle theirTalk (clean.idle side.other) (clean.count _)
  refine ⟨final, left, ((Reaches.refl _ _).step begins.next_eq).trans path, halted, talks, mine,
    theirs.symm, ?_, ?_⟩
  · rw [emitted, clean.script]
  · rw [queued, Exchange.due, List.drop_left, Side.other_other]

/-- A `send` that fits is carried out by its end alone. -/
theorem Settled.deposit (clean : Settled exchange net) (short : exchange.Short)
    (legal : ∀ side, LegalSize (chunkSize side))
    (calls : exchange.script side = .send body :: rest)
    (fits : (stream (exchange.backlog side)).length + (frame body).length ≤ capacity) :
    ∃ later, Reaches (Net.next capacity (moves chunkSize)) net later ∧ Settled { exchange with
      script := Function.update exchange.script side rest
      backlog := Function.update exchange.backlog side (exchange.backlog side ++ [body]) } later := by
  obtain ⟨final, left, path, halted, talks, mine, theirs, emitted, queued⟩ :=
    clean.solo short legal calls capacity
  rw [calls, sent_send] at queued
  have talk : (final.program side).Talks _ _ _ _ := talks side
  rcases held_waits halted (legal side) talk with idle | ⟨buf, aborted⟩ | ⟨data, later, chosen, -, full⟩ |
    ⟨amount, later, chosen, -⟩
  · obtain ⟨wrote, waits, results⟩ := talk.idle idle (mine.position idle)
    rw [mine.script] at wrote
    rw [Exchange.due, emitted, Call.results, Nat.add_zero, List.drop_left, stream_append] at waits
    rw [wrote, ← List.singleton_append, ← List.append_assoc, stream_append] at queued
    refine ⟨final, path, Side.forall_of side ?_ ?_, Side.forall_of side idle ?_,
      Side.forall_of side ?_ ?_, Side.forall_of side ?_ ?_⟩
    · simpa using mine.script
    · simpa [theirs] using clean.script side.other
    · simpa [theirs] using clean.idle side.other
    · simpa [Exchange.due, Call.results] using results
    · simpa [theirs] using clean.returned side.other
    · simpa using List.append_cancel_right queued
    · simpa using List.append_cancel_right waits
  · have phase := mine.phase
    simp only [aborted] at phase
    cases phase.1
  · obtain ⟨front, wrote, -⟩ := talk.write_front (legal side) mine chosen
    rw [wrote] at queued
    have lengths := congrArg List.length queued
    simp only [List.length_append, stream_append, stream_cons] at lengths
    omega
  · exact absurd chosen (mine.sends _)

theorem Call.results_of_accepts {call : Call} (accepts : call.accepts body = true) :
    call.results = 1 := by
  cases call with
  | send other => cases accepts
  | recv str => rfl
  | recvInto buf => rfl

/-- A message of the right length does not fail the assertion. -/
theorem Endpoint.Talks.not_aborted {endpoint : Endpoint} {messages : List Bytes}
    (talks : endpoint.Talks size messages out awaited) (during : endpoint.During call rest count)
    (present : messages[count]? = some body) (accepts : call.accepts body = true) (buf : RawString) :
    endpoint.running ≠ .aborted buf := by
  intro aborted
  obtain ⟨-, -, awaits⟩ := talks
  have phase := during.phase
  simp only [aborted] at awaits phase
  obtain ⟨done, other, more, returned, whole, differ⟩ := awaits
  obtain ⟨rfl, position⟩ := phase
  have number : done.length = count := by rw [← position, returned, List.length_map]
  rw [whole, ← number, List.getElem?_append_right (Nat.le_refl _), Nat.sub_self] at present
  cases present
  exact differ (by simpa [Call.accepts] using accepts)

/-- A `recv` of a stored message is carried out by its end alone. -/
theorem Settled.collect (clean : Settled exchange net) (short : exchange.Short)
    (legal : ∀ side, LegalSize (chunkSize side)) (calls : exchange.script side = call :: rest)
    (stored : exchange.backlog side.other = body :: more) (accepts : call.accepts body = true)
    (capacity : Nat) :
    ∃ later, Reaches (Net.next capacity (moves chunkSize)) net later ∧ Settled {
      script := Function.update exchange.script side rest
      backlog := Function.update exchange.backlog side.other more
      received := Function.update exchange.received side (exchange.received side ++ [body]) } later := by
  obtain ⟨final, left, path, halted, talks, mine, theirs, emitted, queued⟩ :=
    clean.solo short legal calls capacity
  rw [calls, Exchange.accepts_sent accepts] at queued
  have receives := Call.results_of_accepts accepts
  have due : exchange.due side =
      exchange.received side ++ body :: (more ++ sent (exchange.script side.other)) := by
    rw [Exchange.due, stored]
    rfl
  have present : (exchange.due side)[(exchange.received side).length]? = some body := by
    rw [due, List.getElem?_append_right (Nat.le_refl _), Nat.sub_self]
    rfl
  have after : (exchange.due side).drop ((exchange.received side).length + 1) =
      more ++ sent (exchange.script side.other) :=
    (List.cons.inj ((drop_message present).symm.trans (by rw [due, List.drop_left]))).2
  have talk : (final.program side).Talks _ _ _ _ := talks side
  rcases held_waits halted (legal side) talk with idle | ⟨buf, aborted⟩ | ⟨data, later, chosen, -, -⟩ |
    ⟨amount, later, chosen, missing⟩
  · have position := mine.position idle
    rw [receives] at position
    obtain ⟨wrote, waits, results⟩ := talk.idle idle position
    rw [mine.script] at wrote
    rw [after, emitted, stream_append] at waits
    rw [wrote, stream_append] at queued
    refine ⟨final, path, Side.forall_of side ?_ ?_, Side.forall_of side idle ?_,
      Side.forall_of side ?_ ?_, Side.forall_of side ?_ ?_⟩
    · simpa using mine.script
    · simpa [theirs] using clean.script side.other
    · simpa [theirs] using clean.idle side.other
    · simpa [due, List.take_length_add_append] using results
    · simpa [theirs] using clean.returned side.other
    · simpa using List.append_cancel_right queued
    · simpa using List.append_cancel_right waits
  · exact absurd aborted (talk.not_aborted mine present accepts buf)
  · exact absurd chosen (mine.receives receives _)
  · obtain ⟨front, rest, waits, length, -⟩ := talk.read_front (legal side) mine present chosen
    rw [after, emitted, stream_append, ← List.append_assoc] at waits
    have kept := congrArg List.length (List.append_cancel_right waits)
    simp only [List.length_append] at kept
    omega

/-- The message fits into a segment, or the chunks of both ends do. -/
def Carried (chunkSize : Side → UInt32) (capacity : Nat) (body : Bytes) : Prop :=
  body.length ≤ capacity ∨ ∀ side, (chunkSize side).toNat ≤ capacity

/-- A `send` and the `recv` of its message are carried out by both ends together. -/
theorem Settled.handOver (clean : Settled exchange net) (short : exchange.Short)
    (legal : ∀ side, LegalSize (chunkSize side)) (low : 4 ≤ capacity)
    (carried : Carried chunkSize capacity body)
    (nested : (chunkSize side).toNat ∣ (chunkSize side.other).toNat ∨
      (chunkSize side.other).toNat ∣ (chunkSize side).toNat)
    (calls : exchange.script side = .send body :: rest)
    (awaits : exchange.script side.other = call :: others)
    (empty : exchange.backlog side = []) (accepts : call.accepts body = true) :
    ∃ later, Reaches (Net.next capacity (moves chunkSize)) net later ∧ Settled { exchange with
      script := Function.update (Function.update exchange.script side rest) side.other others
      received := Function.update exchange.received side.other
        (exchange.received side.other ++ [body]) } later := by
  have receives := Call.results_of_accepts accepts
  have first : Net.Moved capacity (moves chunkSize) side net (begun net side rest (.send body)) :=
    begun_moved (clean.idle side) (by rw [clean.script, calls]) capacity
  have second : Net.Moved capacity (moves chunkSize) side.other (begun net side rest (.send body))
      (begun (begun net side rest (.send body)) side.other others call) :=
    begun_moved (by simpa [begun] using clean.idle side.other)
      (by simpa [begun, awaits] using clean.script side.other) capacity
  obtain ⟨early, halfway, -, -⟩ := (clean.balanced short).moved (talking_follows legal) first
  obtain ⟨out, balanced, -, -⟩ := halfway.moved (talking_follows legal) second
  have sender : ((begun (begun net side rest (.send body)) side.other others call).program
      side).During (.send body) rest (exchange.received side).length := by
    simpa [begun] using Endpoint.During.begin (clean.count side) rest (.send body)
  have receiver : ((begun (begun net side rest (.send body)) side.other others call).program
      side.other).During call others (exchange.received side.other).length := by
    simpa [begun] using Endpoint.During.begin (clean.count side.other) others call
  obtain ⟨final, left, path, halted, talks, mine, theirs⟩ := play_out balanced legal capacity side
    sender receiver (fun endpoint during => during.held) (fun endpoint during => during.held)
  have due : exchange.due side.other = exchange.received side.other ++ body :: sent rest := by
    rw [Exchange.due, Side.other_other, empty, calls]
    rfl
  have present : (exchange.due side.other)[(exchange.received side.other).length]? = some body := by
    rw [due, List.getElem?_append_right (Nat.le_refl _), Nat.sub_self]
    rfl
  have after : (exchange.due side.other).drop ((exchange.received side.other).length + 1) =
      sent rest :=
    (List.cons.inj ((drop_message present).symm.trans (by rw [due, List.drop_left]))).2
  have talk : (final.program side).Talks _ _ _ _ := talks side
  have theirTalk : (final.program side.other).Talks _ _ _ _ := talks side.other
  rw [Side.other_other] at theirTalk
  have myState := held_waits halted (legal side) talk
  have theirState := held_waits halted (legal side.other) theirTalk
  rw [Side.other_other] at theirState
  rcases theirState with ended | ⟨buf, aborted⟩ | ⟨data, later, chosen, -, -⟩ |
    ⟨amount, later, chosen, missing⟩
  · have position := theirs.position ended
    rw [receives] at position
    obtain ⟨theyWrote, theyWait, results⟩ := theirTalk.idle ended position
    rw [after] at theyWait
    rw [theirs.script] at theyWrote
    rcases myState with idle | ⟨buf, aborted⟩ | ⟨data, later, chosen, positive, -⟩ | ⟨amount, later, chosen, -⟩
    · obtain ⟨wrote, waits, unchanged⟩ := talk.idle idle (mine.position idle)
      rw [mine.script] at wrote
      rw [theyWrote, Exchange.due, awaits, Exchange.accepts_sent accepts, Call.results,
        Nat.add_zero, List.drop_left, stream_append] at waits
      rw [wrote] at theyWait
      have drained := List.append_left_eq_self.mp theyWait
      refine ⟨final, (((Reaches.refl _ _).step first.next_eq).step second.next_eq).trans path,
        Side.forall_of side ?_ ?_, Side.forall_of side idle ended,
        Side.forall_of side ?_ ?_, Side.forall_of side ?_ ?_⟩
      · simpa using mine.script
      · simpa using theirs.script
      · simpa [Exchange.due, Call.results] using unchanged
      · simpa [due, List.take_length_add_append] using results
      · simpa [empty] using drained
      · simpa using List.append_cancel_right waits
    · have phase := mine.phase
      simp only [aborted] at phase
      cases phase.1
    · obtain ⟨front, wrote, -⟩ := talk.write_front (legal side) mine chosen
      have lengths := congrArg List.length theyWait
      simp only [wrote, List.length_append] at lengths
      omega
    · exact absurd chosen (mine.sends _)
  · exact absurd aborted (theirTalk.not_aborted theirs present accepts buf)
  · exact absurd chosen (theirs.receives receives _)
  · obtain ⟨front, unread, theyWait, length, reads⟩ :=
      theirTalk.read_front (legal side.other) theirs present chosen
    rw [after] at theyWait
    rcases myState with idle | ⟨buf, aborted⟩ | ⟨data, later, chose, positive, full⟩ | ⟨count, later, chose, -⟩
    · obtain ⟨wrote, -, -⟩ := talk.idle idle (mine.position idle)
      rw [mine.script] at wrote
      rw [wrote] at theyWait
      have kept := congrArg List.length (List.append_cancel_right theyWait)
      omega
    · have phase := mine.phase
      simp only [aborted] at phase
      cases phase.1
    · obtain ⟨unsent, wrote, writes⟩ := talk.write_front (legal side) mine chose
      have lengths := congrArg List.length theyWait
      simp only [wrote, List.length_append] at lengths
      have balance : (final.queue side).length + (data.length + unsent.length) = amount + unread := by
        omega
      have goesOn := writes.progress reads balance low
        (carried.imp_right fun fits => ⟨fits side, fits side.other⟩) nested
      omega
    · exact absurd chose (mine.sends _)

/-- Every step between whole calls is a run of the two ends. -/
theorem Settled.dealt {after : Exchange} (clean : Settled exchange net) (short : exchange.Short)
    (legal : ∀ side, LegalSize (chunkSize side)) (low : 4 ≤ capacity)
    (fits : ∀ side, (chunkSize side).toNat ≤ capacity)
    (nested : ∀ side, (chunkSize side).toNat ∣ (chunkSize side.other).toNat ∨
      (chunkSize side.other).toNat ∣ (chunkSize side).toNat)
    (dealt : Exchange.Dealt capacity exchange deal after) :
    ∃ later, Reaches (Net.next capacity (moves chunkSize)) net later ∧ Settled after later := by
  cases dealt with
  | deposit side body rest calls room => exact clean.deposit short legal calls room
  | collect side call rest body more calls stored accepts =>
    exact clean.collect short legal calls stored accepts capacity
  | handOver side body rest others call calls awaits empty accepts =>
    exact clean.handOver short legal low (.inr fits) (nested side) calls awaits empty accepts

theorem Settled.reaches {after : Exchange} (clean : Settled exchange net) (short : exchange.Short)
    (legal : ∀ side, LegalSize (chunkSize side)) (low : 4 ≤ capacity)
    (fits : ∀ side, (chunkSize side).toNat ≤ capacity)
    (nested : ∀ side, (chunkSize side).toNat ∣ (chunkSize side.other).toNat ∨
      (chunkSize side.other).toNat ∣ (chunkSize side).toNat)
    (path : Reaches (Exchange.next capacity) exchange after) :
    ∃ later, Reaches (Net.next capacity (moves chunkSize)) net later ∧ Settled after later ∧
      ∀ side, after.due side = exchange.due side := by
  refine path.invariant (fun after => ∃ later, Reaches (Net.next capacity (moves chunkSize)) net later ∧
    Settled after later ∧ ∀ side, after.due side = exchange.due side)
    ⟨net, Reaches.refl _ _, clean, fun _ => rfl⟩ ?_
  rintro deal before after ⟨middle, reached, here, same⟩ moved
  have dealt := Exchange.next_dealt moved
  have still : before.Short := fun side => by
    rw [same]
    exact short side
  obtain ⟨later, further, there⟩ := here.dealt still legal low fits nested dealt
  exact ⟨later, reached.trans further, there, fun side => (dealt.due side).trans (same side)⟩

end

end GaiaNet.Mem
