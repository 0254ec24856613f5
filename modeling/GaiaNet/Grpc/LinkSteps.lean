import GaiaNet.Grpc.LinkState

/-! Every step of a link is a step of its replay log, or none. -/

namespace GaiaNet.Grpc

open Lib Lib.Transition

/-- After a step the link implements the same log, or the log after one step. -/
def Follows (lossless : Prop) (log : PacketLog) (after : Link) : Prop :=
  ∃ next, (next = log ∨ Step Replay.next log next) ∧ Implements lossless after next

theorem Implements.follows (implements : Implements lossless after log) :
    Follows lossless log after :=
  ⟨log, Or.inl rfl, implements⟩

/-- Only a client with a stream can be reached by the server or its ack thread. -/
theorem Sending.open (sending : Sending link log) (live : link.channel.client = .live client)
    (used : ¬ client.Closed) :
    link.app.stage.between = false ∧ Connected link log link.app.stage client := by
  cases sending with
  | @connected other there settled holds =>
    rw [live] at there
    cases there
    exact ⟨settled, holds⟩
  | @unconnected other early there holds =>
    rw [live] at there
    cases there
    exact absurd holds.closed used
  | lost early gone =>
    rw [live] at gone
    cases gone
  | deleted stage gone holds =>
    rw [live] at gone
    cases gone
  | created stage there closed holds =>
    rw [live] at there
    cases there
    exact absurd closed used

theorem Sending.same (sending : Sending link log) (stage : after.app.stage = link.app.stage)
    (client : after.channel.client = link.channel.client) (wire : after.wire = link.wire) :
    Sending after log := by
  cases sending with
  | connected live settled holds =>
    refine .connected (client.trans live) (by rw [stage]; exact settled) ?_
    rw [stage]
    exact holds.at wire rfl fun _ => rfl
  | unconnected early live holds => exact .unconnected (stage.trans early) (client.trans live) holds
  | lost early gone => exact .lost (stage.trans early) (client.trans gone)
  | deleted between gone holds => exact .deleted (stage.trans between) (client.trans gone) holds
  | created between live closed holds =>
    exact .created (stage.trans between) (client.trans live) closed holds

/-- A step that keeps the accepted packets, the list and what is promised. -/
theorem Implements.moved {next : PacketLog} (implements : Implements lossless link log)
    (items : next.items = log.items) (entries : next.log = log.log)
    (outside : after.outside = link.outside) (promised : after.promised = link.promised)
    (unsent : after.app.unsent ≤ link.app.unsent)
    (serves : Serves log.items after.handlers next.spans)
    (messages : ∀ call round stage, after.app = .calling call round stage →
      stage.Holds call after.content log.items.length)
    (sending : Sending after next) : Implements lossless after next := by
  simp only [Link.outside, Prod.mk.injEq] at outside
  obtain ⟨redis, popped, receiver, pending, delivered⟩ := outside
  have bounded := implements.bounded
  refine ⟨?_, ?_, ?_, ⟨?_, ?_⟩, ⟨?_, ?_, ?_⟩, sending, ?_, ?_, ?_⟩
  · rw [items]
    exact implements.numbered
  · rw [items, pending]
    omega
  · rw [items]
    exact serves
  · rw [redis, entries]
    exact implements.listed.length
  · rw [redis, entries, items]
    exact implements.listed.frames
  · rw [popped, entries]
    exact implements.reads.within
  · rw [receiver, popped, entries]
    exact implements.reads.expects
  · rw [delivered, popped]
    unfold Replay.State.taken
    rw [items, entries]
    exact implements.reads.contents
  · rw [items]
    exact messages
  · rw [items, promised]
    exact implements.kept
  · rw [items, promised]
    exact implements.whole

/-- A step that leaves the application and its client alone. -/
theorem Implements.around (implements : Implements lossless link log)
    (app : after.app = link.app) (content : after.content = link.content)
    (outside : after.outside = link.outside) (sent : after.sent = link.sent)
    (handlers : after.handlers = link.handlers) (sending : Sending after log) :
    Implements lossless after log := by
  refine implements.moved rfl rfl outside ?_ (Nat.le_of_eq (by rw [app]))
    (by rw [handlers]; exact implements.serves) ?_ sending
  · unfold Link.promised
    rw [app, sent]
  · rw [app, content]
    exact implements.messages

/-- The handlers move while the log stays. -/
theorem Implements.serving (implements : Implements lossless link log)
    (serves : Serves log.items handlers log.spans)
    (sending : Sending { link with handlers := handlers } log) :
    Implements lossless { link with handlers := handlers } log :=
  implements.moved rfl rfl rfl rfl (Nat.le_refl _) serves implements.messages sending

/-- The current stream keeps what has arrived and loses no ack. -/
theorem Sending.handlers {others : List Handler} (sending : Sending link log)
    (allowed : ∀ handler rest, link.handlers = handler :: rest → ∃ other tail,
      others = other :: tail ∧ other.received = handler.received ∧ handler.acked ≤ other.acked) :
    Sending { link with handlers := others } log := by
  cases sending with
  | connected live settled holds =>
    obtain ⟨stream, handler, rest, span, spans, opened, held, here, streaming⟩ := holds.streams
    obtain ⟨other, tail, same, received, acked⟩ := allowed handler rest held
    refine .connected live settled ⟨holds.version, holds.seq, holds.queue, stream, other, tail,
      span, spans, opened, same, here, ?_⟩
    exact ⟨by rw [received]; exact streaming.received, streaming.written, streaming.whole,
      streaming.read, Nat.le_trans streaming.acked acked⟩
  | unconnected early live holds => exact .unconnected early live holds
  | lost early gone => exact .lost early gone
  | deleted stage gone holds => exact .deleted stage gone holds
  | created stage live closed holds => exact .created stage live closed holds

theorem receive_follows (implements : Implements lossless link log)
    (moved : link.receive = some after) : Follows lossless log after := by
  unfold Link.receive at moved
  cases live : link.channel.client with
  | null | dangling => simp [live] at moved
  | live client =>
    cases held : link.handlers with
    | nil => simp [live, held] at moved
    | cons handler rest =>
      cases opened : client.rwSender with
      | none => simp [live, held, opened] at moved
      | some stream =>
        simp only [live, held, opened, Option.map_eq_some_iff] at moved
        obtain ⟨packet, arrived, rfl⟩ := moved
        have used : ¬ client.Closed := by
          intro closed
          rw [closed.1] at opened
          cases opened
        obtain ⟨settled, connected⟩ := implements.sending.open live used
        obtain ⟨current, other, others, span, spans, there, same, here, streaming⟩ :=
          connected.streams
        rw [opened] at there
        cases there
        rw [held] at same
        cases same
        have longer : handler.received ++ [packet] <+: stream.written := by
          obtain ⟨tail, whole⟩ := streaming.received
          rw [← whole, List.getElem?_append_right (Nat.le_refl _), Nat.sub_self] at arrived
          cases tail with
          | nil => cases arrived
          | cons first tail =>
            cases arrived
            exact ⟨tail, by simp [← whole]⟩
        have old := implements.serves.each 0 handler span (by simp [held]) (by simp [here])
        have handles : Handles log.items { handler with received := handler.received ++ [packet] }
            span :=
          ⟨longer.trans streaming.written, old.appended, by
            have enough := old.enough
            simp only [List.length_append]
            omega, old.acked⟩
        have serves := implements.serves.setHandler (k := 0) (by simp [here]) handles
        rw [held, List.set_cons_zero] at serves
        refine (implements.serving serves ?_).follows
        exact .connected live settled ⟨connected.version, connected.seq, connected.queue, stream, _,
          rest, span, spans, opened, rfl, here, longer, streaming.written, streaming.whole,
          streaming.read, streaming.acked⟩

/-- Setting one handler is allowed when it keeps what has arrived and loses no ack. -/
theorem Sending.setHandler {handler : Handler} {k : Nat} (other : Handler)
    (sending : Sending link log) (found : link.handlers[k]? = some handler) (received : other.received = handler.received)
    (acked : handler.acked ≤ other.acked) :
    Sending { link with handlers := link.handlers.set k other } log := by
  refine sending.handlers fun first rest held => ?_
  rw [held] at found ⊢
  cases k with
  | zero =>
    cases found
    exact ⟨other, rest, rfl, received, acked⟩
  | succ k => exact ⟨first, rest.set k other, rfl, rfl, Nat.le_refl _⟩

theorem acknowledge_follows (implements : Implements lossless link log)
    (moved : link.acknowledge k = some after) : Follows lossless log after := by
  unfold Link.acknowledge at moved
  cases found : link.handlers[k]? with
  | none => simp [found] at moved
  | some handler =>
    simp only [found] at moved
    split at moved
    · rename_i early
      cases moved
      obtain ⟨span, here, old⟩ := implements.serves.found found
      have handles : Handles log.items { handler with acked := handler.acked + 1 } span :=
        ⟨old.received, old.appended, old.enough, early⟩
      refine (implements.serving (implements.serves.setHandler here handles) ?_).follows
      exact implements.sending.setHandler _ found rfl (Nat.le_succ _)
    · cases moved

/-- A longer log and list do not matter to the sending side. -/
theorem Sending.entry {span : Replay.Span} {k : Nat} (place : Replay.Span) (sending : Sending link log)
    (here : log.spans[k]? = some span) (first : place.first = span.first) (redis : List Bytes)
    (entries : List Nat) :
    Sending { link with redis := redis }
      { log with spans := log.spans.set k place, log := entries } := by
  cases sending with
  | connected live settled holds =>
    obtain ⟨stream, handler, rest, other, spans, opened, held, there, streaming⟩ := holds.streams
    obtain ⟨moved, others, same, start⟩ : ∃ moved others, log.spans.set k place = moved :: others ∧
        moved.first = other.first := by
      rw [there] at here ⊢
      cases k with
      | zero =>
        cases here
        exact ⟨place, spans, rfl, first⟩
      | succ k => exact ⟨other, spans.set k place, rfl, rfl⟩
    refine .connected live settled ⟨holds.version, holds.seq, holds.queue, stream, handler, rest,
      moved, others, opened, held, same, streaming.received, ?_, ?_, ?_, streaming.acked⟩
    · rw [start]
      exact streaming.written
    · rw [start]
      exact streaming.whole
    · rw [start]
      exact streaming.read
  | unconnected early live holds =>
    exact .unconnected early live ⟨holds.version, holds.closed, holds.seq, holds.queue, holds.items,
      holds.acked⟩
  | lost early gone => exact .lost early gone
  | deleted stage gone holds => exact .deleted stage gone ⟨holds.version, holds.seq, holds.queue⟩
  | created stage live closed holds =>
    exact .created stage live closed ⟨holds.version, holds.seq, holds.queue⟩

theorem append_follows (implements : Implements lossless link log)
    (moved : link.append k = some after) : Follows lossless log after := by
  unfold Link.append at moved
  cases found : link.handlers[k]? with
  | none => simp [found] at moved
  | some handler =>
    simp only [found] at moved
    split at moved
    · rename_i ready
      rw [Option.map_eq_some_iff] at moved
      obtain ⟨packet, next, rfl⟩ := moved
      obtain ⟨span, here, old⟩ := implements.serves.found found
      -- the packet is the item the log appends
      have item : log.items[span.first + span.appended]? = some packet := by
        obtain ⟨tail, whole⟩ := old.received
        have inside := (List.getElem?_eq_some_iff.mp next).1
        rw [← old.appended, ← List.getElem?_drop, ← whole, List.getElem?_append_left inside]
        exact next
      have within := (List.getElem?_eq_some_iff.mp item).1
      have step : Replay.next (.append k) log = some { log with
          spans := log.spans.set k { span with appended := span.appended + 1 }
          log := log.log ++ [span.first + span.appended] } := by
        simp only [Replay.next, here, if_pos within]
      have handles : Handles log.items { handler with appended := handler.appended + 1 }
          { span with appended := span.appended + 1 } :=
        ⟨old.received, by rw [old.appended], (List.getElem?_eq_some_iff.mp next).1,
          by rw [ready]; exact Nat.le_succ _⟩
      have working := implements.sending.setHandler
        { handler with appended := handler.appended + 1 } found rfl (Nat.le_refl _)
      have sending := working.entry { span with appended := span.appended + 1 } here rfl
        (link.redis ++ [redisFrame (link.redis = []) packet]) (log.log ++ [span.first + span.appended])
      exact ⟨_, Or.inr ⟨_, step⟩, implements.numbered, implements.bounded,
        implements.serves.set k handles, implements.listed.append item, implements.reads.append _ _,
        sending, implements.messages, implements.kept, implements.whole⟩
    · cases moved

/-- The receiver moves alone. -/
theorem Implements.reading {receiver : RpcClient} {popped : Nat} {delivered : List Bytes}
    (implements : Implements lossless link log) (reads : Reads log receiver popped delivered) :
    Implements lossless
      { link with receiver := receiver, popped := popped, delivered := delivered } log :=
  ⟨implements.numbered, implements.bounded, implements.serves, implements.listed, reads,
    implements.sending.same rfl rfl rfl, implements.messages, implements.kept, implements.whole⟩

theorem pop_follows (implements : Implements lossless link log) (sound : Replay.Sound log)
    (moved : link.pop = some after) : Follows lossless log after := by
  unfold Link.pop at moved
  rw [Option.map_eq_some_iff] at moved
  obtain ⟨frame, next, rfl⟩ := moved
  have inside : link.popped < log.log.length := by
    rw [← implements.listed.length]
    exact (List.getElem?_eq_some_iff.mp next).1
  have entry := List.getElem?_eq_getElem inside
  obtain ⟨packet, item, spelled⟩ := implements.listed.frames _ _ entry
  rw [next] at spelled
  cases spelled
  have numbered := implements.numbered _ _ item
  have reached := sound.climbs _ _ entry
  have wantedSmall : Replay.wanted (log.log.take link.popped) < 2 ^ 31 := by
    have read := Replay.wanted_take log.log link.popped
    have bounded := implements.bounded
    have items := sound.items
    omega
  obtain ⟨client, result, expects⟩ :=
    receiveFrame_packet [] implements.reads.expects numbered reached wantedSmall
  have longer : log.log.take (link.popped + 1) =
      log.log.take link.popped ++ [log.log[link.popped]] := by
    rw [List.take_add_one, entry]
    rfl
  have contents := implements.reads.contents
  simp only [result]
  apply Implements.follows
  by_cases same : log.log[link.popped] = Replay.wanted (log.log.take link.popped)
  · rw [if_pos same] at expects ⊢
    have more : log.taken (link.popped + 1) = log.taken link.popped ++ [packet] := by
      unfold Replay.State.taken
      rw [longer, Replay.wanted_snoc, if_pos same, List.take_add_one, ← same, item]
      rfl
    refine implements.reading ⟨inside, ?_, ?_⟩
    · rw [longer, Replay.wanted_snoc, if_pos same]
      exact expects
    · rw [more, contents]
      simp
  · rw [if_neg same] at expects ⊢
    have none : log.taken (link.popped + 1) = log.taken link.popped := by
      unfold Replay.State.taken
      rw [longer, Replay.wanted_snoc, if_neg same]
    refine implements.reading ⟨inside, ?_, ?_⟩
    · rw [longer, Replay.wanted_snoc, if_neg same]
      exact expects
    · rw [none]
      exact contents

/-- The ack thread sets its status. -/
theorem Implements.setStatus (implements : Implements lossless link log)
    (live : link.channel.client = .live client) (thread : client.recvThread = true)
    (status : RecvThreadStatus) :
    Implements lossless (link.setClient { client with recvThreadStatus := status }) log := by
  have used : ¬ client.Closed := by simp [RpcClient.Closed, thread]
  obtain ⟨settled, connected⟩ := implements.sending.open live used
  exact implements.around rfl rfl rfl rfl rfl (.connected rfl settled
    (connected.same rfl rfl (fun _ => rfl) rfl rfl rfl fun stream opened => ⟨stream, opened, rfl⟩))

theorem readAck_follows (implements : Implements lossless link log)
    (live : link.channel.client = .live client) (thread : client.recvThread = true)
    (free : link.heldAck = none) (moved : link.readAck = some after) :
    Follows lossless log after := by
  have used : ¬ client.Closed := by simp [RpcClient.Closed, thread]
  obtain ⟨settled, connected⟩ := implements.sending.open live used
  obtain ⟨stream, handler, rest, span, spans, opened, held, here, streaming⟩ := connected.streams
  unfold Link.readAck at moved
  split at moved
  · cases moved
  · rename_i first others same
    rw [held] at same
    cases same
    split at moved
    · rename_i early
      rw [Option.map_eq_some_iff] at moved
      obtain ⟨packet, -, rfl⟩ := moved
      have read := streaming.read
      rw [free] at read
      have sending : Sending { link with
          heldAck := some packet.header.seq, acksRead := link.acksRead + 1 } log := by
        refine .connected live settled ⟨connected.version, connected.seq, connected.queue, stream,
          handler, rest, span, spans, opened, held, here, streaming.received, streaming.written,
          streaming.whole, ?_, early⟩
        simp only [Option.toList_some, List.length_singleton, Option.toList_none, List.length_nil]
          at read ⊢
        omega
      apply Implements.follows
      exact implements.around rfl rfl rfl rfl rfl sending
    · cases moved

/-- The ack thread pops the front: the log acknowledges an item. -/
theorem popAck_follows (implements : Implements lossless link log)
    (live : link.channel.client = .live client) (thread : client.recvThread = true)
    (held : link.heldAck = some seq) (full : client.notackQueue ≠ []) :
    Follows lossless log { link.setClient { client with notackQueue := client.notackQueue.tail }
      with heldAck := none } := by
  have used : ¬ client.Closed := by simp [RpcClient.Closed, thread]
  obtain ⟨settled, connected⟩ := implements.sending.open live used
  obtain ⟨stream, handler, rest, span, spans, opened, here, there, streaming⟩ := connected.streams
  have read := streaming.read
  rw [held] at read
  simp only [Option.toList_some, List.length_singleton] at read
  have handles := implements.serves.each 0 handler span (by simp [here]) (by simp [there])
  have early : log.acked < span.first + span.appended := by
    have acked := streaming.acked
    have appended := handles.acked
    rw [handles.appended] at appended
    omega
  have step : Replay.next .acknowledge log = some { log with acked := log.acked + 1 } := by
    simp only [Replay.next, there, if_pos early]
  have queue : client.notackQueue.tail ++ link.app.stage.pushing = log.items.drop (log.acked + 1) := by
    have before := connected.queue
    cases same : client.notackQueue with
    | nil => exact absurd same full
    | cons front others =>
      rw [same] at before
      rw [← List.drop_drop, ← before]
      rfl
  refine ⟨_, Or.inr ⟨_, step⟩, ?_⟩
  refine implements.moved rfl rfl rfl rfl (Nat.le_refl _) implements.serves implements.messages ?_
  refine .connected rfl settled ⟨connected.version, connected.seq, queue, stream, handler, rest,
    span, spans, opened, here, there, streaming.received, streaming.written, streaming.whole, ?_,
    streaming.acked⟩
  show log.acked + 1 + 0 = span.first + link.acksRead
  omega

theorem ackStep_follows (implements : Implements lossless link log)
    (moved : link.ackStep step = some after) : Follows lossless log after := by
  unfold Link.ackStep at moved
  cases live : link.channel.client with
  | null | dangling => simp [live] at moved
  | live client =>
    simp only [live] at moved
    split at moved
    · rename_i thread
      unfold Link.ackClientStep at moved
      cases step with
      | start =>
        simp only at moved
        split at moved
        · cases moved
          exact (implements.setStatus live thread _).follows
        · cases moved
      | read =>
        simp only at moved
        split at moved
        · rename_i ready
          exact readAck_follows implements live thread ready.2 moved
        · cases moved
      | pop =>
        simp only at moved
        split at moved
        · rename_i ready
          obtain ⟨some, full, -⟩ := ready
          cases moved
          obtain ⟨seq, held⟩ := Option.ne_none_iff_exists'.mp some
          exact popAck_follows implements live thread held full
        · cases moved
      | stop =>
        simp only at moved
        split at moved
        · cases moved
          exact (implements.setStatus live thread _).follows
        · cases moved
    · cases moved

end GaiaNet.Grpc
