import GaiaNet.Grpc.Frames
import GaiaNet.Lib.Replay

/-! What holds between the states of a link and the replay log it implements. -/

namespace GaiaNet.Grpc

open Lib Lib.Transition Lib.Hoare

/-- The replay log of packets the link implements. -/
abbrev PacketLog := Replay.State Packet

def App.stage : App → Stage
  | .calling _ _ stage => stage
  | _ => .attempt

/-- The packet whose `Write` returned true while its `real_send` has not returned. -/
def Stage.pushing : Stage → List Packet
  | .push packet => [packet]
  | _ => []

/-- What `set_continue_status` has still to write. -/
def Stage.remaining : Stage → List Packet
  | .resend rest => rest
  | _ => []

/-- Whether `m_client` is being replaced, so that no client holds the status. -/
def Stage.between : Stage → Bool
  | .create _ | .restore _ => true
  | _ => false

def Call.messages : Call → Nat
  | .send _ => 1
  | .flush => 0

/-- Whether a message is being sent and none of its `Write` calls has returned true. -/
def App.unsent : App → Nat
  | .calling call _ stage => call.messages - stage.pushing.length
  | _ => 0

/-- Where the message of a `real_send` is: in the caller's string or in a packet. -/
def Stage.Holds (call : Call) (content : Bytes) (count : Nat) : Stage → Prop
  | .write packet => call = .send packet.body ∧ packet.header.seq = count
  | .push packet => call = .send packet.body
  | _ => ∀ message, call = .send message → content = message

/-- What the ack thread and the server do depends on these. -/
def Link.wire (link : Link) : Bool × Option Int × Nat × List Handler :=
  (link.failed, link.heldAck, link.acksRead, link.handlers)

/-- What no step of the application thread inside a call changes. -/
def Link.outside (link : Link) : List Bytes × Nat × RpcClient × List Bytes × List Bytes :=
  (link.redis, link.popped, link.receiver, link.pending, link.delivered)

/-- The messages whose `real_send` has returned, and the one whose packet is written. -/
def Link.promised (link : Link) : List Bytes :=
  link.sent ++ link.app.stage.pushing.map Packet.body

def Numbered (items : List Packet) : Prop :=
  ∀ (i : Nat) (packet : Packet), items[i]? = some packet → packet.header.seq = i

theorem Numbered.snoc {packet : Packet} (numbered : Numbered items)
    (last : packet.header.seq = items.length) :
    Numbered (items ++ [packet]) := by
  intro i other found
  rcases Nat.lt_trichotomy i items.length with old | same | beyond
  · rw [List.getElem?_append_left old] at found
    exact numbered i other found
  · subst same
    simp only [List.getElem?_concat_length, Option.some.injEq] at found
    rw [← found]
    exact last
  · have absent : (items ++ [packet])[i]? = none := by
      rw [List.getElem?_eq_none_iff, List.length_append, List.length_singleton]
      exact beyond
    rw [absent] at found
    cases found

/-- A handler has received a stretch of the accepted packets. -/
structure Handles (items : List Packet) (handler : Handler) (span : Replay.Span) : Prop where
  received : handler.received <+: items.drop span.first
  appended : handler.appended = span.appended
  enough : handler.appended ≤ handler.received.length
  acked : handler.acked ≤ handler.appended

theorem Handles.grow (handles : Handles items handler span) (rest : List Packet) :
    Handles (items ++ rest) handler span := by
  refine ⟨?_, handles.appended, handles.enough, handles.acked⟩
  have longer : items.drop span.first <+: (items ++ rest).drop span.first := by
    rw [List.drop_append]
    exact List.prefix_append _ _
  exact handles.received.trans longer

/-- The handlers at the server are those of the streams of the log. -/
structure Serves (items : List Packet) (handlers : List Handler) (spans : List Replay.Span) :
    Prop where
  length : handlers.length = spans.length
  each : ∀ (k : Nat) handler span, handlers[k]? = some handler → spans[k]? = some span →
    Handles items handler span

theorem Serves.grow (serves : Serves items handlers spans) (rest : List Packet) :
    Serves (items ++ rest) handlers spans :=
  ⟨serves.length, fun k handler span held here => (serves.each k handler span held here).grow rest⟩

theorem Serves.openStream (serves : Serves items handlers spans) (first : Nat) :
    Serves items (Handler.opened :: handlers) (⟨first, 0⟩ :: spans) := by
  refine ⟨by simp [serves.length], ?_⟩
  intro k handler span held here
  cases k with
  | zero =>
    cases held
    cases here
    exact ⟨List.nil_prefix, rfl, Nat.le_refl 0, Nat.le_refl 0⟩
  | succ k => exact serves.each k handler span held here

theorem Serves.found {k : Nat} (serves : Serves items handlers spans)
    (found : handlers[k]? = some handler) :
    ∃ span, spans[k]? = some span ∧ Handles items handler span := by
  have inside : k < spans.length := by
    rw [← serves.length]
    exact (List.getElem?_eq_some_iff.mp found).1
  exact ⟨spans[k], List.getElem?_eq_getElem inside,
    serves.each k handler _ found (List.getElem?_eq_getElem inside)⟩

/-- One handler moves, with its span. -/
theorem Serves.set (serves : Serves items handlers spans) (k : Nat)
    (handles : Handles items handler span) :
    Serves items (handlers.set k handler) (spans.set k span) := by
  refine ⟨by simp [serves.length], ?_⟩
  intro j other place held here
  rw [List.getElem?_set] at held here
  by_cases same : k = j
  · subst same
    simp only [if_true] at held here
    split at held
    · cases held
      split at here
      · cases here
        exact handles
      · cases here
    · cases held
  · rw [if_neg same] at held here
    exact serves.each j other place held here

/-- One handler moves and its span stays. -/
theorem Serves.setHandler {k : Nat} (serves : Serves items handlers spans)
    (found : spans[k]? = some span) (handles : Handles items handler span) : Serves items (handlers.set k handler) spans := by
  have moved := serves.set k handles
  have inside := (List.getElem?_eq_some_iff.mp found).1
  have same : spans.set k span = spans := by
    rw [← (List.getElem?_eq_some_iff.mp found).2, List.set_getElem_self]
  rwa [same] at moved

/-- The Redis list is the log, spelled in frames. -/
structure Listed (log : PacketLog) (redis : List Bytes) : Prop where
  length : redis.length = log.log.length
  frames : ∀ (n i : Nat), log.log[n]? = some i → ∃ packet, log.items[i]? = some packet ∧
    redis[n]? = some (redisFrame (n = 0) packet)

/-- The receiver has read the first `popped` entries of the log. -/
structure Reads (log : PacketLog) (receiver : RpcClient) (popped : Nat) (delivered : List Bytes) :
    Prop where
  within : popped ≤ log.log.length
  expects : Expects receiver popped (Replay.wanted (log.log.take popped))
  contents : delivered = (log.taken popped).map Packet.body

theorem Listed.accept {log : PacketLog} (listed : Listed log redis) (packet : Packet) :
    Listed { log with items := log.items ++ [packet] } redis := by
  refine ⟨listed.length, fun n i found => ?_⟩
  obtain ⟨old, held, frame⟩ := listed.frames n i found
  have inside := (List.getElem?_eq_some_iff.mp held).1
  exact ⟨old, by rw [List.getElem?_append_left inside]; exact held, frame⟩

/-- The next frame of the list is that of the next entry of the log. -/
theorem Listed.append {log : PacketLog} {spans : List Replay.Span} {i : Nat}
    (listed : Listed log redis) (held : log.items[i]? = some packet) :
    Listed { log with spans := spans, log := log.log ++ [i] }
      (redis ++ [redisFrame (redis = []) packet]) := by
  have same := listed.length
  refine ⟨by simp [same], ?_⟩
  intro n j found
  rcases Nat.lt_trichotomy n log.log.length with old | last | beyond
  · rw [List.getElem?_append_left old] at found
    obtain ⟨other, there, frame⟩ := listed.frames n j found
    refine ⟨other, there, ?_⟩
    rwa [List.getElem?_append_left (by omega)]
  · subst last
    simp only [List.getElem?_concat_length, Option.some.injEq] at found
    subst found
    refine ⟨packet, held, ?_⟩
    simp [← same]
  · have absent : (log.log ++ [i])[n]? = none := by
      rw [List.getElem?_eq_none_iff, List.length_append, List.length_singleton]
      exact beyond
    rw [absent] at found
    cases found

theorem Reads.accept {log : PacketLog} (reads : Reads log receiver popped delivered)
    (sound : Replay.Sound log) (packet : Packet) :
    Reads { log with items := log.items ++ [packet] } receiver popped delivered := by
  have within : Replay.wanted (log.log.take popped) ≤ log.items.length :=
    Nat.le_trans (Replay.wanted_take log.log popped) sound.items
  refine ⟨reads.within, reads.expects, ?_⟩
  rw [reads.contents]
  unfold Replay.State.taken
  rw [List.take_append_of_le_length within]

theorem Reads.append {log : PacketLog} (reads : Reads log receiver popped delivered)
    (spans : List Replay.Span) (i : Nat) :
    Reads { log with spans := spans, log := log.log ++ [i] } receiver popped delivered := by
  have same : (log.log ++ [i]).take popped = log.log.take popped :=
    List.take_append_of_le_length reads.within
  refine ⟨?_, ?_, ?_⟩
  · have within := reads.within
    simp only [List.length_append]
    omega
  · simp only [same]
    exact reads.expects
  · rw [reads.contents]
    unfold Replay.State.taken
    simp only [same]

/-- The current stream: what is written on it, and the acks read from it. -/
structure Streams (link : Link) (log : PacketLog) (remaining : List Packet) (stream : Stream)
    (handler : Handler) (span : Replay.Span) : Prop where
  received : handler.received <+: stream.written
  written : stream.written <+: log.items.drop span.first
  whole : link.failed = false → stream.written ++ remaining = log.items.drop span.first
  read : log.acked + link.heldAck.toList.length = span.first + link.acksRead
  acked : link.acksRead ≤ handler.acked

/-- A connected client: its queue holds the packets that are not acknowledged, and its
stream started at the first of them. -/
structure Connected (link : Link) (log : PacketLog) (stage : Stage) (client : RpcClient) : Prop where
  version : client.useRpcVersion = ServiceVersion.v2.code
  seq : client.seq + stage.pushing.length = log.items.length
  queue : client.notackQueue ++ stage.pushing = log.items.drop log.acked
  streams : ∃ stream handler handlers span spans, client.rwSender = some stream ∧
    link.handlers = handler :: handlers ∧ log.spans = span :: spans ∧
    Streams link log stage.remaining stream handler span

/-- A client that has no stream and no ack thread. -/
def RpcClient.Closed (client : RpcClient) : Prop :=
  client.rwSender = none ∧ client.recvThread = false

/-- A client before its first `Send`. -/
structure Unconnected (log : PacketLog) (client : RpcClient) : Prop where
  version : client.useRpcVersion = ServiceVersion.notInited.code
  closed : client.Closed
  seq : client.seq = 0
  queue : client.notackQueue = []
  items : log.items = []
  acked : log.acked = 0

/-- A status that a client has given up and none has taken over. -/
structure Carries (log : PacketLog) (tup : ContinueStatus) : Prop where
  version : tup.useRpcVersion = ServiceVersion.v2.code
  seq : tup.seq = log.items.length
  queue : tup.notackQueue = log.items.drop log.acked

/-- The sending side: who holds the packets that are not acknowledged. -/
inductive Sending (link : Link) (log : PacketLog) : Prop where
  | connected (live : link.channel.client = .live client)
    (settled : link.app.stage.between = false) (holds : Connected link log link.app.stage client)
  | unconnected (early : link.app.stage = .attempt) (live : link.channel.client = .live client)
    (holds : Unconnected log client)
  | lost (early : link.app.stage = .attempt) (gone : link.channel.client = .null)
  | deleted (stage : link.app.stage = .create tup) (gone : link.channel.client = .null)
    (holds : Carries log tup)
  | created (stage : link.app.stage = .restore tup) (live : link.channel.client = .live client)
    (closed : client.Closed) (holds : Carries log tup)

/-- A link implements a replay log. `lossless` says that no message was dropped. -/
structure Implements (lossless : Prop) (link : Link) (log : PacketLog) : Prop where
  numbered : Numbered log.items
  bounded : log.items.length + link.app.unsent + link.pending.length < 2 ^ 31
  serves : Serves log.items link.handlers log.spans
  listed : Listed log link.redis
  reads : Reads log link.receiver link.popped link.delivered
  sending : Sending link log
  messages : ∀ call round stage, link.app = .calling call round stage →
    stage.Holds call link.content log.items.length
  kept : (log.items.map Packet.body).Sublist link.promised
  whole : lossless → log.items.map Packet.body = link.promised

theorem Streams.same (streams : Streams link log remaining stream handler span)
    (wire : after.wire = link.wire) (written : other.written = stream.written)
    (rest : link.failed = false → next = remaining) :
    Streams after log next other handler span := by
  simp only [Link.wire, Prod.mk.injEq] at wire
  obtain ⟨failed, heldAck, acksRead, -⟩ := wire
  refine ⟨?_, ?_, ?_, ?_, ?_⟩
  · rw [written]
    exact streams.received
  · rw [written]
    exact streams.written
  · rw [failed, written]
    intro working
    rw [rest working]
    exact streams.whole working
  · rw [heldAck, acksRead]
    exact streams.read
  · rw [acksRead]
    exact streams.acked

/-- A client with the same queue, numbers and stream, at a stage that holds as much back. -/
theorem Connected.same {after : Link} (connected : Connected link log stage client)
    (wire : after.wire = link.wire) (pushing : next.pushing = stage.pushing)
    (remaining : link.failed = false → next.remaining = stage.remaining)
    (version : new.useRpcVersion = client.useRpcVersion) (seq : new.seq = client.seq)
    (queue : new.notackQueue = client.notackQueue)
    (streams : ∀ stream, client.rwSender = some stream →
      ∃ other, new.rwSender = some other ∧ other.written = stream.written) :
    Connected after log next new := by
  have sameHandlers : after.handlers = link.handlers := by
    simp only [Link.wire, Prod.mk.injEq] at wire
    exact wire.2.2.2
  obtain ⟨stream, handler, handlers, span, spans, opened, held, here, streaming⟩ :=
    connected.streams
  obtain ⟨other, found, written⟩ := streams stream opened
  refine ⟨version.trans connected.version, ?_, ?_, other, handler, handlers, span, spans, found,
    sameHandlers.trans held, here, streaming.same wire written remaining⟩
  · rw [seq, pushing]
    exact connected.seq
  · rw [queue, pushing]
    exact connected.queue

/-- The same client at another stage that holds as much back. -/
theorem Connected.at {after : Link} (connected : Connected link log stage client)
    (wire : after.wire = link.wire) (pushing : next.pushing = stage.pushing)
    (remaining : link.failed = false → next.remaining = stage.remaining) :
    Connected after log next client :=
  connected.same wire pushing remaining rfl rfl rfl fun stream opened => ⟨stream, opened, rfl⟩

/-- Once a `Write` has failed it does not matter what is left to write. -/
theorem Connected.failed {after : Link} (connected : Connected link log stage client)
    (wire : after.wire = (true, link.heldAck, link.acksRead, link.handlers))
    (pushing : next.pushing = stage.pushing) : Connected after log next client := by
  simp only [Link.wire, Prod.mk.injEq] at wire
  obtain ⟨failed, heldAck, acksRead, sameHandlers⟩ := wire
  obtain ⟨stream, handler, handlers, span, spans, opened, held, here, streaming⟩ :=
    connected.streams
  refine ⟨connected.version, ?_, ?_, stream, handler, handlers, span, spans, opened,
    sameHandlers.trans held, here, streaming.received, streaming.written, ?_, ?_, ?_⟩
  · rw [pushing]
    exact connected.seq
  · rw [pushing]
    exact connected.queue
  · rw [failed]
    intro working
    cases working
  · rw [heldAck, acksRead]
    exact streaming.read
  · rw [acksRead]
    exact streaming.acked

end GaiaNet.Grpc
