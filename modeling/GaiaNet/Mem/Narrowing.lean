import GaiaNet.Mem.Transfer

/-! What becomes of a message of any length: `send` narrows it to the 32 bits of the frame
header, and `recv` returns what the header says. -/

namespace GaiaNet.Mem

open Lib Lib.Chunks Lib.Transition

/-- What the length of a message is narrowed to. -/
def narrowed (body : Bytes) : Nat := body.length % 2 ^ 32

theorem narrowed_lt (body : Bytes) : narrowed body < 2 ^ 32 :=
  Nat.mod_lt _ (by decide)

theorem narrowed_le (body : Bytes) : narrowed body ≤ body.length :=
  Nat.mod_le _ _

theorem ofNat_length (body : Bytes) : UInt32.ofNat body.length = UInt32.ofNat (narrowed body) := by
  apply UInt32.toNat_inj.mp
  rw [UInt32.toNat_ofNat', UInt32.toNat_ofNat', narrowed, Nat.mod_mod]

theorem toNat_ofNat_length (body : Bytes) : (UInt32.ofNat body.length).toNat = narrowed body := by
  rw [UInt32.toNat_ofNat', narrowed]

/-- A write and the read of the same length, through an empty ring. -/
theorem Session.exchange {session : Session} {receiver : Bytes → Consumer}
    (queue : Represents session.view consumed []) (sized : session.view.bufSize = bufSize)
    (writes : session.producer.action bufSize = some (.write buf len sender))
    (reads : session.consumer.action bufSize = some (.read len receiver))
    (enough : len.toNat ≤ buf.length) (small : len ≤ bufSize) :
    ∃ view, Represents view (consumed + len.toNat) [] ∧ view.bufSize = bufSize ∧
      Reaches (Session.next bufSize) session
        { view := view, producer := sender, consumer := receiver (buf.take len.toNat) } := by
  have fits : len.toNat ≤ session.view.bufSize.toNat := by
    rw [sized]
    exact UInt32.le_iff_toNat_le.mp small
  have room : session.view.canPut len = true := by
    rw [queue.canPut_iff (by rw [sized]; exact small), List.length_nil]
    omega
  have stored := queue.put buf (by rw [List.length_nil]; omega) enough
  rw [List.nil_append] at stored
  have length : (buf.take len.toNat).length = len.toNat := by
    rw [List.length_take]
    omega
  have ready : (session.view.put buf len).canGet len = true :=
    stored.canGet_iff.mpr (Nat.le_of_eq length.symm)
  obtain ⟨bytes, taken⟩ := stored.get (Nat.le_of_eq length.symm)
  rw [List.drop_eq_nil_of_le (Nat.le_of_eq length)] at taken
  rw [List.take_of_length_le (Nat.le_of_eq length)] at bytes
  exact ⟨_, taken, sized, Reaches.ofRun [.producer, .consumer]
    (by simp [run, Session.next, writes, reads, Action.perform, room, ready, bytes])⟩

/-- Both ends between two calls, with nothing in the ring. -/
structure Session.Meeting (bufSize : UInt32) (todo strings : List Bytes)
    (got : List RawString) (session : Session) : Prop where
  queue : ∃ consumed, Represents session.view consumed []
  sized : session.view.bufSize = bufSize
  sends : session.producer.pc = .idle ∧ session.producer.todo = todo
  receives : session.consumer.pc = .idle ∧ session.consumer.todo = strings
  returned : session.consumer.returned = got

/-- Both ends in the chunk loops of one message, with nothing in the ring. -/
structure Session.Paired (bufSize : UInt32) (todo strings : List Bytes) (got : List RawString)
    (body : Bytes) (str : RawString) (sending receiving : ChunkLoop) (session : Session) :
    Prop where
  queue : ∃ consumed, Represents session.view consumed []
  sized : session.view.bufSize = bufSize
  sends : session.producer.pc = .chunks body sending ∧ session.producer.todo = todo
  receives : session.consumer.pc = .chunks str receiving ∧ session.consumer.todo = strings
  returned : session.consumer.returned = got

theorem Session.Meeting.frame {session : Session} (legal : LegalSize bufSize)
    (meeting : session.Meeting bufSize (body :: todo) (str :: strings) got) :
    ∃ after : Session, Reaches (Session.next bufSize) session after ∧
      after.Paired bufSize todo strings got body (fastResize (str.map some) (narrowed body))
        (ChunkLoop.start (UInt32.ofNat body.length) bufSize)
        (ChunkLoop.start (UInt32.ofNat body.length) bufSize) := by
  obtain ⟨⟨consumed, queue⟩, sized, ⟨idle, messages⟩, ⟨waits, calls⟩, returned⟩ := meeting
  have four : (4 : UInt32).toNat = 4 := rfl
  have low := legal.low
  have decoded : LittleEndian.decode (LittleEndian.encode 4 (narrowed body)) = narrowed body := by
    rw [LittleEndian.decode_encode]
    exact Nat.mod_eq_of_lt (narrowed_lt body)
  have writes : session.producer.action bufSize = some (.write
      (LittleEndian.encode 4 (narrowed body)) 4 { session.producer with
        todo := todo
        pc := .chunks body (ChunkLoop.start (UInt32.ofNat body.length) bufSize) }) := by
    simp only [Producer.action, idle, messages, toNat_ofNat_length]
  have reads : session.consumer.action bufSize = some (.read 4 fun bytes =>
      { session.consumer with
        todo := strings
        pc := .chunks (fastResize (str.map some) (UInt32.ofNat (LittleEndian.decode bytes)).toNat)
          (ChunkLoop.start (UInt32.ofNat (fastResize (str.map some)
            (UInt32.ofNat (LittleEndian.decode bytes)).toNat).length) bufSize) }) := by
    simp only [Consumer.action, waits, calls]
  obtain ⟨view, empty, same, path⟩ := Session.exchange queue sized writes reads
    (Nat.le_of_eq (four.trans (LittleEndian.length_encode _ _).symm))
    (UInt32.le_iff_toNat_le.mpr (by omega))
  refine ⟨_, path, ⟨_, empty⟩, same, ⟨rfl, rfl⟩, ⟨?_, rfl⟩, returned⟩
  have whole : (LittleEndian.encode 4 (narrowed body)).take (4 : UInt32).toNat =
      LittleEndian.encode 4 (narrowed body) :=
    List.take_of_length_le (Nat.le_of_eq ((LittleEndian.length_encode _ _).trans four.symm))
  simp only [whole, decoded, ← ofNat_length, toNat_ofNat_length, length_fastResize]

/-- One chunk from end to end; `str` is the string before and `later` after it. -/
theorem Session.Paired.chunk {session : Session} (legal : LegalSize bufSize)
    (paired : session.Paired bufSize todo strings got body str sending receiving)
    (sender : sending.At bufSize.toNat (narrowed body) index)
    (receiver : receiving.At bufSize.toNat (narrowed body) index)
    (length : str.length = narrowed body)
    (more : index * bufSize.toNat < narrowed body) (signed : index * bufSize.toNat < 2 ^ 31) :
    ∃ after : Session, Reaches (Session.next bufSize) session after ∧
      after.Paired bufSize todo strings got body
        (overwrite str (index * bufSize.toNat)
          (Chunks.chunk bufSize.toNat (body.take (narrowed body)) index))
        sending.next receiving.next := by
  obtain ⟨⟨consumed, queue⟩, sized, ⟨sends, messages⟩, ⟨waits, calls⟩, returned⟩ := paired
  have low := legal.low
  have short := narrowed_le body
  have len := sender.len
  have same : receiving.len = sending.len := UInt32.toNat_inj.mp (receiver.len.trans len.symm)
  have pos (loop : ChunkLoop) (at_ : loop.At bufSize.toNat (narrowed body) index) :
      loop.pos.toInt.toNat = index * bufSize.toNat := by
    rw [at_.offset more signed]
    omega
  have guard (loop : ChunkLoop) (at_ : loop.At bufSize.toNat (narrowed body) index) :
      loop.i < loop.chunkCnt := by
    rw [at_.i, at_.chunkCnt]
    exact (lt_chunkCount _ _ (by omega)).mpr more
  have writes : session.producer.action bufSize = some (.write
      (body.drop (index * bufSize.toNat)) sending.len
      { session.producer with pc := .chunks body sending.next }) := by
    simp only [Producer.action, sends, guard sending sender, ↓reduceIte,
      sender.inside more signed short, pos sending sender]
  have reads : session.consumer.action bufSize = some (.read sending.len fun bytes =>
      { session.consumer with
        pc := .chunks (overwrite str (index * bufSize.toNat) bytes) receiving.next }) := by
    simp only [Consumer.action, waits, guard receiving receiver, ↓reduceIte, length,
      receiver.inside more signed (Nat.le_refl _), pos receiving receiver, same]
  have piece : (body.drop (index * bufSize.toNat)).take sending.len.toNat =
      Chunks.chunk bufSize.toNat (body.take (narrowed body)) index := by
    rw [Chunks.chunk, List.drop_take, List.take_take, len]
  obtain ⟨view, empty, kept, path⟩ := Session.exchange queue sized writes reads
    (by rw [List.length_drop]; omega) (UInt32.le_iff_toNat_le.mpr (by omega))
  rw [piece] at path
  exact ⟨_, path, ⟨_, empty⟩, kept, ⟨rfl, messages⟩, ⟨rfl, calls⟩, returned⟩

/-- The chunks from `index` on, as long as the position has not wrapped. -/
theorem Session.Paired.chunks {session : Session} (legal : LegalSize bufSize)
    (paired : session.Paired bufSize todo strings got body str sending receiving)
    (sender : sending.At bufSize.toNat (narrowed body) index)
    (receiver : receiving.At bufSize.toNat (narrowed body) index)
    (length : str.length = narrowed body)
    (front : str.take (index * bufSize.toNat) =
      ((body.take (narrowed body)).take (index * bufSize.toNat)).map some)
    (more : ∀ later, later < count →
      (index + later) * bufSize.toNat < narrowed body ∧ (index + later) * bufSize.toNat < 2 ^ 31) :
    ∃ (after : Session) (filled : RawString) (ahead behind : ChunkLoop),
      Reaches (Session.next bufSize) session after ∧
      after.Paired bufSize todo strings got body filled ahead behind ∧
      ahead.At bufSize.toNat (narrowed body) (index + count) ∧
      behind.At bufSize.toNat (narrowed body) (index + count) ∧
      filled.length = narrowed body ∧
      filled.take ((index + count) * bufSize.toNat) =
        ((body.take (narrowed body)).take ((index + count) * bufSize.toNat)).map some := by
  induction count generalizing session index str sending receiving with
  | zero => exact ⟨session, str, sending, receiving, Reaches.refl _ _, paired, sender, receiver, length, front⟩
  | succ count ih =>
    have whole : (body.take (narrowed body)).length = narrowed body := by
      rw [List.length_take]
      exact Nat.min_eq_left (narrowed_le body)
    obtain ⟨room, signed⟩ := more 0 (by omega)
    rw [Nat.add_zero] at room signed
    obtain ⟨middle, path, next⟩ := paired.chunk legal sender receiver length room signed
    obtain ⟨kept, extended⟩ := overwrite_chunk (length.trans whole.symm) front (by rw [whole]; exact room)
    rw [whole] at kept
    obtain ⟨after, filled, ahead, behind, rest, done⟩ := ih next sender.next receiver.next kept extended
      fun later inside => by
        have step := more (later + 1) (by omega)
        rwa [show index + (later + 1) = index + 1 + later by omega] at step
    refine ⟨after, filled, ahead, behind, path.trans rest, ?_⟩
    rwa [show index + 1 + count = index + (count + 1) by omega] at done

/-- Where the loop has no chunk left the call returns. -/
theorem Session.Paired.finish {session : Session}
    (paired : session.Paired bufSize todo strings got body str sending receiving)
    (sent : ¬ sending.i < sending.chunkCnt) (received : ¬ receiving.i < receiving.chunkCnt) :
    ∃ after : Session, Reaches (Session.next bufSize) session after ∧
      after.Meeting bufSize todo strings (got ++ [str]) := by
  obtain ⟨queue, sized, ⟨sends, messages⟩, ⟨waits, calls⟩, returned⟩ := paired
  refine ⟨{ session with
    producer := { session.producer with
      pc := .idle
      stats := session.producer.stats.statisticsSend (UInt64.ofNat body.length) }
    consumer := { session.consumer with
      pc := .idle
      returned := session.consumer.returned ++ [str]
      stats := session.consumer.stats.statisticsRecv (UInt64.ofNat str.length) } },
    Reaches.ofRun [.producer, .consumer] ?_,
    queue, sized, ⟨rfl, messages⟩, ⟨rfl, calls⟩, by rw [returned]⟩
  simp [run, Session.next, Producer.action, Consumer.action, Action.perform, sends, waits, sent,
    received]

/-- A message of at most `2 ^ 31` bytes after narrowing arrives as what is left of it. -/
theorem Session.Meeting.message {session : Session} (legal : LegalSize bufSize)
    (meeting : session.Meeting bufSize (body :: todo) (str :: strings) got)
    (signed : narrowed body ≤ 2 ^ 31) :
    ∃ after : Session, Reaches (Session.next bufSize) session after ∧
      after.Meeting bufSize todo strings (got ++ [(body.take (narrowed body)).map some]) := by
  have low := legal.low
  have high := legal.high
  have positive : 0 < bufSize.toNat := by omega
  obtain ⟨middle, path, paired⟩ := meeting.frame legal
  rw [ofNat_length] at paired
  have first := ChunkLoop.At.start legal (show narrowed body + bufSize.toNat ≤ 2 ^ 32 by omega)
  have chunks (later : Nat) (inside : later < chunkCount bufSize.toNat (narrowed body)) :
      (0 + later) * bufSize.toNat < narrowed body ∧ (0 + later) * bufSize.toNat < 2 ^ 31 := by
    have room := (lt_chunkCount _ _ positive).mp inside
    rw [Nat.zero_add]
    omega
  obtain ⟨last, filled, ahead, behind, rest, paired, sent, received, length, front⟩ :=
    paired.chunks legal first first (length_fastResize _ _) (by simp) chunks
  rw [Nat.zero_add] at sent received front
  have covers := chunkCount_covers positive (narrowed body)
  have whole : (body.take (narrowed body)).length = narrowed body := by
    rw [List.length_take]
    exact Nat.min_eq_left (narrowed_le body)
  rw [List.take_of_length_le (by omega), List.take_of_length_le (by omega)] at front
  obtain ⟨after, done, meeting⟩ := paired.finish (by rw [sent.i, sent.chunkCnt]; omega)
    (by rw [received.i, received.chunkCnt]; omega)
  rw [front] at meeting
  exact ⟨after, (path.trans rest).trans done, meeting⟩

/-- Messages that fit arrive one after the other. -/
theorem Session.Meeting.messages {session : Session} (legal : LegalSize bufSize)
    (meeting : session.Meeting bufSize (good ++ todo) (List.replicate good.length [] ++ strings) got)
    (short : ∀ body ∈ good, body.length ≤ 2 ^ 31) :
    ∃ after : Session, Reaches (Session.next bufSize) session after ∧
      after.Meeting bufSize todo strings (got ++ good.map (List.map some)) := by
  induction good generalizing session got with
  | nil => exact ⟨session, Reaches.refl _ _, by simpa using meeting⟩
  | cons body good ih =>
    have fits := short body List.mem_cons_self
    have same : narrowed body = body.length := Nat.mod_eq_of_lt (by omega)
    obtain ⟨middle, path, next⟩ := meeting.message legal (by omega)
    rw [same, List.take_length] at next
    obtain ⟨after, rest, done⟩ := ih next fun other member => short other (List.mem_cons_of_mem _ member)
    exact ⟨after, path.trans rest, by simpa using done⟩

/-- What both ends can be relied on for: the completed calls returned the messages as they
are, no loop leaves its buffer, and once all messages are received the counters agree. -/
structure Session.Faithful (bufSize : UInt32) (messages : List Bytes) (session : Session) :
    Prop where
  exact : session.consumer.returned <+: messages.map (List.map some)
  sends : session.producer.action bufSize ≠ some .outside
  receives : session.consumer.action bufSize ≠ some .outside
  counters : session.producer.pc = .idle → session.producer.todo = [] →
    session.consumer.returned.length = messages.length →
    session.producer.stats.bytesSend = session.consumer.stats.bytesRecv ∧
      session.producer.stats.packetSend = session.consumer.stats.packetRecv

/-- The next message must be the one that a prefix goes on with. -/
theorem next_message (got : List RawString) (grown : got ++ [str] <+: got ++ body :: rest) :
    str = body := by
  rw [List.prefix_append_right_inj, List.cons_prefix_cons] at grown
  exact grown.1

/-- A message of more than `2 ^ 31` bytes is returned shortened, returned uninitialised, or
takes the sender out of its buffer. -/
theorem Session.Meeting.breaks {session : Session} (low : 3 ≤ exponent) (high : exponent ≤ 30)
    (size : bufSize.toNat = 2 ^ exponent)
    (meeting : session.Meeting bufSize (body :: todo) ([] :: strings) (good.map (List.map some)))
    (long : 2 ^ 31 < body.length) :
    ∃ after : Session, Reaches (Session.next bufSize) session after ∧
      ¬ after.Faithful bufSize (good ++ body :: todo) := by
  have legal := LegalSize.ofPower low high size
  have positive : 0 < bufSize.toNat := by
    have low := legal.low
    omega
  rcases Nat.lt_or_ge (2 ^ 31) (narrowed body) with above | below
  · obtain ⟨middle, path, paired⟩ := meeting.frame legal
    rw [ofNat_length] at paired
    rcases Nat.lt_or_ge (2 ^ 32) (narrowed body + bufSize.toNat) with wrapped | fits
    · have none := ChunkLoop.start_wrapped legal (narrowed_lt body) wrapped
      obtain ⟨after, rest, done⟩ := paired.finish (by omega) (by omega)
      refine ⟨after, path.trans rest, fun faithful => ?_⟩
      have grown := faithful.exact
      rw [done.returned, List.map_append, List.map_cons] at grown
      have same := next_message _ grown
      have raw : Option.none ∈ body.map some := by
        rw [← same, fastResize, List.mem_append, List.mem_replicate]
        exact Or.inr ⟨by simp only [List.map_nil, List.length_nil]; omega, rfl⟩
      obtain ⟨byte, -, same⟩ := List.mem_map.mp raw
      cases same
    · have first := ChunkLoop.At.start legal fits
      have reached := signed_chunk high size
      have chunks (later : Nat) (inside : later < 2 ^ (31 - exponent)) :
          (0 + later) * bufSize.toNat < narrowed body ∧ (0 + later) * bufSize.toNat < 2 ^ 31 := by
        have less := Nat.mul_lt_mul_of_pos_right inside positive
        rw [Nat.zero_add]
        omega
      obtain ⟨after, filled, ahead, behind, rest, paired, sent, -⟩ :=
        paired.chunks legal first first (length_fastResize _ _) (by simp) chunks
      rw [Nat.zero_add] at sent
      have more : 2 ^ (31 - exponent) * bufSize.toNat < narrowed body := by omega
      have guard : ahead.i < ahead.chunkCnt := by
        rw [sent.i, sent.chunkCnt]
        exact (lt_chunkCount _ _ positive).mpr more
      have out : ahead.inside body.length = false := by
        rw [ChunkLoop.inside, sent.negative more reached]
        simp
      refine ⟨after, path.trans rest, fun faithful => faithful.sends ?_⟩
      simp [Producer.action, paired.sends.1, guard, out]
  · obtain ⟨after, path, done⟩ := meeting.message legal below
    refine ⟨after, path, fun faithful => ?_⟩
    have grown := faithful.exact
    rw [done.returned, List.map_append, List.map_cons] at grown
    have same := congrArg List.length (next_message _ grown)
    rw [List.length_map, List.length_map, List.length_take] at same
    omega

/-- The counters count what the completed calls were given and what they returned. -/
structure Session.Counted (messages : List Bytes) (session : Session) : Prop where
  sent : ∃ sent, messages = sent ++ (match session.producer.pc with
      | .idle => session.producer.todo
      | .chunks body _ => body :: session.producer.todo) ∧
    session.producer.stats = sent.foldl (fun stats body =>
      stats.statisticsSend (UInt64.ofNat body.length)) .zero
  received : session.consumer.stats = session.consumer.returned.foldl (fun stats str =>
    stats.statisticsRecv (UInt64.ofNat str.length)) .zero

theorem Session.Counted.next {session after : Session} (counted : session.Counted messages)
    (moved : session.next bufSize party = some after) : after.Counted messages := by
  obtain ⟨⟨sent, whole, stats⟩, received⟩ := counted
  cases party with
  | producer =>
    obtain ⟨action, view, producer, chosen, performed, rfl⟩ := Session.next_producer moved
    refine ⟨?_, received⟩
    unfold Producer.action at chosen
    split at chosen
    · rename_i idle
      simp only [idle] at whole
      split at chosen
      · cases chosen
      · rename_i body rest todo
        cases chosen
        simp only [Action.perform] at performed
        split at performed
        · cases performed
          exact ⟨sent, by rw [whole, todo], stats⟩
        · cases performed
    · rename_i body loop at_
      simp only [at_] at whole
      split at chosen
      · split at chosen
        · cases chosen
          simp only [Action.perform] at performed
          split at performed
          · cases performed
            exact ⟨sent, whole, stats⟩
          · cases performed
        · cases chosen
          cases performed
      · cases chosen
        cases performed
        exact ⟨sent ++ [body], by simpa using whole, by rw [List.foldl_append, ← stats]; rfl⟩
  | consumer =>
    obtain ⟨action, view, consumer, chosen, performed, rfl⟩ := Session.next_consumer moved
    refine ⟨⟨sent, whole, stats⟩, ?_⟩
    unfold Consumer.action at chosen
    split at chosen
    · split at chosen
      · cases chosen
      · cases chosen
        simp only [Action.perform] at performed
        split at performed
        · cases performed
          exact received
        · cases performed
    · split at chosen
      · split at chosen
        · cases chosen
          simp only [Action.perform] at performed
          split at performed
          · cases performed
            exact received
          · cases performed
        · cases chosen
          cases performed
      · cases chosen
        cases performed
        rw [List.foldl_append, ← received]
        rfl

/-- The same messages counted on both sides. -/
theorem counters_agree (messages : List Bytes) (sender receiver : Statistics)
    (bytes : sender.bytesSend = receiver.bytesRecv)
    (packets : sender.packetSend = receiver.packetRecv) :
    let sent := messages.foldl (fun stats body =>
      stats.statisticsSend (UInt64.ofNat body.length)) sender
    let received := (messages.map (List.map some)).foldl (fun stats (str : RawString) =>
      stats.statisticsRecv (UInt64.ofNat str.length)) receiver
    sent.bytesSend = received.bytesRecv ∧ sent.packetSend = received.packetRecv := by
  induction messages generalizing sender receiver with
  | nil => exact ⟨bytes, packets⟩
  | cons body messages ih =>
    refine ih _ _ ?_ ?_
    · simp [Statistics.statisticsSend, Statistics.statisticsRecv, bytes]
    · simp [Statistics.statisticsSend, Statistics.statisticsRecv, packets]

theorem Session.Inv.faithful {session : Session} (inv : session.Inv bufSize messages)
    (counted : session.Counted messages) : session.Faithful bufSize messages := by
  have delivered := inv.delivered
  obtain ⟨consumed, inflight, ahead, aligned⟩ := inv
  have legal : LegalSize bufSize := aligned.sized ▸ aligned.queue.legal
  refine ⟨delivered, fun out => ?_, fun out => ?_, fun idle empty all => ?_⟩
  · have step := aligned.sends.action legal
    rw [out] at step
    exact step
  · have step := aligned.expects.action legal
    rw [out] at step
    exact step
  · obtain ⟨⟨sent, whole, stats⟩, received⟩ := counted
    simp only [idle, empty, List.append_nil] at whole
    have same := delivered.eq_of_length (by rw [all, List.length_map])
    rw [stats, received, same, whole]
    exact counters_agree sent .zero .zero rfl rfl

/-- The first message that is too long breaks what was promised. -/
theorem Session.unfaithful (segment : SharedMemoryView) (low : 3 ≤ exponent)
    (high : exponent ≤ 30) (size : bufSize.toNat = 2 ^ exponent) (member : body ∈ messages)
    (long : 2 ^ 31 < body.length) :
    ∃ strings session,
      Reaches (Session.next bufSize) (Session.start segment bufSize messages strings) session ∧
      ¬ session.Faithful bufSize messages := by
  cases found : messages.find? fun body => decide (2 ^ 31 < body.length) with
  | none =>
    exact absurd (decide_eq_true long) (List.find?_eq_none.mp found body member)
  | some first =>
    obtain ⟨long, good, todo, rfl, short⟩ := List.find?_eq_some_iff_append.mp found
    have legal := LegalSize.ofPower low high size
    have begins : (Session.start segment bufSize (good ++ first :: todo)
        (List.replicate good.length [] ++ [[]])).Meeting bufSize (good ++ first :: todo)
        (List.replicate good.length [] ++ [[]]) [] :=
      ⟨⟨0, Represents.init segment low high size⟩, rfl, ⟨rfl, rfl⟩, ⟨rfl, rfl⟩, rfl⟩
    obtain ⟨middle, path, meeting⟩ := begins.messages legal
      fun body member => by simpa using short body member
    obtain ⟨after, rest, broken⟩ := meeting.breaks low high size (by simpa using long)
    exact ⟨_, after, path.trans rest, broken⟩

/-- For all lists of messages of any lengths, in every interleaving and whatever strings
`recv` is called with: both ends are faithful if and only if no message is longer than
`2 ^ 31` bytes. -/
theorem mem_untruncated_iff (segment : SharedMemoryView) (bufSize : UInt32) (exponent : Nat)
    (messages : List Bytes) (low : 3 ≤ exponent) (high : exponent ≤ 30)
    (size : bufSize.toNat = 2 ^ exponent) :
    (∀ strings session,
        Reaches (Session.next bufSize) (Session.start segment bufSize messages strings) session →
        session.Faithful bufSize messages) ↔
      ∀ body ∈ messages, body.length ≤ 2 ^ 31 := by
  constructor
  · intro faithful body member
    refine Nat.not_lt.mp fun long => ?_
    obtain ⟨strings, session, path, broken⟩ := Session.unfaithful segment low high size member long
    exact broken (faithful strings session path)
  · intro short strings session path
    refine (Session.reaches_inv low high size short path).faithful ?_
    exact path.invariant (Session.Counted messages) ⟨⟨[], rfl, rfl⟩, rfl⟩
      fun _ _ _ counted moved => counted.next moved

/-- A message longer than the ring, in the ring for the most part. -/
theorem mem_untruncated_two :
    ∃ session : Session, session.consumer.returned = [[1, 2, 3].map some] ∧
      session.Faithful 8 [[1, 2, 3], [4, 5, 6, 7, 8, 9, 10, 11, 12]] := by
  refine ⟨_, ?_, (mem_untruncated_iff .zeroed 8 3 [[1, 2, 3], [4, 5, 6, 7, 8, 9, 10, 11, 12]]
    (by decide) (by decide) rfl).mpr (by decide) [[], [5]] _
    (Reaches.ofRun [.producer, .consumer, .producer, .consumer, .producer, .consumer, .producer,
      .consumer, .producer] rfl)⟩
  rfl

/-- A message of `2 ^ 32 + 1` bytes through the default buffer of 16 KiB. -/
theorem mem_truncates :
    ∃ strings session,
      Reaches (Session.next 16384)
        (Session.start .zeroed 16384 [List.replicate (2 ^ 32 + 1) 7] strings) session ∧
      ¬ session.Faithful 16384 [List.replicate (2 ^ 32 + 1) 7] :=
  Session.unfaithful .zeroed (by decide : 3 ≤ 14) (by decide) rfl List.mem_cons_self
    (by rw [List.length_replicate]; decide)

end GaiaNet.Mem
