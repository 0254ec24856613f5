import GaiaNet.Grpc.AckLine
import GaiaNet.Grpc.LinkState

/-! Where the packets of a line are that are not acknowledged, and that the steps of the
ack thread and of the server keep it so. -/

namespace GaiaNet.Grpc

open Lib.Transition

/-- The packet whose `Write` has returned true and that is not in the queue yet. -/
def LineStage.pushing : LineStage → List Packet
  | .push packet => [packet]
  | _ => []

/-- What `set_continue_status` has still to write. -/
def LineStage.remaining : LineStage → List Packet
  | .lock rest | .resend rest => rest
  | _ => []

/-- A packet that is going to be written carries the next number. -/
def LineStage.Ready (count : Nat) : LineStage → Prop
  | .write packet => packet.header.seq = count
  | _ => True

/-- `finish` has returned and the client is not deleted yet. -/
def LineStage.retired : LineStage → Bool
  | .take | .delete _ => true
  | _ => false

/-- The client has its status: it has not given it away and got it. -/
def LineStage.whole : LineStage → Bool
  | .delete _ | .create _ | .restore _ | .gone | .crashed => false
  | _ => true

/-- The current stream among the accepted packets, of which `popped` are acknowledged: it
was opened when `first` were. -/
structure Tracks (line : Line) (accepted : List Packet) (popped first : Nat) (stream : Stream) :
    Prop where
  early : first ≤ popped
  written : stream.written <+: (accepted ++ line.stage.pushing).drop first
  whole : line.failed = false →
    stream.written ++ line.stage.remaining = (accepted ++ line.stage.pushing).drop first
  served : line.acked ≤ stream.written.length
  read : popped + line.heldAck.toList.length = first + line.acksRead
  readServed : line.acksRead ≤ line.acked
  held : ∀ ack, line.heldAck = some ack → ack = popped
  oldest : line.oldest = first

/-- A client that has negotiated version 2. -/
structure Speaks (line : Line) (accepted : List Packet) (popped : Nat) (client : RpcClient) :
    Prop where
  version : client.useRpcVersion = ServiceVersion.v2.code
  seq : client.seq = accepted.length
  idle : client.recvThreadStatus ≠ .started → line.heldAck = none
  thread : client.recvThreadStatus = .started → client.recvThread = true
  quiet : line.stage.retired = true → line.heldAck = none
  stream : ∃ stream first, client.rwSender = some stream ∧ Tracks line accepted popped first stream

/-- A client before its first `Send`. -/
structure RpcClient.Unused (client : RpcClient) : Prop where
  version : client.useRpcVersion = ServiceVersion.notInited.code
  seq : client.seq = 0
  queue : client.notackQueue = []
  rwSender : client.rwSender = none
  recvThread : client.recvThread = false
  status : client.recvThreadStatus = .notInited

/-- A status on its way to the next client. -/
inductive Carried (accepted : List Packet) (popped : Nat) (tup : ContinueStatus) : Prop where
  | full (version : tup.useRpcVersion = ServiceVersion.v2.code) (seq : tup.seq = accepted.length)
    (queue : tup.notackQueue = accepted.drop popped)
  | blank (version : tup.useRpcVersion = ServiceVersion.notInited.code) (none : accepted = [])

/-- Who holds the packets that are not acknowledged. -/
inductive Owner (line : Line) (accepted : List Packet) (popped : Nat) : Prop where
  | speaking (live : line.client = some client) (whole : line.stage.whole = true)
    (speaks : Speaks line accepted popped client)
    (queue : client.notackQueue = accepted.drop popped)
  | unused (live : line.client = some client) (stage : line.stage = .outside ∨ line.stage = .take ∨
      ∃ content, line.stage = .attempt content)
    (fresh : client.Unused) (silent : line.heldAck = none) (none : accepted = [])
  | given (live : line.client = some client) (stage : line.stage = .delete tup)
    (holder : Speaks line accepted popped client ∧ client.notackQueue = [] ∨
      client.Unused ∧ line.heldAck = none)
    (carried : Carried accepted popped tup)
  | deleted (dead : line.client = none) (stage : line.stage = .create tup)
    (silent : line.heldAck = none) (carried : Carried accepted popped tup)
  | created (live : line.client = some client) (stage : line.stage = .restore tup)
    (fresh : client.Unused) (silent : line.heldAck = none) (carried : Carried accepted popped tup)
  | gone (dead : line.client = none) (stage : line.stage = .gone ∨ line.stage = .crashed)

/-- The accepted packets, `popped` of them acknowledged, and where they are. -/
structure Line.Sound (line : Line) (accepted : List Packet) (popped : Nat) : Prop where
  packets : line.packets = accepted.length
  numbered : Numbered (accepted ++ line.stage.pushing)
  within : popped ≤ accepted.length
  ready : line.stage.Ready accepted.length
  past : ∀ written ∈ line.past, Consecutive written.oldest written.packets
  fresh : line.fresh.Unused
  owner : Owner line accepted popped

/-- A part of a numbered list is numbered from its place. -/
theorem Numbered.consecutive {items part : List Packet} {first : Nat} (numbered : Numbered items)
    (early : part <+: items.drop first) : Consecutive first part := by
  intro i packet found
  have inside := (List.getElem?_eq_some_iff.mp found).1
  obtain ⟨rest, whole⟩ := early
  have there : items[first + i]? = some packet := by
    rw [← List.getElem?_drop, ← whole, List.getElem?_append_left inside]
    exact found
  have seq := numbered _ _ there
  rw [seq]
  omega

theorem Consecutive.nil (first : Int) : Consecutive first [] := by
  intro i packet found
  cases found

/-- What the ack thread and the server do depends on these. -/
def Line.wire (line : Line) : Bool × Option Int × Nat × Nat × Int :=
  (line.failed, line.heldAck, line.acksRead, line.acked, line.oldest)

/-- A client with the same numbers and stream, at a stage that holds as much back. -/
theorem Speaks.moved {after : Line} {client new : RpcClient}
    (speaks : Speaks line accepted popped client) (wire : after.wire = line.wire)
    (pushing : after.stage.pushing = line.stage.pushing)
    (remaining : line.failed = false → after.stage.remaining = line.stage.remaining)
    (version : new.useRpcVersion = client.useRpcVersion) (seq : new.seq = client.seq)
    (idle : new.recvThreadStatus ≠ .started → line.heldAck = none)
    (thread : new.recvThreadStatus = .started → new.recvThread = true)
    (quiet : after.stage.retired = true → line.heldAck = none)
    (streams : ∀ stream, client.rwSender = some stream →
      ∃ other, new.rwSender = some other ∧ other.written = stream.written) :
    Speaks after accepted popped new := by
  simp only [Line.wire, Prod.mk.injEq] at wire
  obtain ⟨failed, heldAck, acksRead, acked, oldest⟩ := wire
  obtain ⟨stream, first, opened, tracks⟩ := speaks.stream
  obtain ⟨other, found, written⟩ := streams stream opened
  refine ⟨version.trans speaks.version, seq.trans speaks.seq, ?_, thread, ?_, other, first, found,
    ?_⟩
  · rw [heldAck]
    exact idle
  · rw [heldAck]
    exact quiet
  · refine ⟨tracks.early, ?_, ?_, ?_, ?_, ?_, ?_, ?_⟩
    · rw [written, pushing]
      exact tracks.written
    · rw [failed, written, pushing]
      intro working
      rw [remaining working]
      exact tracks.whole working
    · rw [acked, written]
      exact tracks.served
    · rw [heldAck, acksRead]
      exact tracks.read
    · rw [acksRead, acked]
      exact tracks.readServed
    · rw [heldAck]
      exact tracks.held
    · rw [oldest]
      exact tracks.oldest

/-- A step that accepts no packet. -/
theorem Line.Sound.moved {line after : Line} (sound : line.Sound accepted popped)
    (packets : after.packets = line.packets) (past : after.past = line.past)
    (fresh : after.fresh = line.fresh) (pushing : after.stage.pushing = line.stage.pushing)
    (ready : after.stage.Ready accepted.length)
    (owner : Owner after accepted popped) : after.Sound accepted popped := by
  refine ⟨packets.trans sound.packets, ?_, sound.within, ready, ?_, ?_, owner⟩
  · rw [pushing]
    exact sound.numbered
  · rw [past]
    exact sound.past
  · rw [fresh]
    exact sound.fresh

/-- The process is gone. -/
theorem Line.Sound.crash {line : Line} (sound : line.Sound accepted popped) :
    line.crash.Sound accepted popped := by
  refine ⟨sound.packets, ?_, sound.within, trivial, sound.past,
    sound.fresh, .gone rfl (Or.inr rfl)⟩
  intro i packet found
  apply sound.numbered i packet
  have inside := (List.getElem?_eq_some_iff.mp found).1
  simp only [Line.crash, LineStage.pushing, List.append_nil] at found inside
  rw [List.getElem?_append_left inside]
  exact found

/-- Only a client with a stream can be reached by its ack thread and the server. -/
theorem Owner.open (owner : Owner line accepted popped) (live : line.client = some client)
    (used : ¬ client.Unused) :
    Speaks line accepted popped client ∧
      (line.stage.whole = true ∧ client.notackQueue = accepted.drop popped ∨
        ∃ tup, line.stage = .delete tup ∧ client.notackQueue = [] ∧
          Carried accepted popped tup) := by
  cases owner with
  | @speaking other there whole speaks queue =>
    rw [live] at there
    cases there
    exact ⟨speaks, Or.inl ⟨whole, queue⟩⟩
  | @given other tup there stage holder carried =>
    rw [live] at there
    cases there
    rcases holder with ⟨speaks, queue⟩ | ⟨fresh, -⟩
    · exact ⟨speaks, Or.inr ⟨tup, stage, queue, carried⟩⟩
    · exact absurd fresh used
  | @unused other there stage fresh silent none =>
    rw [live] at there
    cases there
    exact absurd fresh used
  | @created other tup there stage fresh silent carried =>
    rw [live] at there
    cases there
    exact absurd fresh used
  | deleted dead stage silent carried =>
    rw [live] at dead
    cases dead
  | gone dead stage =>
    rw [live] at dead
    cases dead

/-- The same client, at another stage or with another wire. -/
theorem Owner.again {line after : Line} {client new : RpcClient}
    (speaks : Speaks after accepted popped new)
    (live : after.client = some new) (queue : new.notackQueue = client.notackQueue)
    (stage : after.stage = line.stage)
    (held : line.stage.whole = true ∧ client.notackQueue = accepted.drop popped ∨
      ∃ tup, line.stage = .delete tup ∧ client.notackQueue = [] ∧ Carried accepted popped tup) :
    Owner after accepted popped := by
  rcases held with ⟨whole, full⟩ | ⟨tup, deleting, empty, carried⟩
  · exact .speaking live (by rw [stage]; exact whole) speaks (queue.trans full)
  · exact .given live (stage.trans deleting) (Or.inl ⟨speaks, queue.trans empty⟩) carried

theorem serve_sound {line after : Line} (sound : line.Sound accepted popped)
    (moved : line.serve = some after) : after.Sound accepted popped := by
  unfold Line.serve at moved
  cases live : line.client with
  | none => simp [live] at moved
  | some client =>
    cases opened : client.rwSender with
    | none => simp [live, opened] at moved
    | some stream =>
      simp only [live, opened] at moved
      split at moved
      · rename_i more
        cases moved
        have used : ¬ client.Unused := by
          intro fresh
          rw [fresh.rwSender] at opened
          cases opened
        obtain ⟨speaks, held⟩ := sound.owner.open live used
        obtain ⟨other, first, found, tracks⟩ := speaks.stream
        rw [opened] at found
        cases found
        refine sound.moved rfl rfl rfl rfl sound.ready (Owner.again ?_ rfl rfl rfl held)
        exact ⟨speaks.version, speaks.seq, speaks.idle, speaks.thread, speaks.quiet, stream, first,
          opened, tracks.early, tracks.written, tracks.whole, more, tracks.read,
          Nat.le_succ_of_le tracks.readServed, tracks.held, tracks.oldest⟩
      · cases moved

theorem ackStart_sound {line : Line} (sound : line.Sound accepted popped)
    (live : line.client = some client) (thread : client.recvThread = true)
    (status : client.recvThreadStatus = .notInited) :
    Line.Sound { line with client := some { client with recvThreadStatus := .started } }
      accepted popped := by
  have used : ¬ client.Unused := fun fresh => by simp [fresh.recvThread] at thread
  obtain ⟨speaks, held⟩ := sound.owner.open live used
  have silent := speaks.idle (by simp [status])
  refine sound.moved rfl rfl rfl rfl sound.ready (Owner.again ?_ rfl rfl rfl held)
  exact speaks.moved rfl rfl (fun _ => rfl) rfl rfl (fun _ => silent) (fun _ => thread)
    (fun _ => silent) fun stream opened => ⟨stream, opened, rfl⟩

theorem ackStop_sound {line : Line} (sound : line.Sound accepted popped)
    (live : line.client = some client) (thread : client.recvThread = true)
    (silent : line.heldAck = none) :
    Line.Sound { line with client := some { client with recvThreadStatus := .finished } }
      accepted popped := by
  have used : ¬ client.Unused := fun fresh => by simp [fresh.recvThread] at thread
  obtain ⟨speaks, held⟩ := sound.owner.open live used
  refine sound.moved rfl rfl rfl rfl sound.ready (Owner.again ?_ rfl rfl rfl held)
  exact speaks.moved rfl rfl (fun _ => rfl) rfl rfl (fun _ => silent)
    (fun same => by cases same) (fun _ => silent)
    fun stream opened => ⟨stream, opened, rfl⟩

/-- The ack read is the number of the oldest unacknowledged packet. -/
theorem ackRead_sound {line after : Line} (sound : line.Sound accepted popped)
    (live : line.client = some client) (thread : client.recvThread = true)
    (started : client.recvThreadStatus = .started) (silent : line.heldAck = none)
    (going : line.stage.ended = false) (moved : line.readAck client = some after) :
    after.Sound accepted popped := by
  have used : ¬ client.Unused := fun fresh => by simp [fresh.recvThread] at thread
  obtain ⟨speaks, held⟩ := sound.owner.open live used
  obtain ⟨stream, first, opened, tracks⟩ := speaks.stream
  unfold Line.readAck at moved
  simp only [opened] at moved
  split at moved
  · rename_i more
    rw [Option.map_eq_some_iff] at moved
    obtain ⟨packet, found, rfl⟩ := moved
    have read := tracks.read
    rw [silent] at read
    simp only [Option.toList_none, List.length_nil, Nat.add_zero] at read
    have seq := sound.numbered.consecutive tracks.written _ _ found
    have running : line.stage.retired = false := by
      cases stage : line.stage <;> simp [stage, LineStage.ended, LineStage.retired] at going ⊢
    refine sound.moved rfl rfl rfl rfl sound.ready (Owner.again ?_ live rfl rfl held)
    refine ⟨speaks.version, speaks.seq, fun idle => absurd started idle, speaks.thread, ?_, stream,
      first, opened, tracks.early, tracks.written, tracks.whole, tracks.served, ?_, more, ?_,
      tracks.oldest⟩
    · intro retired
      rw [running] at retired
      cases retired
    · simp only [Option.toList_some, List.length_singleton]
      omega
    · intro ack same
      cases same
      rw [seq, read]
      omega
  · cases moved

/-- The ack thread pops the front: one more packet is acknowledged. -/
theorem ackPop_sound {line : Line} {ack : Int} (sound : line.Sound accepted popped)
    (live : line.client = some client) (thread : client.recvThread = true)
    (holds : line.heldAck = some ack) (full : client.notackQueue ≠ []) :
    Line.Sound { line with
      client := some { client with notackQueue := client.notackQueue.tail }, heldAck := none }
      accepted (popped + 1) := by
  have used : ¬ client.Unused := fun fresh => by simp [fresh.recvThread] at thread
  obtain ⟨speaks, ⟨whole, queue⟩ | ⟨tup, -, empty, -⟩⟩ := sound.owner.open live used
  · obtain ⟨stream, first, opened, tracks⟩ := speaks.stream
    have some : popped < accepted.length := by
      rcases Nat.lt_or_ge popped accepted.length with inside | past
      · exact inside
      · rw [List.drop_eq_nil_of_le past] at queue
        exact absurd queue full
    have read := tracks.read
    rw [holds] at read
    simp only [Option.toList_some, List.length_singleton] at read
    refine ⟨sound.packets, sound.numbered, some, sound.ready, sound.past, sound.fresh, ?_⟩
    refine .speaking rfl whole ⟨speaks.version, speaks.seq, fun _ => rfl, fun _ => thread,
      fun _ => rfl, stream, first, opened, Nat.le_succ_of_le tracks.early, tracks.written,
      tracks.whole, tracks.served, ?_,
      tracks.readServed, (fun _ same => by cases same), tracks.oldest⟩ ?_
    · simp only [Option.toList_none, List.length_nil]
      omega
    · simp only [queue, List.tail_drop]
  · exact absurd empty full

/-- After a step the line is sound with some acknowledged packets. -/
def Line.Kept (line : Line) : Prop := ∃ accepted popped, line.Sound accepted popped

theorem ackStep_kept {line after : Line} (sound : line.Sound accepted popped)
    (moved : line.ackStep step = some after) : after.Kept := by
  unfold Line.ackStep at moved
  cases live : line.client with
  | none => simp [live] at moved
  | some client =>
    simp only [live] at moved
    split at moved
    · rename_i thread
      unfold Line.ackClientStep at moved
      cases step with
      | start =>
        simp only at moved
        split at moved
        · rename_i status
          cases moved
          exact ⟨_, _, ackStart_sound sound live thread status⟩
        · cases moved
      | read =>
        simp only at moved
        split at moved
        · rename_i ready
          obtain ⟨started, silent, going⟩ := ready
          exact ⟨_, _, ackRead_sound sound live thread started silent (by simpa using going) moved⟩
        · cases moved
      | pop =>
        simp only at moved
        split at moved
        · rename_i ready
          obtain ⟨some, full, -⟩ := ready
          cases moved
          obtain ⟨ack, holds⟩ := Option.ne_none_iff_exists'.mp some
          exact ⟨_, _, ackPop_sound sound live thread holds full⟩
        · cases moved
      | stop =>
        simp only at moved
        split at moved
        · rename_i ready
          cases moved
          exact ⟨_, _, ackStop_sound sound live thread ready.2.1⟩
        · cases moved
    · cases moved

end GaiaNet.Grpc
