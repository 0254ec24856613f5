import GaiaNet.Grpc.Frames
import GaiaNet.Grpc.RecvRounds

/-! The index of a packet and the index that `Recv` wants, over runs in which both wrap. -/

namespace GaiaNet.Grpc

open Lib.Hoare

/-- The `int` that has counted to `k` from 0. -/
def wrappedInt (k : Int) : Int := k.bmod (2 ^ 32)

theorem wrapped_bounds (k : Int) : -2 ^ 31 ≤ wrappedInt k ∧ wrappedInt k < 2 ^ 31 := by
  have low := Int.le_bmod (x := k) (m := 2 ^ 32) (by decide)
  have high := Int.bmod_lt (x := k) (m := 2 ^ 32) (by decide)
  unfold wrappedInt
  omega

theorem addInt_wrapped (k : Int) : addInt (wrappedInt k) 1 = wrappedInt (k + 1) :=
  Int.bmod_add_bmod

theorem wrapped_neg (k : Nat) : wrappedInt k < 0 ↔ 2 ^ 31 ≤ k % 2 ^ 32 := by
  unfold wrappedInt
  rw [Int.bmod_def]
  split <;> omega

/-- The two clients of a channel, after `k` messages that all arrived. -/
structure Ends where
  sender : RpcClient
  receiver : RpcClient

/-- A message, and how many acknowledged packets the ack thread pops before it is sent. -/
structure Message where
  acks : Nat
  body : Bytes

namespace Ends

/-- The packet that an accepted `Send` has written. -/
def packet? (sender : RpcClient) : Option Packet := sender.rwSender.bind (·.written.getLast?)

/-- `Send` is accepted and its frame popped by `Recv`: what `Recv` returns, if it does. -/
def pass (taskid : String) (message : Message) (ends : Ends) : Option (Bytes × Ends) :=
  match send taskid ⟨fun _ => .failed, ⟨true, message.acks, false⟩, true⟩
      ⟨ends.sender, message.body⟩ with
  | .ok true sent =>
    match packet? sent.client with
    | none => none
    | some packet =>
      match recv taskid false ⟨fun _ => [.element (redisFrame false packet)], .failed⟩
          ⟨ends.receiver, []⟩ with
      | .ok result received =>
        if result.ret then some (received.content, ⟨sent.client, received.client⟩) else none
      | .error _ _ => none
  | _ => none

/-- What `Recv` returns for one message after the other, as long as it returns them. -/
def contents (taskid : String) : List Message → Ends → List Bytes
  | [], _ => []
  | message :: messages, ends =>
    match ends.pass taskid message with
    | none => []
    | some (content, next) => content :: contents taskid messages next

/-- Both ends speak v2 and `k` messages have passed. -/
structure At (k : Nat) (ends : Ends) : Prop where
  speaks : ends.sender.useRpcVersion = ServiceVersion.v2.code
  opened : ends.sender.rwSender ≠ none
  running : ends.sender.recvThreadStatus ≠ .finished
  seq : ends.sender.seq = wrappedInt k
  redis : ends.receiver.useRedis = true
  second : ends.receiver.useRedisDataVersion = .v2
  inTime : ends.receiver.InTime 1
  recvIdx : ends.receiver.recvIdx = wrappedInt ((k : Int) - 1)

theorem At.wanted (at_ : At k ends) : ends.receiver.wanted = wrappedInt k := by
  unfold RpcClient.wanted
  rw [at_.recvIdx, addInt_wrapped, Int.sub_add_cancel]

/-- The frame of a packet with an `int` index is taken for a control frame when it has no body
and the index is negative, and for data with this index otherwise. -/
theorem frameVerdict_frame {packet : Packet} (numbered : packet.header.seq = wrappedInt k) :
    frameVerdict (wrappedInt k) (redisFrame false packet) =
      if packet.body = [] ∧ wrappedInt k < 0 then .ok .control else .ok (.deliver packet.body) := by
  obtain ⟨low, high⟩ := wrapped_bounds k
  have frame : redisFrame false packet =
      Lib.LittleEndian.encode 4 (wrappedInt k % 2 ^ 32).toNat ++ packet.body := by
    rw [redisFrame, numbered]
    rfl
  have header := Lib.LittleEndian.length_encode 4 (wrappedInt k % 2 ^ 32).toNat
  have length : (redisFrame false packet).length = 4 + packet.body.length := by
    rw [frame, List.length_append, header]
  have payload : (redisFrame false packet).drop 4 = packet.body := by
    rw [frame, List.drop_left' header]
  have read : frameIndex (redisFrame false packet) = some (wrappedInt k) := by
    rw [frame]
    exact frameIndex_int low high packet.body
  have empty : (redisFrame false packet).length = 4 ↔ packet.body = [] := by
    rw [length, ← List.length_eq_zero_iff]
    omega
  unfold frameVerdict
  simp only [read, empty, payload, if_true, if_neg (show ¬ (redisFrame false packet).length < 4 by omega)]

/-- An accepted `Send` writes a packet with the message and the wrappedInt number of messages. -/
theorem At.send (at_ : At k ends) (taskid : String) (message : Message) :
    ∃ sent packet, Grpc.send taskid ⟨fun _ => .failed, ⟨true, message.acks, false⟩, true⟩
        ⟨ends.sender, message.body⟩ = .ok true ⟨sent, []⟩ ∧
      packet? sent = some packet ∧ packet.header.seq = wrappedInt k ∧ packet.body = message.body ∧
      sent.useRpcVersion = ServiceVersion.v2.code ∧ sent.recvThreadStatus ≠ .finished ∧
      sent.seq = wrappedInt (k + 1 : Nat) := by
  have speaks := at_.speaks
  have connected : ends.sender.useRpcVersion ≠ ServiceVersion.notInited.code :=
    ServiceVersion.code_ne speaks (by simp)
  have acked := ends.sender.ackThread_acked ⟨true, message.acks, false⟩
  have running : (ends.sender.ackThread ⟨true, message.acks, false⟩).recvThreadStatus ≠ .finished := by
    have idle := at_.running
    unfold RpcClient.ackThread
    split <;> simp_all
  have sends := send_connected taskid ⟨fun _ => .failed, ⟨true, message.acks, false⟩, true⟩
    ends.sender message.body connected
  revert acked running sends
  generalize ends.sender.ackThread ⟨true, message.acks, false⟩ = current
  intro acked running sends
  obtain ⟨stream, opened⟩ := Option.ne_none_iff_exists'.mp at_.opened
  have second : current.useRpcVersion ≥ ServiceVersion.v2.code :=
    ServiceVersion.code_ge (acked.useRpcVersion.trans speaks)
  have target : current.target = some stream := by
    rw [acked.target, RpcClient.target, if_pos (ServiceVersion.code_ge speaks), opened]
  have seq : current.seq = wrappedInt k := acked.seq.trans at_.seq
  simp only [if_neg running, target, if_true] at sends
  refine ⟨_, current.packet taskid message.body, sends, ?_, ?_, rfl, ?_, ?_, ?_⟩
  · simp [packet?, RpcClient.accept, if_pos second, RpcClient.pushNotack, Stream.write]
  · simp [RpcClient.packet, if_pos second, seq]
  · simp only [RpcClient.accept, if_pos second, RpcClient.pushNotack]
    exact acked.useRpcVersion.trans speaks
  · simp only [RpcClient.accept, if_pos second, RpcClient.pushNotack]
    exact running
  · simp only [RpcClient.accept, if_pos second, RpcClient.pushNotack, seq, addInt_wrapped]
    rfl

/-- `Recv` on the one frame: the message, or nothing where the frame looks like a command. -/
theorem At.recv (at_ : At k ends) (taskid : String) {packet : Packet}
    (numbered : packet.header.seq = wrappedInt k) :
    Grpc.recv taskid false ⟨fun _ => [.element (redisFrame false packet)], .failed⟩
        ⟨ends.receiver, []⟩ =
      if packet.body = [] ∧ wrappedInt k < 0 then recvRedis false 2 [] ⟨ends.receiver, []⟩
      else .ok ⟨true, false, []⟩
        ⟨{ ends.receiver with recvIdx := wrappedInt k }, packet.body⟩ := by
  have received := receiveFrame_v2 at_.second (redisFrame false packet) []
  rw [at_.wanted, frameVerdict_frame numbered] at received
  have inTime : (ClientState.mk ends.receiver []).client.InTime 1 := at_.inTime
  rw [recv_eq_recvRedis _ _ _ _ _ at_.redis, recvRedis_cons, if_pos inTime,
    recvBody_element]
  by_cases command : packet.body = [] ∧ wrappedInt k < 0
  · rw [if_pos command] at received
    simp only [if_pos command, received]
    rfl
  · rw [if_neg command] at received
    simp only [if_neg command, received]

theorem At.next (at_ : At k ends) {sent : RpcClient} (written : packet? sent = some packet)
    (speaks : sent.useRpcVersion = ServiceVersion.v2.code)
    (running : sent.recvThreadStatus ≠ .finished) (seq : sent.seq = wrappedInt (k + 1 : Nat))
    (index : idx = wrappedInt k) : At (k + 1) ⟨sent, { ends.receiver with recvIdx := idx }⟩ where
  speaks := speaks
  opened := by
    intro closed
    simp only at closed
    simp [packet?, closed] at written
  running := running
  seq := seq
  redis := at_.redis
  second := at_.second
  inTime := at_.inTime
  recvIdx := by
    rw [index, Int.natCast_succ, Int.add_sub_cancel]

theorem At.pass (at_ : At k ends) (taskid : String) (message : Message) :
    if message.body = [] ∧ wrappedInt k < 0 then ends.pass taskid message = none
    else ∃ next, ends.pass taskid message = some (message.body, next) ∧ At (k + 1) next := by
  obtain ⟨sent, packet, sends, written, numbered, body, speaks, running, seq⟩ :=
    at_.send taskid message
  have receives := at_.recv taskid numbered
  unfold Ends.pass
  rw [body] at receives
  simp only [sends, written]
  by_cases command : message.body = [] ∧ wrappedInt k < 0
  · rw [if_pos command] at receives
    simp only [if_pos command, receives, recvRedis_nil]
    by_cases inside : ends.receiver.InTime 2 <;> simp [inside]
  · rw [if_neg command] at receives
    simp only [if_neg command, receives, if_true]
    exact ⟨_, rfl, at_.next written speaks running seq rfl⟩

theorem At.contents (at_ : At k ends) (taskid : String) (messages : List Message) :
    ends.contents taskid messages = messages.map Message.body ↔
      ∀ j message, messages[j]? = some message → message.body = [] → (k + j) % 2 ^ 32 < 2 ^ 31 := by
  induction messages generalizing k ends with
  | nil => simp [Ends.contents]
  | cons message messages ih =>
    have passed := at_.pass taskid message
    have first : (message.body = [] ∧ wrappedInt k < 0) ↔
        ¬ (message.body = [] → (k + 0) % 2 ^ 32 < 2 ^ 31) := by
      rw [wrapped_neg, Classical.not_imp, Nat.not_lt, Nat.add_zero]
    unfold Ends.contents
    by_cases command : message.body = [] ∧ wrappedInt k < 0
    · rw [if_pos command] at passed
      simp only [passed, List.map_cons]
      constructor
      · intro same
        cases same
      · intro small
        exact absurd (small 0 message rfl) (first.mp command)
    · rw [if_neg command] at passed
      obtain ⟨next, passed, later⟩ := passed
      simp only [passed, List.map_cons, List.cons.injEq, true_and, ih later]
      constructor
      · intro small j other found empty
        cases j with
        | zero =>
          cases found
          exact Classical.not_not.mp (fun large => command (first.mpr large)) empty
        | succ j =>
          have bound := small j other found empty
          rwa [Nat.add_right_comm] at bound
      · intro small j other found empty
        have bound := small (j + 1) other found empty
        rwa [← Nat.add_assoc, Nat.add_right_comm] at bound

end Ends

/-- Two clients that speak v2 on a channel in Redis mode on which nothing has been sent yet. -/
structure Fresh (ends : Ends) : Prop where
  speaks : ends.sender.useRpcVersion = ServiceVersion.v2.code
  opened : ends.sender.rwSender ≠ none
  running : ends.sender.recvThreadStatus ≠ .finished
  seq : ends.sender.seq = 0
  redis : ends.receiver.useRedis = true
  second : ends.receiver.useRedisDataVersion = .v2
  inTime : ends.receiver.InTime 1
  recvIdx : ends.receiver.recvIdx = -1

/-- In runs of any length every message is delivered in its turn exactly when no message without
a body is sent while the wrapping index is negative. -/
theorem indices_agree (taskid : String) (ends : Ends) (fresh : Fresh ends) (messages : List Message) :
    ends.contents taskid messages = messages.map Message.body ↔
      ∀ k message, messages[k]? = some message → message.body = [] → k % 2 ^ 32 < 2 ^ 31 := by
  have at_ : Ends.At 0 ends := ⟨fresh.speaks, fresh.opened, fresh.running, fresh.seq, fresh.redis,
    fresh.second, fresh.inTime, fresh.recvIdx⟩
  have exact_ := at_.contents taskid messages
  simpa only [Nat.zero_add] using exact_

/-- The sender has opened its stream; the receiver knows that the list has version v2. -/
def Ends.opened : Ends where
  sender := { RpcClient.init 1 2 true none with useRpcVersion := ServiceVersion.v2.code }.initSender
  receiver := { RpcClient.init 2 1 true none with useRedisDataVersion := .v2 }

theorem indices_agree_opened :
    Ends.opened.contents "task" [⟨0, [7]⟩, ⟨1, []⟩] = [[7], []] ↔
      ∀ (k : Nat) (message : Message), [(⟨0, [7]⟩ : Message), ⟨1, []⟩][k]? = some message →
        message.body = [] → k % 2 ^ 32 < 2 ^ 31 :=
  indices_agree "task" Ends.opened
    ⟨rfl, by decide, by decide, rfl, rfl, rfl, Or.inl (by decide), rfl⟩ _

/-- The message with the first negative index has no body: what comes for it is a control frame. -/
theorem indices_disagree :
    ¬ ∀ messages : List Message,
      Ends.opened.contents "task" messages = messages.map Message.body := by
  intro agree
  have at_ : Ends.At 0 Ends.opened :=
    ⟨rfl, by decide, by decide, rfl, rfl, rfl, Or.inl (by decide), rfl⟩
  have small := (at_.contents "task" _).mp (agree (List.replicate (2 ^ 31) ⟨0, [7]⟩ ++ [⟨0, []⟩]))
    (2 ^ 31) ⟨0, []⟩ ?_ rfl
  · omega
  · rw [List.getElem?_append_right (Nat.le_of_eq List.length_replicate), List.length_replicate,
      Nat.sub_self]
    rfl

end GaiaNet.Grpc
