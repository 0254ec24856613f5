import GaiaNet.Grpc.Reconnect

/-! When a normal return of `real_send` means that the message was accepted. -/

namespace GaiaNet.Grpc

open Lib.Hoare Lib.Retry

/-- `count` rounds of `real_send` were refused and repaired. -/
abbrev SendRefused (rounds : Nat → SendRound) : CallState → Nat → Bool → CallState → Prop :=
  RefusedRounds (sendAttempt rounds) fun i => (rounds i).reconnect

/-- The connected client can write, or `Send` leaves before it would. -/
def Sendable (env : SendEnv) (state : CallState) : Prop :=
  ∃ client, state.channel.client = .live client ∧
    (client.useRpcVersion ≠ ServiceVersion.notInited.code →
      (client.ackThread env.thread).recvThreadStatus = .finished ∨ client.target ≠ none)

/-- `Send` wrote the message: it is the newest packet of the stream and, with v2,
of the queue, under the sequence number that then advances. -/
structure Pushed (before : CallState) (message : Bytes) (after : CallState) : Prop where
  written : ∃ (old new : RpcClient) (stream : Stream) (packet : Packet),
    before.channel.client = .live old ∧ after.channel.client = .live new ∧ new.target = some (stream.write packet) ∧
    packet.body = message ∧
    (new.useRpcVersion ≥ ServiceVersion.v2.code →
      packet.header.seq = old.seq ∧ new.seq = addInt old.seq 1 ∧
      ∃ queue, queue <:+ old.notackQueue ∧ new.notackQueue = queue ++ [packet])

/-- One round of the loop up to its reconnect. -/
inductive SendAttempt (env : SendEnv) (before : CallState) :
    EStateM.Result Abort CallState (Option Bool) → Prop where
  | accepted (sendable : Sendable env before) (pushed : Pushed before before.str after) :
    SendAttempt env before (.ok (some true) after)
  | refused (sendable : Sendable env before) (frame : Frame before after)
      (live : after.channel.client = .live client) : SendAttempt env before (.ok none after)
  | thrown (sendable : Sendable env before) (frame : Frame before after) :
    SendAttempt env before (.error (.thrown exception) after)
  | fault (stuck : ¬ Sendable env before) (frame : after.channel.stats = before.channel.stats) :
    SendAttempt env before (.error (.fault fault) after)

theorem sendAttempt_ends (rounds : Nat → SendRound) (i : Nat) (state : CallState) :
    SendAttempt (rounds i).send state (sendAttempt rounds i state) := by
  unfold sendAttempt
  simp only [run_bind, run_get]
  cases found : state.channel.client with
  | null | dangling =>
    have absent : ∀ client, state.channel.handle .client ≠ .live client := by
      simp [Channel.handle, found]
    obtain ⟨fault, failed⟩ := onClient_notLive
      (send state.channel.channelId (rounds i).send) .client state absent
    rw [failed]
    refine .fault ?_ rfl
    rintro ⟨client, live, -⟩
    simp [found] at live
  | live client =>
    have held : state.channel.handle .client = .live client := found
    rw [onClient_live _ held]
    have framed (inner : RpcClient) : Frame state (state.putBack .client ⟨inner, state.str⟩) :=
      ⟨rfl, rfl⟩
    have kept (inner : RpcClient) : Frame state ((state.putBack .client ⟨inner, state.str⟩).record
        (.returned .client inner)) := ⟨rfl, rfl⟩
    have ended := send_ends state.channel.channelId (rounds i).send client state.str
    revert ended
    generalize send state.channel.channelId (rounds i).send ⟨client, state.str⟩ = result
    intro ended
    cases ended with
    | unconnected failed =>
      refine .thrown ⟨client, found, fun set => ?_⟩ (framed _)
      unfold RpcClient.prepared at failed
      simp [set] at failed
    | @streamEnded current ready closed =>
      refine .refused ⟨client, found, fun set => ?_⟩ (kept _) rfl
      unfold RpcClient.prepared at ready
      rw [if_neg set] at ready
      cases ready
      exact Or.inl closed
    | @writeFailed current stream ready running opened failed =>
      refine .refused ⟨client, found, fun set => ?_⟩ (kept _) rfl
      unfold RpcClient.prepared at ready
      rw [if_neg set] at ready
      cases ready
      right
      simp [opened]
    | @accepted current stream ready running opened written =>
      have same := RpcClient.prepared_some ready
      have sendable : Sendable (rounds i).send state := by
        refine ⟨client, found, fun set => ?_⟩
        unfold RpcClient.prepared at ready
        rw [if_neg set] at ready
        cases ready
        right
        simp [opened]
      refine .accepted sendable ⟨client, _, stream, (current.ackThread (rounds i).send.thread).packet
        state.channel.channelId state.str, found, rfl, RpcClient.accept_target _ _ _, rfl, ?_⟩
      intro second
      unfold RpcClient.accept at second ⊢
      by_cases version : (current.ackThread (rounds i).send.thread).useRpcVersion ≥
          ServiceVersion.v2.code
      · rw [if_pos version]
        refine ⟨?_, ?_, _, ?_, rfl⟩
        · simp only [RpcClient.packet, if_pos version]
          rw [(current.ackThread_acked _).seq, same.1]
        · simp only [RpcClient.pushNotack]
          rw [(current.ackThread_acked _).seq, same.1]
        · rw [← same.2]
          exact (current.ackThread_acked _).queue
      · rw [if_neg version] at second
        exact absurd second version
    | @nullStream current ready running closed =>
      refine .fault ?_ rfl
      rintro ⟨other, live, able⟩
      rw [found] at live
      cases live
      by_cases fresh : client.useRpcVersion = ServiceVersion.notInited.code
      · unfold RpcClient.prepared at ready
        rw [if_pos fresh] at ready
        exact (RpcClient.connect_some ready).2.2 closed
      · unfold RpcClient.prepared at ready
        rw [if_neg fresh] at ready
        cases ready
        exact (able fresh).elim running (fun opened => opened closed)

theorem sendRefused_frame (refused : SendRefused rounds start k last state) : Frame start state := by
  refine Refused.invariant (Frame start) refused (Frame.refl start) ?_ ?_
  · intro i before middle frame tried
    have ended := sendAttempt_ends rounds i before
    rw [tried] at ended
    cases ended with
    | refused _ frame' _ => exact frame.trans frame'
  · intro i middle value after frame repaired
    obtain ⟨client, -, done⟩ := reconnect_ok repaired
    exact frame.trans done.frame

/-- Some `Send` of the call returned true, and pushed the caller's message. -/
def Accepted (rounds : Nat → SendRound) (start : CallState) : Prop :=
  ∃ k < maxRetry, ∃ last before after, SendRefused rounds start k last before ∧
    sendAttempt rounds k before = .ok (some true) after ∧ Pushed before start.str after

/-- A normal return means an accepted message; every other end is an exception
that leaves the statistics alone. -/
def SendHonest (rounds : Nat → SendRound) (start : CallState) : Prop :=
  Ends (fun _ _ => Accepted rounds start)
    (fun abort after => (∃ exception, abort = .thrown exception) ∧
      after.channel.stats = start.channel.stats)
    (realSend rounds start)

/-- Every `Send` is refused and the last `set_continue_status` returns true. -/
abbrev SendExhausts (rounds : Nat → SendRound) : CallState → Prop :=
  Exhausts (sendAttempt rounds) fun i => (rounds i).reconnect

/-- Some round has undefined behaviour: `Send` without a stream, or a client that
cannot be ended. -/
def SendCrashes (rounds : Nat → SendRound) (start : CallState) : Prop :=
  ∃ k < maxRetry, ∃ last before, SendRefused rounds start k last before ∧
    (¬ Sendable (rounds k).send before ∨
      ∃ middle, sendAttempt rounds k before = .ok none middle ∧
        ¬ CanReconnect (rounds k).reconnect middle)

theorem sendExhausts_not_honest (exhausts : SendExhausts rounds start) :
    ¬ SendHonest rounds start := by
  obtain ⟨final, refused⟩ := exhausts
  intro honest
  unfold SendHonest at honest
  rw [realSend_eq, retry_exhausted refused] at honest
  obtain ⟨k, inside, last, before, after, reached, stop, -⟩ := honest
  have stopped := reached.retry_stopped inside stop
  rw [retry_exhausted refused] at stopped
  cases stopped

theorem SendCrashes.crashes (crashes : SendCrashes rounds start) :
    Crashes (sendAttempt rounds) (fun i => (rounds i).reconnect) start := by
  obtain ⟨k, inside, last, before, reached, stuck⟩ := crashes
  refine ⟨k, inside, last, before, reached, stuck.imp_left fun unsendable => ?_⟩
  have ended := sendAttempt_ends rounds k before
  revert ended
  generalize sendAttempt rounds k before = result
  intro ended
  cases ended with
  | accepted sendable _ => exact absurd sendable unsendable
  | refused sendable _ _ => exact absurd sendable unsendable
  | thrown sendable _ => exact absurd sendable unsendable
  | fault _ _ => exact ⟨_, _, rfl⟩

theorem sendCrashes_not_honest (crashes : SendCrashes rounds start) : ¬ SendHonest rounds start := by
  obtain ⟨fault, after, failed⟩ := crashes.crashes.retry_fault
  intro honest
  unfold SendHonest at honest
  rw [realSend_eq, failed] at honest
  obtain ⟨⟨exception, thrown⟩, -⟩ := honest
  cases thrown

theorem sendHonest_of_defined (finite : ¬ SendExhausts rounds start)
    (defined : ¬ SendCrashes rounds start) : SendHonest rounds start := by
  have ended : Lib.Retry.Ends (sendAttempt rounds) (fun i => reconnect (rounds i).reconnect) false
    start maxRetry _ := retry_ends maxRetry
  unfold SendHonest
  rw [realSend_eq]
  revert ended
  generalize retry (sendAttempt rounds) (fun i => reconnect (rounds i).reconnect) 0 maxRetry
    false start = result
  intro ended
  cases ended with
  | @stopped k last before value after inside reached stop =>
    have attempted := sendAttempt_ends rounds k before
    rw [stop] at attempted
    cases attempted with
    | accepted _ pushed =>
      rw [(sendRefused_frame reached).str] at pushed
      exact ⟨k, inside, last, before, after, reached, stop, pushed⟩
  | @exhausted last after reached =>
    cases last with
    | true => exact absurd ⟨after, reached⟩ finite
    | false => exact ⟨⟨_, rfl⟩, (sendRefused_frame reached).stats⟩
  | @attemptFailed k last before abort after inside reached failed =>
    have attempted := sendAttempt_ends rounds k before
    rw [failed] at attempted
    cases attempted with
    | thrown _ frame => exact ⟨⟨_, rfl⟩, ((sendRefused_frame reached).trans frame).stats⟩
    | fault stuck _ => exact absurd ⟨k, inside, last, before, reached, Or.inl stuck⟩ defined
  | @repairFailed k last before middle abort after inside reached tried failed =>
    have attempted := sendAttempt_ends rounds k before
    rw [tried] at attempted
    cases attempted with
    | refused _ frame _ =>
      obtain ⟨frame', ⟨-, unable⟩ | ⟨rfl, -, -⟩⟩ := reconnect_error failed
      · exact absurd ⟨k, inside, last, before, reached, Or.inr ⟨middle, tried, unable⟩⟩ defined
      · exact ⟨⟨_, rfl⟩, (((sendRefused_frame reached).trans frame).trans frame').stats⟩

/-- `real_send` keeps its word exactly when its rounds are not used up by a
successful `set_continue_status` and no round has undefined behaviour. -/
theorem real_send_honest (rounds : Nat → SendRound) (start : CallState) :
    SendHonest rounds start ↔ ¬ SendExhausts rounds start ∧ ¬ SendCrashes rounds start := by
  constructor
  · intro honest
    exact ⟨fun exhausts => sendExhausts_not_honest exhausts honest, fun crashes => sendCrashes_not_honest crashes honest⟩
  · rintro ⟨finite, defined⟩
    exact sendHonest_of_defined finite defined

/-- Every `Write` fails and every reconnect succeeds. -/
def refusingRound : SendRound where
  send := { versions := fun _ => .failed, thread := ⟨true, 0, false⟩, write := false }
  reconnect := quietReconnect

/-- 120 failed writes of a message, each followed by a reconnect, end in a normal return. -/
theorem real_send_drops_message :
    ¬ SendHonest (fun _ => refusingRound) ⟨Channel.sample [], [7], []⟩ := by
  have reached : ∃ trace, SendRefused (fun _ => refusingRound) ⟨Channel.sample [], [7], []⟩
      (119 + 1) true ⟨Channel.sample [], [7], trace⟩ := by
    refine refusedRounds_repeat ?_ 119
    intro i trace
    exact ⟨_, _, rfl, rfl⟩
  obtain ⟨trace, reached⟩ := reached
  exact sendExhausts_not_honest ⟨_, reached⟩

end GaiaNet.Grpc
