import GaiaNet.Grpc.Reconnect

/-! When a normal return of `real_recv` in Redis mode means that a message arrived. -/

namespace GaiaNet.Grpc

open Lib.Hoare Lib.Retry

/-- `count` rounds of `real_recv` asked for a reconnect and got it. -/
abbrev RecvRefused (rounds : Nat → RecvRound) : CallState → Nat → Bool → CallState → Prop :=
  RefusedRounds (recvAttempt rounds) fun i => (rounds i).reconnect

/-- A call of `Recv` returned true, and `content` is what it delivered. -/
def Delivers (env : RecvEnv) (state : CallState) (content : Bytes) : Prop :=
  ∃ client result inner, state.channel.client = .live client ∧
    recv state.channel.channelId true env ⟨client, state.str⟩ = .ok result inner ∧
    result.ret = true ∧ inner.content = content

/-- One round of the loop up to its reconnect. -/
inductive RecvAttempt (env : RecvEnv) (before : CallState) :
    EStateM.Result Abort CallState (Option Bool) → Prop where
  | delivered (delivers : Delivers env before after.str) : RecvAttempt env before (.ok (some true) after)
  | ended : RecvAttempt env before (.ok (some false) after)
  | refused : RecvAttempt env before (.ok none after)
  | aborted : RecvAttempt env before (.error abort after)

theorem recvAttempt_ends (rounds : Nat → RecvRound) (i : Nat) (state : CallState) :
    RecvAttempt (rounds i).recv state (recvAttempt rounds i state) := by
  unfold recvAttempt
  simp only [run_bind, run_get]
  cases found : state.channel.client with
  | null | dangling =>
    obtain ⟨fault, failed⟩ := onClient_notLive (recv state.channel.channelId true (rounds i).recv)
      .client state (by simp [Channel.handle, found])
    rw [failed]
    exact .aborted
  | live client =>
    have held : state.channel.handle .client = .live client := found
    rw [onClient_live _ held]
    cases called : recv state.channel.channelId true (rounds i).recv ⟨client, state.str⟩ with
    | error abort inner => exact .aborted
    | ok result inner =>
      obtain ⟨ret, needResend, rest⟩ := result
      cases ret with
      | true => exact .delivered ⟨client, _, inner, found, called, rfl, rfl⟩
      | false =>
        cases needResend with
        | true => exact .refused
        | false => exact .ended

theorem recvAttempt_stats (rounds : Nat → RecvRound) (i : Nat) (stats : Statistics) :
    Keeps (fun state => state.channel.stats = stats) (recvAttempt rounds i) := by
  refine (Keeps.get _).bind fun state => ?_
  exact (onClient_stats .client _ stats).bind fun result => Keeps.pure _ _

theorem recvRefused_stats (reached : RecvRefused rounds start k last state) :
    state.channel.stats = start.channel.stats := by
  refine Refused.invariant (fun state => state.channel.stats = start.channel.stats) reached rfl ?_ ?_
  · intro i before middle same tried
    have kept := recvAttempt_stats rounds i _ before rfl
    rw [tried] at kept
    exact kept.trans same
  · intro i middle value after same repaired
    obtain ⟨client, -, done⟩ := reconnect_ok repaired
    exact done.frame.stats.trans same

/-- A normal return hands over what the last `Recv` delivered; every other end is
an exception that leaves the receive counters alone. A call that still waits
promises nothing. -/
def RecvHonest (pulls : List RecvEnv) (rounds : Nat → RecvRound) (start : CallState) : Prop :=
  Ends (fun _ after => ∃ k < maxRetry, ∃ last before, RecvRefused rounds start k last before ∧
      Delivers (rounds k).recv before after.str)
    (fun abort after => abort ≠ .pending → (∃ exception, abort = .thrown exception) ∧
      after.channel.stats.bytesRecv = start.channel.stats.bytesRecv ∧
      after.channel.stats.packetRecv = start.channel.stats.packetRecv)
    (realRecv pulls rounds start)

/-- Every `Recv` asks for a reconnect and the last `set_continue_status` returns true. -/
abbrev RecvExhausts (rounds : Nat → RecvRound) : CallState → Prop :=
  Exhausts (recvAttempt rounds) fun i => (rounds i).reconnect

abbrev RecvCrashes (rounds : Nat → RecvRound) : CallState → Prop :=
  Crashes (recvAttempt rounds) fun i => (rounds i).reconnect

theorem recvExhausts_not_honest (redis : start.channel.useRedis = true)
    (exhausts : RecvExhausts rounds start) : ¬ RecvHonest pulls rounds start := by
  obtain ⟨final, refused⟩ := exhausts
  intro honest
  unfold RecvHonest at honest
  rw [realRecv_redis pulls rounds start redis, retry_exhausted refused] at honest
  obtain ⟨k, inside, last, before, reached, client, result, inner, live, called, ret, -⟩ := honest
  have held : before.channel.handle .client = .live client := live
  have stop : ∃ after, recvAttempt rounds k before = .ok (some true) after := by
    unfold recvAttempt
    simp only [run_bind, run_get]
    rw [onClient_live _ held, called]
    simp only [ret]
    exact ⟨_, rfl⟩
  obtain ⟨after, stop⟩ := stop
  have stopped := reached.retry_stopped inside stop
  rw [retry_exhausted refused] at stopped
  cases stopped

theorem recvCrashes_not_honest (redis : start.channel.useRedis = true)
    (crashes : RecvCrashes rounds start) : ¬ RecvHonest pulls rounds start := by
  obtain ⟨fault, after, failed⟩ := crashes.retry_fault
  intro honest
  unfold RecvHonest at honest
  rw [realRecv_redis pulls rounds start redis, failed] at honest
  obtain ⟨⟨exception, thrown⟩, -⟩ := honest (by simp)
  cases thrown

theorem recvHonest_of_defined (redis : start.channel.useRedis = true)
    (finite : ¬ RecvExhausts rounds start) (defined : ¬ RecvCrashes rounds start) :
    RecvHonest pulls rounds start := by
  have ended : Lib.Retry.Ends (recvAttempt rounds) (fun i => reconnect (rounds i).reconnect) false
    start maxRetry _ := retry_ends maxRetry
  unfold RecvHonest
  rw [realRecv_redis pulls rounds start redis]
  revert ended
  generalize retry (recvAttempt rounds) (fun i => reconnect (rounds i).reconnect) 0 maxRetry
    false start = result
  intro ended
  cases ended with
  | @stopped k last before value after inside reached stop =>
    have attempted := recvAttempt_ends rounds k before
    have kept := recvAttempt_stats rounds k _ before rfl
    rw [stop] at attempted kept
    cases attempted with
    | delivered delivers => exact ⟨k, inside, last, before, reached, delivers⟩
    | ended =>
      have same := kept.trans (recvRefused_stats reached)
      exact fun _ => ⟨⟨_, rfl⟩, by rw [same], by rw [same]⟩
  | @exhausted last after reached =>
    cases last with
    | true => exact absurd ⟨after, reached⟩ finite
    | false =>
      have same := recvRefused_stats reached
      exact fun _ => ⟨⟨_, rfl⟩, by rw [same], by rw [same]⟩
  | @attemptFailed k last before abort after inside reached failed =>
    have kept := recvAttempt_stats rounds k _ before rfl
    rw [failed] at kept
    have same := kept.trans (recvRefused_stats reached)
    cases abort with
    | thrown exception => exact fun _ => ⟨⟨_, rfl⟩, by rw [same], by rw [same]⟩
    | fault fault =>
      exact absurd ⟨k, inside, last, before, reached, Or.inl ⟨fault, after, failed⟩⟩ defined
    | pending => exact fun waiting => absurd rfl waiting
  | @repairFailed k last before middle abort after inside reached tried failed =>
    have kept := recvAttempt_stats rounds k _ before rfl
    rw [tried] at kept
    obtain ⟨frame, ⟨-, unable⟩ | ⟨rfl, -, -⟩⟩ := reconnect_error failed
    · exact absurd ⟨k, inside, last, before, reached, Or.inr ⟨middle, tried, unable⟩⟩ defined
    · have same := frame.stats.trans (kept.trans (recvRefused_stats reached))
      exact fun _ => ⟨⟨_, rfl⟩, by rw [same], by rw [same]⟩

/-- `real_recv` keeps its word exactly when its rounds are not used up by a
successful `set_continue_status` and no round has undefined behaviour. -/
theorem real_recv_honest (pulls : List RecvEnv) (rounds : Nat → RecvRound) (start : CallState)
    (redis : start.channel.useRedis = true) :
    RecvHonest pulls rounds start ↔ ¬ RecvExhausts rounds start ∧ ¬ RecvCrashes rounds start := by
  constructor
  · intro honest
    exact ⟨fun exhausts => recvExhausts_not_honest redis exhausts honest,
      fun crashes => recvCrashes_not_honest redis crashes honest⟩
  · rintro ⟨finite, defined⟩
    exact recvHonest_of_defined redis finite defined

/-- Nothing arrives while the ack thread ends, and every reconnect succeeds. -/
def silentRound : RecvRound where
  recv := { polls := fun _ => [.empty ⟨true, 0, true⟩], pull := .failed }
  reconnect := quietReconnect

theorem real_recv_honest_sample :
    RecvHonest [] (fun _ => silentRound) ⟨Channel.sample [lostPacket], [], []⟩ ↔
      ¬ RecvExhausts (fun _ => silentRound) ⟨Channel.sample [lostPacket], [], []⟩ ∧
        ¬ RecvCrashes (fun _ => silentRound) ⟨Channel.sample [lostPacket], [], []⟩ :=
  real_recv_honest [] _ _ rfl

/-- 120 silent rounds with a packet to resend end in a normal return with an empty string. -/
theorem real_recv_invents_message :
    ¬ RecvHonest [] (fun _ => silentRound) ⟨Channel.sample [lostPacket], [], []⟩ := by
  have reached : ∃ trace, RecvRefused (fun _ => silentRound)
      ⟨Channel.sample [lostPacket], [], []⟩ (119 + 1) true ⟨Channel.sample [lostPacket], [], trace⟩ := by
    refine refusedRounds_repeat ?_ 119
    intro i trace
    exact ⟨_, _, rfl, rfl⟩
  obtain ⟨trace, reached⟩ := reached
  exact recvExhausts_not_honest rfl ⟨_, reached⟩

end GaiaNet.Grpc
