import GaiaNet.Grpc.Reconnect

/-! When a `flush` of a v2 channel that returns true has seen an empty queue. -/

namespace GaiaNet.Grpc

open Lib.Hoare Lib.Retry

/-- `count` rounds of `flush` asked for a reconnect and got it. -/
abbrev FlushRefused (rounds : Nat → FlushRound) : CallState → Nat → Bool → CallState → Prop :=
  RefusedRounds (flushAttempt rounds) fun i => (rounds i).reconnect

/-- The queue of `m_client` was empty at the end of a method call since `start`, or is now. -/
def Emptied (start after : CallState) : Prop :=
  ∃ client, (Event.returned .client client ∈ after.trace.drop start.trace.length ∨
    after.channel.client = .live client) ∧ client.notackQueue = []

def FlushTruthful (rounds : Nat → FlushRound) (start : CallState) : Prop :=
  Ends (fun flag after => flag = true → Emptied start after) (fun _ _ => True) (flush rounds start)

/-- Every round asks for a reconnect, and the last client holds unacknowledged packets. -/
def FlushExhausts (rounds : Nat → FlushRound) (start : CallState) : Prop :=
  ∃ last final client, FlushRefused rounds start maxRetry last final ∧
    final.channel.client = .live client ∧ client.notackQueue ≠ []

/-- `m_client` speaks v2, and no queue of it seen since `start` lacks a packet it still holds. -/
def Shrinks (start state : CallState) : Prop :=
  ∃ client events, state.channel.client = .live client ∧
    client.useRpcVersion = ServiceVersion.v2.code ∧ state.trace = start.trace ++ events ∧
    ∀ seen, Event.returned .client seen ∈ events → client.notackQueue <:+ seen.notackQueue

theorem shrinks_flushAttempt (shrinks : Shrinks start state) (rounds : Nat → FlushRound) (i : Nat) :
    Ends (fun verdict after => Shrinks start after ∧ (verdict = some true →
        ∃ client, after.channel.client = .live client ∧ client.notackQueue = []))
      (fun _ _ => True) (flushAttempt rounds i state) := by
  obtain ⟨client, events, found, second, extended, covers⟩ := shrinks
  have held : state.channel.handle .client = .live client := found
  unfold flushAttempt
  rw [run_bind, onClient_live _ held]
  have ended := waitFlush_ends flushMsec (rounds i).polls client state.str
  revert ended
  generalize waitFlush flushMsec (rounds i).polls ⟨client, state.str⟩ = result
  intro ended
  have step (after : RpcClient) (acked : Acked client after) : Shrinks start
      ((state.putBack .client ⟨after, state.str⟩).record (.returned .client after)) := by
    refine ⟨after, events ++ [.returned .client after], rfl, acked.useRpcVersion.trans second, ?_, ?_⟩
    · change state.trace ++ [Event.returned .client after] = _
      rw [extended, List.append_assoc]
    · intro seen member
      rcases List.mem_append.mp member with old | new
      · exact acked.queue.trans (covers seen old)
      · cases List.mem_singleton.mp new
        exact List.suffix_refl _
  cases ended with
  | flushed acked empty => exact ⟨step _ acked, fun _ => ⟨_, rfl, empty⟩⟩
  | @unflushed after needResend acked full =>
    refine ⟨step _ acked, fun flagged => ?_⟩
    cases needResend with
    | true => cases flagged
    | false => cases flagged
  | waiting acked => trivial

/-- The new v2 client holds what the old one held when it was finished. -/
theorem handOver_second (env : ReconnectEnv) (state : CallState)
    (second : client.useRpcVersion = ServiceVersion.v2.code) :
    (handOver env client state).2.notackQueue = (client.finished env.finish).notackQueue ∧
      (handOver env client state).2.useRpcVersion = ServiceVersion.v2.code := by
  have same := (client.finished_useRpcVersion env.finish).trans second
  unfold handOver RpcClient.getContinueStatus RpcClient.setContinueStatus RpcClient.initSender
  simp [same, ServiceVersion.code]

theorem shrinks_reconnect (shrinks : Shrinks start state)
    (done : reconnect env state = .ok ret after) : Shrinks start after := by
  obtain ⟨client, events, found, second, extended, covers⟩ := shrinks
  obtain ⟨other, live, reconnected⟩ := reconnect_ok done
  rw [found] at live
  cases live
  obtain ⟨queue, version⟩ := handOver_second env state second
  obtain ⟨more, grown, kinds⟩ := reconnected.events
  refine ⟨_, events ++ more, reconnected.live, version, ?_, ?_⟩
  · rw [grown, extended, List.append_assoc]
  · intro seen member
    rw [queue]
    rcases List.mem_append.mp member with old | new
    · exact (client.finished_queue env.finish).trans (covers seen old)
    · rcases kinds _ new with (off | same | same) | same
      · cases off
      · cases same
        exact List.suffix_refl _
      · cases same
      · cases same
        exact queue ▸ List.suffix_refl _

theorem flushRefused_shrinks (initial : Shrinks start start)
    (reached : FlushRefused rounds start k last state) : Shrinks start state := by
  refine Refused.invariant (Shrinks start) reached initial ?_ ?_
  · intro i before middle shrinks tried
    have ended := shrinks_flushAttempt shrinks rounds i
    rw [tried] at ended
    exact ended.1
  · intro i middle value after shrinks repaired
    exact shrinks_reconnect shrinks repaired

theorem flush_exhausted (refused : FlushRefused rounds start maxRetry last final) :
    flush rounds start = .ok true final := by
  rw [flush_eq, retry_exhausted refused]

theorem flushExhausts_not_truthful (initial : Shrinks start start)
    (exhausts : FlushExhausts rounds start) : ¬ FlushTruthful rounds start := by
  obtain ⟨last, final, held, reached, holds, full⟩ := exhausts
  intro truthful
  unfold FlushTruthful at truthful
  rw [flush_exhausted reached] at truthful
  obtain ⟨seen, place, empty⟩ := truthful rfl
  obtain ⟨current, events, found, -, extended, covers⟩ := flushRefused_shrinks initial reached
  rw [holds] at found
  cases found
  rcases place with member | now
  · rw [extended, List.drop_left] at member
    have short := covers seen member
    rw [empty, List.suffix_nil] at short
    exact full short
  · rw [holds] at now
    cases now
    exact full empty

/-- `flush` is truthful exactly when its 120 rounds are not used up with packets left. -/
theorem flush_truthful (rounds : Nat → FlushRound) (start : CallState) (client : RpcClient)
    (live : start.channel.client = .live client)
    (second : client.useRpcVersion = ServiceVersion.v2.code) :
    FlushTruthful rounds start ↔ ¬ FlushExhausts rounds start := by
  have initial : Shrinks start start := ⟨client, [], live, second, by simp, by simp⟩
  constructor
  · intro truthful exhausts
    exact flushExhausts_not_truthful initial exhausts truthful
  · intro finite
    have ended : Lib.Retry.Ends (flushAttempt rounds) (fun i => reconnect (rounds i).reconnect) false
      start maxRetry _ := retry_ends maxRetry
    unfold FlushTruthful
    rw [flush_eq]
    revert ended
    generalize retry (flushAttempt rounds) (fun i => reconnect (rounds i).reconnect) 0 maxRetry
      false start = result
    intro ended
    cases ended with
    | @stopped k last before value after inside reached stop =>
      intro flagged
      subst flagged
      have attempted := shrinks_flushAttempt (flushRefused_shrinks initial reached) rounds k
      rw [stop] at attempted
      obtain ⟨current, found, empty⟩ := attempted.2 rfl
      exact ⟨current, Or.inr found, empty⟩
    | @exhausted last after reached =>
      intro _
      obtain ⟨current, events, found, -, -, -⟩ := flushRefused_shrinks initial reached
      refine ⟨current, Or.inr found, ?_⟩
      cases queue : current.notackQueue with
      | nil => rfl
      | cons packet rest =>
        have full : current.notackQueue ≠ [] := by simp [queue]
        exact absurd ⟨last, after, current, reached, found, full⟩ finite
    | attemptFailed _ _ _ => trivial
    | repairFailed _ _ _ _ => trivial

/-- The ack thread has ended with a packet left, and every reconnect succeeds. -/
def stalledRound : FlushRound where
  polls := [⟨⟨true, 0, true⟩, true, 0⟩]
  reconnect := quietReconnect

theorem flush_truthful_sample :
    FlushTruthful (fun _ => stalledRound) ⟨Channel.sample [lostPacket], [], []⟩ ↔
      ¬ FlushExhausts (fun _ => stalledRound) ⟨Channel.sample [lostPacket], [], []⟩ :=
  flush_truthful _ _ _ rfl rfl

/-- 120 reconnects without an ack end in a `flush` that returns true. -/
theorem flush_hides_packet :
    ¬ FlushTruthful (fun _ => stalledRound) ⟨Channel.sample [lostPacket], [], []⟩ := by
  have reached : ∃ trace, FlushRefused (fun _ => stalledRound)
      ⟨Channel.sample [lostPacket], [], []⟩ (119 + 1) true
      ⟨Channel.sample [lostPacket], [], trace⟩ := by
    refine refusedRounds_repeat ?_ 119
    intro i trace
    exact ⟨_, _, rfl, rfl⟩
  obtain ⟨trace, reached⟩ := reached
  exact flushExhausts_not_truthful ⟨_, [], rfl, rfl, by simp, by simp⟩
    ⟨true, _, _, reached, rfl, by simp⟩

end GaiaNet.Grpc
