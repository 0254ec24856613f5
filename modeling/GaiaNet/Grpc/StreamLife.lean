import GaiaNet.Grpc.FailedReconnect

/-! Over whole runs of a channel in Redis mode: streams are open while they are
written to and ended when their client is deleted. -/

namespace GaiaNet.Grpc

open Lib.Hoare Lib.Retry

/-- Nobody has ended the stream yet. -/
def Stream.Open (stream : Stream) : Prop := stream.writesDone = 0 ∧ stream.finished = 0

/-- One `WritesDone` and one `Finish`. -/
def Stream.Ended (stream : Stream) : Prop := stream.writesDone = 1 ∧ stream.finished = 1

theorem Stream.Open.finish (isOpen : Stream.Open stream) : stream.finish.Ended := by
  obtain ⟨done, finished⟩ := isOpen
  simp [Stream.finish, Stream.Ended, done, finished]

/-- A connected client has the stream it writes to; a deleted one has ended its streams. -/
def Event.Sound : Event → Prop
  | .returned .client client =>
    client.useRpcVersion ≠ ServiceVersion.notInited.code → client.target ≠ none
  | .deleted .client client =>
    ∀ stream, client.sender = some stream ∨ client.rwSender = some stream → stream.Ended
  | _ => True

theorem Event.Local.sound (isLocal : Event.Local event) : event.Sound := by
  cases event with
  | returned side client | deleted side client =>
    cases isLocal
    trivial
  | command command => trivial

structure StreamsSound (state : CallState) : Prop where
  current : ∀ client, state.channel.client = .live client →
    client.useRpcVersion ≠ ServiceVersion.notInited.code → client.target ≠ none
  trace : ∀ event ∈ state.trace, event.Sound

/-- A client between two calls: it holds exactly the stream of its version, open. -/
structure RpcClient.Tidy (client : RpcClient) : Prop where
  version : client.useRpcVersion = ServiceVersion.notInited.code ∨
    client.useRpcVersion = ServiceVersion.v1.code ∨ client.useRpcVersion = ServiceVersion.v2.code
  fresh : client.useRpcVersion = ServiceVersion.notInited.code → client.sender = none
  first : client.useRpcVersion = ServiceVersion.v1.code →
    ∃ stream, client.sender = some stream ∧ stream.Open
  below : client.useRpcVersion ≠ ServiceVersion.v2.code → client.rwSender = none ∧
    client.notackQueue = [] ∧ client.recvThread = false ∧ client.recvThreadStatus = .notInited
  second : client.useRpcVersion = ServiceVersion.v2.code → client.sender = none ∧
    ∃ stream, client.rwSender = some stream ∧ stream.Open

theorem RpcClient.tidy_first {client : RpcClient} (first : client.useRpcVersion = ServiceVersion.v1.code)
    (opened : client.sender = some stream) (isOpen : stream.Open)
    (rest : client.rwSender = none ∧ client.notackQueue = [] ∧ client.recvThread = false ∧
      client.recvThreadStatus = .notInited) : client.Tidy := by
  refine ⟨Or.inr (Or.inl first), ?_, fun _ => ⟨stream, opened, isOpen⟩, fun _ => rest, ?_⟩
  · intro fresh
    rw [first] at fresh
    cases fresh
  · intro second
    rw [first] at second
    cases second

theorem RpcClient.tidy_second {client : RpcClient}
    (second : client.useRpcVersion = ServiceVersion.v2.code) (noSender : client.sender = none)
    (opened : client.rwSender = some stream) (isOpen : stream.Open) : client.Tidy := by
  refine ⟨Or.inr (Or.inr second), ?_, ?_, fun low => absurd second low,
    fun _ => ⟨noSender, stream, opened, isOpen⟩⟩
  · intro fresh
    rw [second] at fresh
    cases fresh
  · intro first
    rw [second] at first
    cases first

theorem RpcClient.init_tidy (partyid toPartyid : UInt32) (useRedis : Bool) (env : Option Int) :
    (RpcClient.init partyid toPartyid useRedis env).Tidy := by
  refine ⟨Or.inl rfl, fun _ => rfl, ?_, fun _ => ⟨rfl, rfl, rfl, rfl⟩, ?_⟩
  · intro same
    cases same
  · intro same
    cases same

theorem RpcClient.Tidy.target {client : RpcClient} (tidy : client.Tidy)
    (set : client.useRpcVersion ≠ ServiceVersion.notInited.code) :
    ∃ stream, client.target = some stream ∧ stream.Open := by
  unfold RpcClient.target
  rcases tidy.version with fresh | first | second
  · exact absurd fresh set
  · obtain ⟨stream, opened, isOpen⟩ := tidy.first first
    refine ⟨stream, ?_, isOpen⟩
    simp [first, ServiceVersion.code, opened]
  · obtain ⟨-, stream, opened, isOpen⟩ := tidy.second second
    refine ⟨stream, ?_, isOpen⟩
    simp [second, opened]

theorem Heard.tidy (heard : Heard before after) (tidy : before.Tidy) : after.Tidy := by
  have sameVersion : after.useRpcVersion = before.useRpcVersion := by rw [heard.rest]
  have sameSender : after.sender = before.sender := by rw [heard.rest]
  have sameRwSender : after.rwSender = before.rwSender := by rw [heard.rest]
  refine ⟨?_, ?_, ?_, ?_, ?_⟩
  · rw [sameVersion]
    exact tidy.version
  · rw [sameVersion, sameSender]
    exact tidy.fresh
  · rw [sameVersion, sameSender]
    exact tidy.first
  · rw [sameVersion, sameRwSender, heard.recvThread]
    intro low
    obtain ⟨noStream, noQueue, noThread, unset⟩ := tidy.below low
    have short := heard.queue
    rw [noQueue, List.suffix_nil] at short
    exact ⟨noStream, short, noThread, (heard.idle noThread).trans unset⟩
  · rw [sameVersion, sameSender, sameRwSender]
    exact tidy.second

theorem versionLoop_range {replies : Nat → VersionReply}
    (positive : ∀ k version, replies k = .ok version → 1 ≤ version) (i remaining : Nat)
    (found : versionLoop replies i remaining = some version) :
    version = ServiceVersion.v1.code ∨ version = ServiceVersion.v2.code := by
  induction remaining generalizing i with
  | zero => cases found
  | succ remaining ih =>
    unfold versionLoop at found
    cases reply : replies i with
    | ok answer =>
      simp only [reply, Option.some.injEq] at found
      have low := positive i answer reply
      simp only [configSupportMaxVersion, ServiceVersion.code] at found ⊢
      omega
    | unimplemented =>
      simp only [reply, Option.some.injEq] at found
      exact Or.inl found.symm
    | failed =>
      simp only [reply] at found
      exact ih (i + 1) found

theorem RpcClient.Tidy.prepared {client : RpcClient} (tidy : client.Tidy)
    (positive : ∀ k version, versions k = .ok version → 1 ≤ version)
    (ready : client.prepared versions = some current) : current.Tidy := by
  unfold RpcClient.prepared at ready
  split at ready
  · rename_i fresh
    have unset : client.useRpcVersion ≠ ServiceVersion.v2.code :=
      ServiceVersion.code_ne fresh (by simp)
    unfold RpcClient.connect at ready
    split at ready
    · cases ready
    · rename_i version found
      split at ready
      · cases ready
      · cases ready
        rcases versionLoop_range positive 0 20 found with rfl | rfl
        · exact RpcClient.tidy_first rfl rfl ⟨rfl, rfl⟩ (tidy.below unset)
        · exact RpcClient.tidy_second rfl (tidy.fresh fresh) rfl ⟨rfl, rfl⟩
  · cases ready
    exact tidy

theorem RpcClient.Tidy.accept {client : RpcClient} (tidy : client.Tidy)
    (set : client.useRpcVersion ≠ ServiceVersion.notInited.code)
    (opened : client.target = some stream) (packet : Packet) :
    (client.accept stream packet).Tidy := by
  obtain ⟨other, found, isOpen⟩ := tidy.target set
  rw [opened] at found
  cases found
  rcases tidy.version with fresh | first | second
  · exact absurd fresh set
  · have low : ¬ client.useRpcVersion ≥ ServiceVersion.v2.code :=
      Int.not_le.mpr (ServiceVersion.code_lt first (by simp))
    have unset : client.useRpcVersion ≠ ServiceVersion.v2.code :=
      ServiceVersion.code_ne first (by simp)
    unfold RpcClient.accept
    rw [if_neg low]
    exact RpcClient.tidy_first first rfl isOpen (tidy.below unset)
  · have high : client.useRpcVersion ≥ ServiceVersion.v2.code := ServiceVersion.code_ge second
    unfold RpcClient.accept
    rw [if_pos high]
    exact RpcClient.tidy_second second (tidy.second second).1 rfl isOpen

theorem RpcClient.joined_streams (env : FinishEnv) (client : RpcClient) :
    (client.joined env).sender = client.sender ∧ (client.joined env).rwSender = client.rwSender ∧
      (client.joined env).target = client.target := by
  have once (run : AckRun) (client : RpcClient) : (client.ackThread run).sender = client.sender ∧
      (client.ackThread run).rwSender = client.rwSender ∧
      (client.ackThread run).target = client.target := by
    refine ⟨?_, ?_, (client.ackThread_acked run).target⟩ <;> rw [(client.ackThread_acked run).rest]
  have first := once env.thread client
  unfold RpcClient.joined
  simp only
  split
  · have last := once ⟨true, env.lastAcks, true⟩ (client.ackThread env.thread)
    exact ⟨last.1.trans first.1, last.2.1.trans first.2.1, last.2.2.trans first.2.2⟩
  · exact first

/-- `finish` ends every stream of a tidy client once. -/
theorem RpcClient.Tidy.finished {client : RpcClient} (tidy : client.Tidy) (env : FinishEnv) :
    (client.useRpcVersion ≠ ServiceVersion.notInited.code → (client.finished env).target ≠ none) ∧
      ∀ stream, (client.finished env).sender = some stream ∨
        (client.finished env).rwSender = some stream → stream.Ended := by
  unfold RpcClient.finished
  rcases tidy.version with fresh | first | second
  · have unset : client.useRpcVersion ≠ ServiceVersion.v2.code :=
      ServiceVersion.code_ne fresh (by simp)
    have notFirst : client.useRpcVersion ≠ ServiceVersion.v1.code := by
      rw [fresh]
      decide
    rw [if_neg notFirst, if_neg unset]
    refine ⟨fun set => absurd fresh set, ?_⟩
    rw [tidy.fresh fresh, (tidy.below unset).1]
    simp
  · have unset : client.useRpcVersion ≠ ServiceVersion.v2.code :=
      ServiceVersion.code_ne first (by simp)
    obtain ⟨stream, opened, isOpen⟩ := tidy.first first
    rw [if_pos first]
    refine ⟨fun _ => ?_, ?_⟩
    · simp [RpcClient.target, first, ServiceVersion.code, opened]
    · intro other held
      simp only [opened, (tidy.below unset).1, Option.map_some, Option.some.injEq, reduceCtorEq,
        or_false] at held
      rw [← held]
      exact isOpen.finish
  · have notFirst : client.useRpcVersion ≠ ServiceVersion.v1.code :=
      ServiceVersion.code_ne second (by simp)
    obtain ⟨noSender, stream, opened, isOpen⟩ := tidy.second second
    rw [if_neg notFirst, if_pos second]
    obtain ⟨sameSender, sameRwSender, sameTarget⟩ := RpcClient.joined_streams env
      { client with rwSender := client.rwSender.map Stream.finish }
    rw [sameSender, sameRwSender, sameTarget]
    refine ⟨fun _ => ?_, ?_⟩
    · simp [RpcClient.target, second, opened]
    · intro other held
      simp only [opened, noSender, Option.map_some, Option.some.injEq, reduceCtorEq, false_or] at held
      rw [← held]
      exact isOpen.finish

theorem resend_open {results : Nat → Bool} (i : Nat) (queue : List Packet) (stream : Stream)
    (isOpen : stream.Open) : (resend results i queue stream).2.Open := by
  induction queue generalizing i stream with
  | nil => exact isOpen
  | cons packet rest ih =>
    unfold resend
    split
    · exact ih (i + 1) _ isOpen
    · exact isOpen

theorem handOver_tidy (env : ReconnectEnv) (state : CallState)
    (second : client.useRpcVersion = ServiceVersion.v2.code) :
    (handOver env client state).2.Tidy ∧
      (handOver env client state).2.useRpcVersion = ServiceVersion.v2.code := by
  have same := (client.finished_useRpcVersion env.finish).trans second
  have high : (client.finished env.finish).useRpcVersion ≥ ServiceVersion.v2.code :=
    ServiceVersion.code_ge same
  unfold handOver RpcClient.getContinueStatus RpcClient.setContinueStatus
  simp only [if_pos high]
  have opened : Stream.opened.Open := ⟨rfl, rfl⟩
  refine ⟨RpcClient.tidy_second ?_ ?_ rfl (resend_open 0 _ _ opened), ?_⟩
  all_goals
    unfold RpcClient.initSender
    simp only [if_pos high]
  · exact same
  · rfl
  · exact same

/-- A channel in Redis mode between two calls on its client. -/
structure TidyChannel (state : CallState) : Prop where
  redis : state.channel.useRedis = true
  client : ∀ client, state.channel.client = .live client → client.Tidy
  trace : ∀ event ∈ state.trace, event.Sound

/-- A tidy channel whose client speaks v2: the only one that reconnects. -/
structure TidySecond (state : CallState) : Prop extends TidyChannel state where
  second : ∀ client, state.channel.client = .live client →
    client.useRpcVersion = ServiceVersion.v2.code

theorem TidyChannel.sound (tidy : TidyChannel state) : StreamsSound state := by
  refine ⟨fun client live set => ?_, tidy.trace⟩
  obtain ⟨stream, opened, -⟩ := (tidy.client client live).target set
  simp [opened]

theorem TidyChannel.setStr (tidy : TidyChannel state) (str : Bytes) :
    TidyChannel { state with str := str } :=
  ⟨tidy.redis, tidy.client, tidy.trace⟩

theorem TidyChannel.setStats (tidy : TidyChannel state) (stats : Statistics) :
    TidyChannel { state with channel := { state.channel with stats := stats } } :=
  ⟨tidy.redis, tidy.client, tidy.trace⟩

/-- A recorded call that leaves a tidy client leaves a tidy channel. -/
theorem TidyChannel.returned (tidy : TidyChannel state) (inner : ClientState)
    (after : inner.client.Tidy) :
    TidyChannel ((state.putBack .client inner).record (.returned .client inner.client)) := by
  refine ⟨tidy.redis, ?_, ?_⟩
  · intro client live
    cases live
    exact after
  · intro event member
    rcases List.mem_append.mp member with old | new
    · exact tidy.trace event old
    · cases List.mem_singleton.mp new
      intro set
      obtain ⟨stream, opened, -⟩ := after.target set
      simp [opened]

theorem TidyChannel.putBack (tidy : TidyChannel state) (inner : ClientState)
    (after : inner.client.Tidy) : TidyChannel (state.putBack .client inner) := by
  refine ⟨tidy.redis, ?_, tidy.trace⟩
  intro client live
  cases live
  exact after

/-- The events of ending a tidy v2 client are sound. -/
theorem RpcClient.Tidy.oldClientEvent {client : RpcClient} (tidy : client.Tidy)
    (set : client.useRpcVersion ≠ ServiceVersion.notInited.code)
    (kind : OldClientEvent env client event) : event.Sound := by
  obtain ⟨finishedTarget, finishedStreams⟩ := tidy.finished env.finish
  rcases kind with off | rfl | rfl
  · exact off.sound
  · exact fun _ => finishedTarget set
  · intro stream held
    have sameStreams : (client.finished env.finish).getContinueStatus.2.sender =
        (client.finished env.finish).sender ∧
        (client.finished env.finish).getContinueStatus.2.rwSender =
          (client.finished env.finish).rwSender := by
      unfold RpcClient.getContinueStatus
      split <;> exact ⟨rfl, rfl⟩
    rw [sameStreams.1, sameStreams.2] at held
    exact finishedStreams stream held

theorem TidySecond.set (tidy : TidySecond state) (live : state.channel.client = .live client) :
    client.useRpcVersion ≠ ServiceVersion.notInited.code :=
  ServiceVersion.code_ne (tidy.second client live) (by simp)

theorem tidy_reconnect (tidy : TidySecond state)
    (done : reconnect env state = .ok ret after) : TidySecond after := by
  obtain ⟨client, live, reconnected⟩ := reconnect_ok done
  obtain ⟨new, newSecond⟩ := handOver_tidy env state (tidy.second client live)
  refine ⟨⟨reconnected.frame.useRedis.trans tidy.redis, ?_, ?_⟩, ?_⟩
  · intro other held
    rw [reconnected.live] at held
    cases held
    exact new
  · intro event member
    rcases reconnected.events.mem member with old | kind | rfl
    · exact tidy.trace event old
    · exact (tidy.client client live).oldClientEvent (tidy.set live) kind
    · intro isSet
      obtain ⟨stream, opened, -⟩ := new.target isSet
      simp [opened]
  · intro other held
    rw [reconnected.live] at held
    cases held
    exact newSecond

/-- A reconnect that ends in undefined behaviour has left the streams sound. -/
theorem sound_reconnect_fault (tidy : TidySecond state)
    (failed : reconnect env state = .error (.fault fault) after) : StreamsSound after := by
  cases found : state.channel.client with
  | null | dangling =>
    obtain ⟨other, stuck⟩ := reconnect_notLive env state (by simp [found])
    rw [failed] at stuck
    cases stuck
    exact tidy.sound
  | live client =>
    have old := tidy.client client found
    have set := tidy.set found
    have ended := reconnect_ends env found
    rw [failed] at ended
    cases ended with
    | fault stuck half =>
      constructor
      · intro other live otherSet
        rcases half.holder with gone | same | moved
        · rw [gone] at live
          cases live
        · rw [same] at live
          cases live
          obtain ⟨stream, opened, -⟩ := old.target set
          simp [opened]
        · rw [moved] at live
          cases live
          have sameTarget : (client.finished env.finish).getContinueStatus.2.target =
              (client.finished env.finish).target := by
            unfold RpcClient.getContinueStatus
            split <;> rfl
          rw [sameTarget]
          exact (old.finished env.finish).1 set
      · intro event member
        rcases half.trace.mem member with before | kind
        · exact tidy.trace event before
        · exact old.oldClientEvent set kind

/-- What an attempt leaves of a tidy channel: a refusal needs v2. -/
def TidyEnds (result : EStateM.Result Abort CallState (Option Bool)) : Prop :=
  Ends (fun verdict after => TidyChannel after ∧ (verdict = none → TidySecond after))
    (fun _ after => TidyChannel after) result

/-- A method that keeps clients tidy keeps the channel tidy. -/
theorem onClient_tidy (prog : ClientM Value) (wrap : Value → Option Bool)
    (tidy : TidyChannel state)
    (kept : ∀ client, state.channel.client = .live client → client.Tidy →
      Ends (fun value inner => inner.client.Tidy ∧
          (wrap value = none → inner.client.useRpcVersion = ServiceVersion.v2.code))
        (fun _ inner => inner.client.Tidy) (prog ⟨client, state.str⟩)) :
    TidyEnds ((onClient .client prog >>= fun value => pure (wrap value) :
      CallM (Option Bool)) state) := by
  rw [run_bind]
  cases found : state.channel.client with
  | null | dangling =>
    obtain ⟨fault, failed⟩ := onClient_notLive prog .client state (by simp [Channel.handle, found])
    rw [failed]
    exact tidy
  | live client =>
    have held : state.channel.handle .client = .live client := found
    have called := kept client found (tidy.client client found)
    rw [onClient_live _ held]
    cases result : prog ⟨client, state.str⟩ with
    | ok value inner =>
      rw [result] at called
      have after := tidy.returned inner called.1
      refine ⟨after, fun refused => ⟨after, ?_⟩⟩
      intro other live
      cases live
      exact called.2 refused
    | error abort inner =>
      rw [result] at called
      exact tidy.putBack inner called

/-- Only a v2 client has packets in its queue. -/
theorem RpcClient.Tidy.second_of_queue {client : RpcClient} (tidy : client.Tidy)
    (full : client.notackQueue ≠ []) : client.useRpcVersion = ServiceVersion.v2.code := by
  by_cases second : client.useRpcVersion = ServiceVersion.v2.code
  · exact second
  · exact absurd (tidy.below second).2.1 full

theorem recvAttempt_tidy (tidy : TidyChannel state) (rounds : Nat → RecvRound) (i : Nat) :
    TidyEnds (recvAttempt rounds i state) := by
  refine onClient_tidy (recv state.channel.channelId true (rounds i).recv) _ tidy ?_
  intro client live old
  have ended := recv_ends state.channel.channelId true (rounds i).recv client state.str
  revert ended
  generalize recv state.channel.channelId true (rounds i).recv ⟨client, state.str⟩ = result
  intro ended
  cases ended with
  | delivered heard ret =>
    have after := heard.tidy old
    exact ⟨⟨after.version, after.fresh, after.first, after.below, after.second⟩, by simp [ret]⟩
  | @refused after result heard ret why =>
    refine ⟨heard.tidy old, fun again => ?_⟩
    have needed : result.needResend = true := by
      cases flag : result.needResend with
      | true => rfl
      | false => simp [ret, flag] at again
    exact (heard.tidy old).second_of_queue (why needed)
  | aborted heard own => exact heard.tidy old

theorem flushAttempt_tidy (tidy : TidyChannel state) (rounds : Nat → FlushRound) (i : Nat) :
    TidyEnds (flushAttempt rounds i state) := by
  refine onClient_tidy (waitFlush flushMsec (rounds i).polls) _ tidy ?_
  intro client live old
  have ended := waitFlush_ends flushMsec (rounds i).polls client state.str
  revert ended
  generalize waitFlush flushMsec (rounds i).polls ⟨client, state.str⟩ = result
  intro ended
  cases ended with
  | flushed acked empty => exact ⟨acked.heard.tidy old, by simp⟩
  | unflushed acked full =>
    exact ⟨acked.heard.tidy old, fun _ => (acked.heard.tidy old).second_of_queue full⟩
  | waiting acked => exact acked.heard.tidy old

/-- Every version a server answers with is at least 1, and a `Send` on a v1 client
does not fail to write. -/
structure SteadySend (env : SendEnv) (state : CallState) : Prop where
  positive : ∀ k version, env.versions k = .ok version → 1 ≤ version
  written : ∀ client current, state.channel.client = .live client →
    client.prepared env.versions = some current →
    current.useRpcVersion = ServiceVersion.v1.code → env.write = true

theorem sendAttempt_tidy (tidy : TidyChannel state) (rounds : Nat → SendRound) (i : Nat)
    (steady : SteadySend (rounds i).send state) : TidyEnds (sendAttempt rounds i state) := by
  refine onClient_tidy (send state.channel.channelId (rounds i).send) _ tidy ?_
  intro client live old
  have ended := send_ends state.channel.channelId (rounds i).send client state.str
  revert ended
  generalize send state.channel.channelId (rounds i).send ⟨client, state.str⟩ = result
  intro ended
  cases ended with
  | unconnected failed => exact old
  | @streamEnded current ready closed =>
    have connected := old.prepared steady.positive ready
    have after := (current.ackThread_acked (rounds i).send.thread).heard.tidy connected
    refine ⟨after, fun _ => ?_⟩
    by_cases second : (current.ackThread (rounds i).send.thread).useRpcVersion =
        ServiceVersion.v2.code
    · exact second
    · have idle := (after.below second).2.2.2
      rw [closed] at idle
      cases idle
  | @writeFailed current stream ready running opened failed =>
    have connected := old.prepared steady.positive ready
    have acked := current.ackThread_acked (rounds i).send.thread
    refine ⟨acked.heard.tidy connected, fun _ => ?_⟩
    rw [acked.useRpcVersion]
    rcases connected.version with fresh | first | second
    · exact absurd fresh (RpcClient.prepared_connected ready)
    · have written := steady.written client current live ready first
      rw [failed] at written
      cases written
    · exact second
  | @accepted current stream ready running opened written =>
    have connected := old.prepared steady.positive ready
    have acked := current.ackThread_acked (rounds i).send.thread
    refine ⟨(acked.heard.tidy connected).accept ?_ ?_ _, by simp⟩
    · rw [acked.useRpcVersion]
      exact RpcClient.prepared_connected ready
    · rw [acked.target]
      exact opened
  | @nullStream current ready running closed =>
    have connected := old.prepared steady.positive ready
    obtain ⟨stream, opened, -⟩ := connected.target (RpcClient.prepared_connected ready)
    rw [closed] at opened
    cases opened

/-- What an operation leaves of a tidy channel: sound streams always, and a tidy channel
where the application can go on. -/
def KeepsTidy : EStateM.Result Abort CallState Value → Prop :=
  Ends (fun _ after => TidyChannel after)
    (fun abort after => StreamsSound after ∧
      ∀ exception, abort = .thrown exception → TidyChannel after)

/-- The loop rule: attempts that keep the channel tidy, at the start and on v2 clients. -/
theorem tidy_loop {attempt : Nat → CallM (Option Bool)} {envs : Nat → ReconnectEnv}
    (tidy : TidyChannel start) (connected : ∀ i, (envs i).connected = true)
    (atStart : TidyEnds (attempt 0 start))
    (later : ∀ i state, TidySecond state → TidyEnds (attempt i state)) :
    KeepsTidy (retry attempt (fun i => reconnect (envs i)) 0 maxRetry false start) := by
  have tried (i : Nat) (state : CallState) (inside : state = start ∧ i = 0 ∨ TidySecond state) :
      TidyEnds (attempt i state) := by
    rcases inside with ⟨rfl, rfl⟩ | second
    · exact atStart
    · exact later i state second
  have reached {k : Nat} {last : Bool} {state : CallState}
      (rounds : RefusedRounds attempt envs start k last state) :
      state = start ∧ k = 0 ∨ TidySecond state := by
    refine Refused.rule (fun i state => state = start ∧ i = 0 ∨ TidySecond state)
      (fun _ middle => TidySecond middle) rounds (Or.inl ⟨rfl, rfl⟩) ?_ ?_
    · intro i before middle inside refused
      have ended := tried i before inside
      rw [refused] at ended
      exact ended.2 rfl
    · intro i middle value after second repaired
      exact Or.inr (tidy_reconnect second repaired)
  have ended : Lib.Retry.Ends attempt (fun i => reconnect (envs i)) false start maxRetry _ :=
    retry_ends maxRetry
  revert ended
  generalize retry attempt (fun i => reconnect (envs i)) 0 maxRetry false start = result
  intro ended
  cases ended with
  | stopped inside rounds stop =>
    have attempted := tried _ _ (reached rounds)
    rw [stop] at attempted
    exact attempted.1
  | exhausted rounds =>
    rcases reached rounds with ⟨rfl, -⟩ | second
    · exact tidy
    · exact second.toTidyChannel
  | attemptFailed inside rounds failed =>
    have attempted := tried _ _ (reached rounds)
    rw [failed] at attempted
    exact ⟨TidyChannel.sound attempted, fun _ _ => attempted⟩
  | @repairFailed k last before middle abort after inside rounds refused failed =>
    have attempted := tried _ _ (reached rounds)
    rw [refused] at attempted
    obtain ⟨-, ⟨⟨fault, rfl⟩, -⟩ | ⟨-, -, offline, -⟩⟩ := reconnect_error failed
    · exact ⟨sound_reconnect_fault (attempted.2 rfl) failed, fun exception same => by cases same⟩
    · rw [connected k] at offline
      cases offline

/-- The operations of an application on a channel, with what they meet. -/
inductive Operation where
  | send (message : Bytes) (rounds : Nat → SendRound)
  | recv (str : Bytes) (rounds : Nat → RecvRound)
  | flush (rounds : Nat → FlushRound)
  | destroy (polls : List FlushPoll) (env : DestroyEnv)

def Operation.run (state : CallState) : Operation → EStateM.Result Abort CallState Unit
  | .send message rounds => realSend rounds { state with str := message }
  | .recv str rounds => realRecv [] rounds { state with str := str }
  | .flush rounds => (do let _ ← Grpc.flush rounds : CallM Unit) state
  | .destroy polls env => destructor polls env state

/-- The application catches exceptions and goes on. -/
def Operation.next (op : Operation) (state : CallState) : Option CallState :=
  match op.run state with
  | .ok _ after => some after
  | .error (.thrown _) after => some after
  | .error _ _ => none

/-- Every `create_channel` of a reconnect succeeds and no server answers version -1. -/
def Operation.Reconnects : Operation → Prop
  | .send _ rounds => ∀ i, (rounds i).reconnect.connected = true ∧
    ∀ k, (rounds i).send.versions k ≠ .ok ServiceVersion.notInited.code
  | .recv _ rounds => ∀ i, (rounds i).reconnect.connected = true
  | .flush rounds => ∀ i, (rounds i).reconnect.connected = true
  | .destroy _ _ => True

/-- In a `send` every version answered is at least 1, and the first `Send` on a v1
client does not fail to write. -/
def Operation.Steady (state : CallState) : Operation → Prop
  | .send message rounds => SteadySend (rounds 0).send { state with str := message } ∧
    ∀ i k version, (rounds i).send.versions k = .ok version → 1 ≤ version
  | _ => True

/-- The states between the operations of a run whose steps are all allowed. -/
inductive Runs (allowed : Operation → CallState → Prop) (start : CallState) : CallState → Prop where
  | created : Runs allowed start start
  | step (before : Runs allowed start state) (may : allowed op state)
      (moved : op.next state = some after) : Runs allowed start after

/-- The states of a run, with those in which its last operation waits or has met
undefined behaviour. -/
inductive Reached (allowed : Operation → CallState → Prop) (start : CallState) : CallState → Prop where
  | between (run : Runs allowed start state) : Reached allowed start state
  | inside (run : Runs allowed start state) (may : allowed op state) :
    Reached allowed start (finalState (op.run state))

theorem KeepsTidy.next {op : Operation} (kept : KeepsTidy (op.run state))
    (moved : op.next state = some after) : TidyChannel after := by
  unfold Operation.next at moved
  cases result : op.run state with
  | ok value final =>
    rw [result] at kept moved
    cases moved
    exact kept
  | error abort final =>
    rw [result] at kept moved
    cases abort with
    | thrown exception =>
      cases moved
      exact kept.2 exception rfl
    | fault fault => cases moved
    | pending => cases moved

theorem KeepsTidy.final {result : EStateM.Result Abort CallState Value} (kept : KeepsTidy result) :
    StreamsSound (finalState result) := by
  cases result with
  | ok value after => exact TidyChannel.sound kept
  | error abort after => exact kept.1

/-- What a call makes of the end of its loop is as tidy. -/
theorem Concludes.keepsTidy (concluded : Concludes ending result) (looped : KeepsTidy ending) :
    KeepsTidy result := by
  cases concluded with
  | failed => exact looped
  | threw => exact ⟨TidyChannel.sound looped, fun _ _ => looped⟩
  | returned stats => exact TidyChannel.setStats looped stats

theorem realSend_tidy (tidy : TidyChannel start)
    (connected : ∀ i, (rounds i).reconnect.connected = true)
    (positive : ∀ i k version, (SendRound.send (rounds i)).versions k = .ok version → 1 ≤ version)
    (steady : SteadySend (rounds 0).send start) :
    KeepsTidy (realSend rounds start) := by
  have looped := tidy_loop tidy connected (sendAttempt_tidy tidy rounds 0 steady)
    fun i state second => sendAttempt_tidy second.toTidyChannel rounds i
      ⟨positive i, fun client current live ready first => by
        have speaks := second.second client live
        unfold RpcClient.prepared at ready
        rw [if_neg (ServiceVersion.code_ne speaks (by simp))] at ready
        cases ready
        rw [first] at speaks
        cases speaks⟩
  exact (run_concludes (Caller.loops_redis (.realSend rounds) tidy.redis)).keepsTidy looped

theorem realRecv_tidy (tidy : TidyChannel start)
    (connected : ∀ i, (rounds i).reconnect.connected = true) :
    KeepsTidy (realRecv [] rounds start) := by
  have looped := tidy_loop tidy connected (recvAttempt_tidy tidy rounds 0)
    fun i state second => recvAttempt_tidy second.toTidyChannel rounds i
  exact (run_concludes (Caller.loops_redis (.realRecv [] rounds) tidy.redis)).keepsTidy looped

theorem flush_tidy (tidy : TidyChannel start)
    (connected : ∀ i, (rounds i).reconnect.connected = true) :
    KeepsTidy (Caller.run (.flush rounds) start) := by
  have looped := tidy_loop tidy connected (flushAttempt_tidy tidy rounds 0)
    fun i state second => flushAttempt_tidy second.toTidyChannel rounds i
  exact (run_concludes (Caller.loops_redis (.flush rounds) tidy.redis)).keepsTidy looped

theorem RpcClient.Tidy.canFinish {client : RpcClient} (tidy : client.Tidy) : client.CanFinish := by
  constructor
  · intro first
    obtain ⟨stream, opened, -⟩ := tidy.first first
    simp [opened]
  · intro second
    obtain ⟨-, stream, opened, -⟩ := tidy.second second
    simp [opened]

theorem keepsTidy_stopped {after : CallState} (sound : StreamsSound after)
    (stopped : ∀ exception, abort ≠ .thrown exception) :
    KeepsTidy (.error abort after : EStateM.Result Abort CallState Value) :=
  ⟨sound, fun exception same => absurd same (stopped exception)⟩

theorem TidyChannel.sound_finished {client : RpcClient} (tidy : TidyChannel state)
    (found : state.channel.client = .live client)
    (env : FinishEnv) : StreamsSound (state.finished .client env client) := by
  obtain ⟨finishedTarget, -⟩ := (tidy.client client found).finished env
  constructor
  · intro other live set
    cases live
    rw [client.finished_useRpcVersion] at set
    exact finishedTarget set
  · intro event member
    rcases (finished_extends env client state .client).mem member with old | rfl | ⟨command, rfl⟩
    · exact tidy.trace event old
    · intro set
      rw [client.finished_useRpcVersion] at set
      exact finishedTarget set
    · trivial

theorem destroyChannel_tidy (tidy : TidyChannel state) (env : DestroyEnv) :
    KeepsTidy (destroyChannel env state) := by
  unfold destroyChannel
  simp only [run_bind, run_get, tidy.redis, not_true_eq_false, if_false, run_pure, run_ite]
  cases found : state.channel.client with
  | null =>
    simp only [ne_eq, not_true_eq_false, if_false]
    exact tidy
  | dangling =>
    have absent : ∀ client, state.channel.handle .client ≠ .live client := by
      simp [Channel.handle, found]
    obtain ⟨fault, failed⟩ := finishClient_notLive env.finish absent
    simp only [ne_eq, reduceCtorEq, not_false_eq_true, if_true, failed]
    exact keepsTidy_stopped tidy.sound (by simp)
  | live client =>
    have held : state.channel.handle .client = .live client := found
    have old := tidy.client client found
    have sound := tidy.sound_finished found env.finish
    have later : (state.finished .client env.finish client).channel.handle .client =
        .live (client.finished env.finish) := rfl
    simp only [ne_eq, reduceCtorEq, not_false_eq_true, if_true,
      finishClient_open held old.canFinish]
    cases joined : (client.finished env.finish).recvThread with
    | true =>
      rw [deleteClient_joinable later joined]
      exact keepsTidy_stopped sound (by simp)
    | false =>
      rw [deleteClient_joined later joined]
      refine ⟨tidy.redis, (fun client live => by cases live), ?_⟩
      intro event member
      rcases List.mem_append.mp member with before | last
      · exact sound.trace event before
      · cases List.mem_singleton.mp last
        exact (old.finished env.finish).2

theorem destructor_tidy (tidy : TidyChannel start) (polls : List FlushPoll) (env : DestroyEnv) :
    KeepsTidy (destructor polls env start) := by
  unfold destructor
  simp only [run_bind, run_get, run_ite]
  cases found : start.channel.client with
  | null =>
    simp only [ne_eq, not_true_eq_false, if_false]
    exact destroyChannel_tidy tidy env
  | dangling =>
    simp only [ne_eq, reduceCtorEq, not_false_eq_true, if_true]
    unfold withClient
    simp only [Channel.handle, found]
    exact keepsTidy_stopped tidy.sound (by simp)
  | live client =>
    have held : start.channel.handle .client = .live client := found
    have asked : withClient .client (do return decide ((← get).client.notackQueue = [])) start =
        .ok (decide (client.notackQueue = [])) start := by
      unfold withClient
      rw [held]
      simp only [run_bind, run_get, run_pure, putBack_same held]
    simp only [ne_eq, reduceCtorEq, not_false_eq_true, if_true, asked]
    split
    · have ended := waitFlush_ends flushMsec polls client start.str
      rw [onClient_live _ held]
      revert ended
      generalize waitFlush flushMsec polls ⟨client, start.str⟩ = result
      intro ended
      have old := tidy.client client found
      cases ended with
      | flushed acked _ | unflushed acked _ =>
        exact destroyChannel_tidy (tidy.returned _ (acked.heard.tidy old)) env
      | waiting acked =>
        exact keepsTidy_stopped (tidy.putBack _ (acked.heard.tidy old)).sound (by simp)
    · exact destroyChannel_tidy tidy env

theorem Operation.keepsTidy (tidy : TidyChannel state) (reconnects : Operation.Reconnects op)
    (steady : op.Steady state) : KeepsTidy (op.run state) := by
  cases op with
  | send message rounds =>
    exact realSend_tidy (tidy.setStr message) (fun i => (reconnects i).1) steady.2 steady.1
  | recv str rounds => exact realRecv_tidy (tidy.setStr str) reconnects
  | flush rounds => exact flush_tidy tidy reconnects
  | destroy polls env => exact destructor_tidy tidy polls env

theorem runs_tidy (tidy : TidyChannel start)
    (run : Runs (fun op state => op.Reconnects ∧ op.Steady state) start state) :
    TidyChannel state := by
  induction run with
  | created => exact tidy
  | step _ may moved ih => exact (Operation.keepsTidy ih may.1 may.2).next moved

theorem created_tidy (made : createChannel true ⟨Channel.init fromParty toParty taskid serverAddress
    true metaMap redisTimeoutEnv, [], []⟩ = .ok ⟨⟩ start) : TidyChannel start := by
  cases made
  refine ⟨rfl, fun client live => ?_, fun event member => by cases member⟩
  cases live
  exact RpcClient.init_tidy _ _ _ _

/-- In every run of a channel in Redis mode whose sends are steady, streams are open while
they are written to and ended once when their client is deleted. -/
theorem streams_opened_and_ended (fromParty toParty : UInt32) (taskid serverAddress : String)
    (metaMap : List (String × String)) (redisTimeoutEnv : Option Int) (start state : CallState)
    (made : createChannel true ⟨Channel.init fromParty toParty taskid serverAddress true metaMap
      redisTimeoutEnv, [], []⟩ = .ok ⟨⟩ start)
    (reached : Reached (fun op state => op.Reconnects ∧ op.Steady state) start state) :
    StreamsSound state := by
  have tidy := created_tidy made
  cases reached with
  | between run => exact (runs_tidy tidy run).sound
  | inside run may => exact (Operation.keepsTidy (runs_tidy tidy run) may.1 may.2).final

/-- A channel of parties 1 and 2 just constructed. -/
def Channel.created : CallState :=
  finalState (createChannel true ⟨Channel.init 1 2 "task" "server" true [] none, [], []⟩)

/-- A server answers to `get_version`, and every `Write` ends alike. -/
def answeredRound (reply : VersionReply) (write : Bool) : SendRound where
  send := { versions := fun _ => reply, thread := ⟨true, 0, false⟩, write := write }
  reconnect := quietReconnect

/-- The `Write` of the first round fails. -/
def resentPacket : Operation := .send [7] fun i => answeredRound (.ok 2) (i ≠ 0)

/-- The channel with its second client. -/
def CallState.resent : CallState := finalState (resentPacket.run Channel.created)

/-- The end of the channel, its packet acknowledged. -/
def ackedEnd : Operation := .destroy [⟨⟨true, 1, false⟩, true, 0⟩] quietReconnect.destroy

/-- The v2 streams of the clients that were deleted. -/
def CallState.endedStreams (state : CallState) : List Stream :=
  state.trace.filterMap fun
    | .deleted .client client => client.rwSender
    | _ => none

/-- Both clients of the v2 channel, the one whose `Write` failed and the next, end their stream. -/
theorem streams_opened_and_ended_v2 :
    StreamsSound (finalState (ackedEnd.run .resent)) ∧
      (finalState (ackedEnd.run .resent)).endedStreams.map
        (fun stream => (stream.written.map Packet.body, stream.writesDone, stream.finished)) =
          [([], 1, 1), ([[7]], 1, 1)] := by
  have reconnects : resentPacket.Reconnects := fun i => ⟨rfl, fun k same => by cases same⟩
  have steady : resentPacket.Steady Channel.created := by
    refine ⟨⟨?_, ?_⟩, ?_⟩
    · intro k version same
      cases same
      decide
    · intro client current live ready first
      cases live
      cases ready
      cases first
    · intro i k version same
      cases same
      decide
  have moved : resentPacket.next Channel.created = some .resent := by decide +kernel
  refine ⟨?_, by decide +kernel⟩
  exact streams_opened_and_ended 1 2 "task" "server" [] none _ _ rfl
    (.inside (.step .created ⟨reconnects, steady⟩ moved) ⟨trivial, trivial⟩)

/-- The client of version 0 that has sent `lostPacket`. -/
def RpcClient.zero : RpcClient :=
  { RpcClient.init 1 2 true none with useRpcVersion := 0, sender := some ⟨[lostPacket], 0, 0⟩ }

/-- A failed write on a v1 client leaves the next client without a stream, and the stream
of version 0 is never ended. -/
theorem streams_missing_or_left_open :
    (∃ state, Reached (fun op _ => op.Reconnects) Channel.created state ∧
      ∃ client, state.channel.client = .live client ∧
        client.useRpcVersion ≠ ServiceVersion.notInited.code ∧ client.target = none) ∧
    ∃ state, Reached (fun op _ => op.Reconnects) Channel.created state ∧
      ∃ client stream, .deleted .client client ∈ state.trace ∧ client.sender = some stream ∧
        ¬ stream.Ended := by
  constructor
  · have allowed : Operation.Reconnects (.send [7] fun _ => answeredRound .unimplemented false) :=
      fun i => ⟨rfl, fun k same => by cases same⟩
    refine ⟨_, .inside .created allowed,
      { RpcClient.init 1 2 true none with useRpcVersion := ServiceVersion.v1.code }, ?_⟩
    decide +kernel
  · have allowed : Operation.Reconnects (.send [7] fun _ => answeredRound (.ok 0) true) :=
      fun i => ⟨rfl, fun k same => by cases same⟩
    have sent : (Operation.send [7] fun _ => answeredRound (.ok 0) true).next Channel.created =
        some (finalState ((Operation.send [7] fun _ => answeredRound (.ok 0) true).run
          Channel.created)) := by
      decide +kernel
    have destroys : Operation.Reconnects (.destroy [] quietReconnect.destroy) := trivial
    refine ⟨_, .inside (.step .created allowed sent) destroys, RpcClient.zero,
      ⟨[lostPacket], 0, 0⟩, by decide +kernel, rfl, fun ended => ?_⟩
    cases ended.1

end GaiaNet.Grpc
