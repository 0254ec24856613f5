import GaiaNet.Grpc.Ownership

/-! The usage report of a channel in Redis mode: each `finish` writes the counters and
announces them, the one at the end of the channel and the one of every reconnect. -/

namespace GaiaNet.Grpc

open Lib.Hoare Lib.Retry Lib.Transition

/-- The hashes of Redis, by key and field. -/
abbrev Hashes := String → String → Option String

def RedisCommand.store (hashes : Hashes) : RedisCommand → Hashes
  | .hset key fields => fields.foldl (fun hashes pair otherKey field =>
      if otherKey = key ∧ field = pair.1 then some pair.2 else hashes otherKey field) hashes
  | .expire _ _ | .lpush _ _ => hashes

def Event.store (hashes : Hashes) : Event → Hashes
  | .command sent => sent.store hashes
  | .returned _ _ | .deleted _ _ => hashes

/-- The hashes after the commands of a trace. -/
def stored (hashes : Hashes) (trace : List Event) : Hashes := trace.foldl Event.store hashes

/-- The four counters stand in the hash of a key. -/
structure Counted (key : String) (stats : Statistics) (hashes : Hashes) : Prop where
  bytesRecv : hashes key "recv_bytes" = some (toString stats.bytesRecv)
  packetRecv : hashes key "recv_packet" = some (toString stats.packetRecv)
  bytesSend : hashes key "send_bytes" = some (toString stats.bytesSend)
  packetSend : hashes key "send_packet" = some (toString stats.packetSend)

/-- The key is pushed to the notify list once, when its hash holds the counters that the
channel has at the end. -/
def ReportedOnce (notifyKey key : String) (hashes : Hashes) (final : CallState) : Prop :=
  ∃ early late, final.trace = early ++ .command (.lpush notifyKey key) :: late ∧
    .command (.lpush notifyKey key) ∉ early ∧ .command (.lpush notifyKey key) ∉ late ∧
    Counted key final.channel.stats (stored hashes early)

/-- A call of the application whose reconnects find the server and meet no Redis error. -/
structure QuietCall where
  str : Bytes
  caller : Caller
  connected : ∀ i, (caller.reconnects i).connected = true
  noError : ∀ i, (caller.reconnects i).finish.redisError = none

def QuietCall.next (call : QuietCall) : CallState → Option CallState :=
  (Use.call call.str call.caller).next

/-- The first attempt of the call does not ask for a reconnect. -/
def QuietCall.Unbroken (call : QuietCall) (state : CallState) : Prop :=
  ∀ middle, call.caller.attempt 0 { state with str := call.str } ≠ .ok none middle

/-- The client carries the parties and the mode of its channel. -/
structure RpcClient.Serves (channel : Channel) (client : RpcClient) : Prop where
  partyid : client.partyid = channel.fromParty
  toPartyid : client.toPartyid = channel.toParty
  useRedis : client.useRedis = channel.useRedis

/-- The channel is as it was made, but for its client, which is live, and its counters. -/
structure Serving (channel : Channel) (state : CallState) : Prop where
  rest : state.channel = { channel with
    client := state.channel.client, rcvClient := state.channel.rcvClient, stats := state.channel.stats }
  client : ∃ client, state.channel.client = .live client ∧ client.Serves channel

theorem Heard.serves (heard : Heard before after) (serves : before.Serves channel) :
    after.Serves channel := by
  rw [heard.rest]
  exact ⟨serves.partyid, serves.toPartyid, serves.useRedis⟩

theorem RpcClient.initSender_serves {client : RpcClient} (serves : client.Serves channel) :
    client.initSender.Serves channel := by
  unfold RpcClient.initSender
  split <;> exact ⟨serves.partyid, serves.toPartyid, serves.useRedis⟩

theorem RpcClient.prepared_serves {client : RpcClient} (serves : client.Serves channel)
    (ready : client.prepared versions = some current) : current.Serves channel := by
  unfold RpcClient.prepared RpcClient.connect at ready
  split at ready
  · split at ready
    · cases ready
    · split at ready
      · cases ready
      · cases ready
        exact RpcClient.initSender_serves ⟨serves.partyid, serves.toPartyid, serves.useRedis⟩
  · cases ready
    exact serves

/-- A call on a client that leaves it with its parties and its mode. -/
def KeepsServing (channel : Channel) (prog : ClientM Value) : Prop :=
  Keeps (fun inner => inner.client.Serves channel) prog

theorem send_keepsServing (channel : Channel) (taskid : String) (env : SendEnv) :
    KeepsServing channel (send taskid env) := by
  rintro ⟨client, content⟩ serves
  have ended := send_ends taskid env client content
  revert ended
  generalize send taskid env ⟨client, content⟩ = result
  intro ended
  have thread {current : RpcClient} (ready : client.prepared env.versions = some current) :
      (current.ackThread env.thread).Serves channel :=
    (current.ackThread_acked env.thread).heard.serves (RpcClient.prepared_serves serves ready)
  cases ended with
  | unconnected _ => exact serves
  | nullStream ready _ _ | streamEnded ready _ | writeFailed ready _ _ _ => exact thread ready
  | accepted ready _ _ _ =>
    have kept := thread ready
    unfold RpcClient.accept
    split <;> exact ⟨kept.partyid, kept.toPartyid, kept.useRedis⟩

theorem recv_keepsServing (channel : Channel) (taskid : String) (withResend : Bool) (env : RecvEnv) :
    KeepsServing channel (recv taskid withResend env) := by
  rintro ⟨client, content⟩ serves
  have ended := recv_ends taskid withResend env client content
  revert ended
  generalize recv taskid withResend env ⟨client, content⟩ = result
  intro ended
  cases ended with
  | delivered heard _ =>
    have kept := heard.serves serves
    exact ⟨kept.partyid, kept.toPartyid, kept.useRedis⟩
  | refused heard _ _ | aborted heard _ => exact heard.serves serves

theorem waitFlush_keepsServing (channel : Channel) (maxMsec : Nat) (polls : List FlushPoll) :
    KeepsServing channel (waitFlush maxMsec polls) := by
  rintro ⟨client, content⟩ serves
  have ended := waitFlush_ends maxMsec polls client content
  revert ended
  generalize waitFlush maxMsec polls ⟨client, content⟩ = result
  intro ended
  cases ended with
  | flushed acked _ | unflushed acked _ | waiting acked => exact acked.heard.serves serves

/-- The channel is served as before, and only ends of calls have been recorded. -/
structure Called (channel : Channel) (before after : CallState) : Prop where
  serving : Serving channel after
  trace : Extends (fun event => ∃ client, event = .returned .client client) before after

/-- Both ends of a call leave the channel so. -/
def EndsCalled (channel : Channel) (before : CallState) : EStateM.Result Abort CallState Value → Prop :=
  Lib.Hoare.Ends (fun _ after => Called channel before after) (fun _ after => Called channel before after)

theorem Serving.setStr (serving : Serving channel state) (str : Bytes) :
    Serving channel { state with str := str } :=
  ⟨serving.rest, serving.client⟩

theorem Serving.setStats (serving : Serving channel state) (stats : Statistics) :
    Serving channel { state with channel := { state.channel with stats := stats } } := by
  refine ⟨?_, serving.client⟩
  simp only
  rw [serving.rest]

theorem Serving.putBack (serving : Serving channel state) {inner : ClientState}
    (serves : inner.client.Serves channel) : Serving channel (state.putBack .client inner) := by
  refine ⟨?_, inner.client, rfl, serves⟩
  simp only [CallState.putBack, CallState.setHandle, Channel.setHandle]
  rw [serving.rest]

theorem onClient_called {prog : ClientM Value} (serving : Serving channel state)
    (keeps : KeepsServing channel prog) :
    EndsCalled channel state (onClient .client prog state) := by
  obtain ⟨client, live, serves⟩ := serving.client
  have ended := keeps ⟨client, state.str⟩ serves
  rw [onClient_live prog (show state.channel.handle .client = .live client from live)]
  cases result : prog ⟨client, state.str⟩ with
  | ok value inner =>
    rw [result] at ended
    have kept := serving.putBack ended
    exact ⟨⟨kept.rest, kept.client⟩, [_], rfl, by simp⟩
  | error abort inner =>
    rw [result] at ended
    exact ⟨serving.putBack ended, [], (List.append_nil _).symm, by simp⟩

theorem attempt_called (serving : Serving channel state) (caller : Caller) (i : Nat) :
    EndsCalled channel state (caller.attempt i state) := by
  have mapped {Value Next : Type} {prog : CallM Value} (wrap : Value → Next)
      (called : EndsCalled channel state (prog state)) :
      EndsCalled channel state ((prog >>= fun value => pure (wrap value)) state) := by
    rw [run_bind]
    cases result : prog state with
    | ok value after | error abort after =>
      rw [result] at called
      exact called
  cases caller with
  | realSend rounds => exact mapped _ (onClient_called serving (send_keepsServing channel _ _))
  | realRecv pulls rounds => exact mapped _ (onClient_called serving (recv_keepsServing channel _ _ _))
  | flush rounds => exact mapped _ (onClient_called serving (waitFlush_keepsServing channel _ _))

/-- No command is recorded. -/
theorem Called.commands {before after : CallState} (called : Called channel before after)
    (sent : RedisCommand) : .command sent ∈ after.trace ↔ .command sent ∈ before.trace := by
  obtain ⟨events, grown, kinds⟩ := called.trace
  rw [grown, List.mem_append]
  refine or_iff_left fun member => ?_
  obtain ⟨client, same⟩ := kinds _ member
  cases same

/-! What `finish` reports. -/

theorem RpcClient.finished_serves {client : RpcClient} (env : FinishEnv)
    (serves : client.Serves channel) : (client.finished env).Serves channel := by
  have acked (run : AckRun) {client : RpcClient} (serves : client.Serves channel) :
      (client.ackThread run).Serves channel :=
    (client.ackThread_acked run).heard.serves serves
  unfold RpcClient.finished
  split
  · exact ⟨serves.partyid, serves.toPartyid, serves.useRedis⟩
  · split
    · have ended : RpcClient.Serves channel
          { client with rwSender := client.rwSender.map Stream.finish } :=
        ⟨serves.partyid, serves.toPartyid, serves.useRedis⟩
      unfold RpcClient.joined
      simp only
      split
      · have joined := acked ⟨true, env.lastAcks, true⟩ (acked env.thread ended)
        exact ⟨joined.partyid, joined.toPartyid, joined.useRedis⟩
      · exact acked env.thread ended
    · exact serves

/-- A channel in Redis mode whose meta names the notify list. -/
structure Notifies (channel : Channel) (notifyKey : String) : Prop where
  redis : channel.useRedis = true
  key : channel.metaMap.lookup "net_usage_redis_key" = some notifyKey

/-- The key of a channel's usage hash. -/
def Channel.usageKey (channel : Channel) : String :=
  Grpc.usageKey channel.channelId channel.fromParty channel.toParty

/-- The commands of `finish` before the push. -/
def Channel.counts (channel : Channel) (stats : Statistics) : List RedisCommand :=
  [.hset channel.usageKey [("recv_bytes", toString stats.bytesRecv),
      ("recv_packet", toString stats.packetRecv),
      ("send_bytes", toString stats.bytesSend),
      ("send_packet", toString stats.packetSend)],
    .expire channel.usageKey (3600 * 24 * 7)] ++
  match channel.metaMap.lookup "mesh-urn" with
  | none => []
  | some urn => [.hset channel.usageKey [("mesh-urn", urn)]]

theorem reported_eq {client : RpcClient} (notifies : Notifies channel notifyKey)
    (serving : Serving channel state) (serves : client.Serves channel)
    (noError : FinishEnv.redisError env = none) :
    client.reported state.channel.ref env = channel.counts state.channel.stats ++
      [.lpush notifyKey channel.usageKey, .expire notifyKey (3600 * 24 * 7)] := by
  have ref : state.channel.ref = ⟨channel.channelId, state.channel.stats, channel.metaMap⟩ := by
    unfold Channel.ref
    rw [serving.rest]
  unfold RpcClient.reported RpcClient.usageReport Channel.counts Channel.usageKey
  rw [ref, noError, serves.useRedis, notifies.redis, serves.partyid, serves.toPartyid]
  simp only [if_true, notifies.key]
  cases channel.metaMap.lookup "mesh-urn" with
  | none => rfl
  | some urn => rfl

theorem push_notMem_counts (channel : Channel) (stats : Statistics) (notifyKey key : String) :
    RedisCommand.lpush notifyKey key ∉ channel.counts stats := by
  unfold Channel.counts
  cases channel.metaMap.lookup "mesh-urn" <;> simp

theorem stored_append (hashes : Hashes) (trace more : List Event) :
    stored hashes (trace ++ more) = stored (stored hashes trace) more :=
  List.foldl_append

/-- Whatever the hash held before, it holds the counters. -/
theorem counted_counts (channel : Channel) (stats : Statistics) (hashes : Hashes) :
    Counted channel.usageKey stats (stored hashes ((channel.counts stats).map Event.command)) := by
  unfold Channel.counts
  cases channel.metaMap.lookup "mesh-urn" <;>
    constructor <;>
    simp [stored, Event.store, RedisCommand.store]

theorem stored_calls {events : List Event} (hashes : Hashes)
    (calls : ∀ event ∈ events, ∃ client, event = .returned .client client) :
    stored hashes events = hashes := by
  induction events with
  | nil => rfl
  | cons event rest ih =>
    obtain ⟨client, rfl⟩ := calls event List.mem_cons_self
    exact ih fun event member => calls event (List.mem_cons_of_mem _ member)

/-! The destructor. -/

/-- A program of the channel that does not count. -/
def KeepsStats (prog : CallM Value) : Prop :=
  ∀ stats, Keeps (fun state => state.channel.stats = stats) prog

theorem KeepsStats.bind {prog : CallM Value} {rest : Value → CallM Next} (first : KeepsStats prog)
    (second : ∀ value, KeepsStats (rest value)) : KeepsStats (prog >>= rest) :=
  fun stats => Keeps.bind (first stats) fun value => second value stats

theorem KeepsStats.get : KeepsStats get := fun _ => Keeps.get _

theorem KeepsStats.pure (value : Value) : KeepsStats (Pure.pure value) := fun _ => Keeps.pure _ value

theorem KeepsStats.modify {change : CallState → CallState}
    (same : ∀ state, (change state).channel.stats = state.channel.stats) :
    KeepsStats (modify change) := by
  rintro stats state rfl
  exact same state

theorem KeepsStats.throw (abort : Abort) : KeepsStats (throw abort : CallM Value) :=
  fun _ _ same => same

theorem KeepsStats.ite {test : Prop} [Decidable test] {yes no : CallM Value} (whenTrue : KeepsStats yes)
    (whenFalse : KeepsStats no) : KeepsStats (if test then yes else no) :=
  fun stats => Triple.ite (fun _ => whenTrue stats) fun _ => whenFalse stats

theorem setHandle_stats (side : Side) (handle : Handle) (state : CallState) :
    (state.setHandle side handle).channel.stats = state.channel.stats :=
  (Frame.setHandle side handle state).stats

theorem finishClient_stats (side : Side) (env : FinishEnv) : KeepsStats (finishClient side env) :=
  KeepsStats.get.bind fun state =>
    KeepsStats.bind (fun stats => onClient_stats side (finish state.channel.ref env) stats) fun _ =>
      KeepsStats.modify fun _ => rfl

theorem deleteClient_stats (side : Side) : KeepsStats (deleteClient side) := by
  refine KeepsStats.get.bind fun state => ?_
  cases state.channel.handle side with
  | null => exact KeepsStats.pure _
  | dangling => exact KeepsStats.throw _
  | live client =>
    have deletes : KeepsStats (do
        modify (CallState.record (.deleted side client))
        modify (CallState.setHandle side .dangling)) :=
      KeepsStats.bind (KeepsStats.modify fun _ => rfl) fun _ =>
        KeepsStats.modify (setHandle_stats side .dangling)
    exact KeepsStats.ite (KeepsStats.bind (KeepsStats.throw _) fun _ => deletes) deletes

theorem destroyChannel_stats (env : DestroyEnv) : KeepsStats (destroyChannel env) := by
  have closes : KeepsStats (do
      if (← get).channel.client ≠ .null then
        finishClient .client env.finish
        deleteClient .client
        modify (CallState.setHandle .client .null)) :=
    KeepsStats.get.bind fun _ => KeepsStats.ite
      ((finishClient_stats .client env.finish).bind fun _ => (deleteClient_stats .client).bind fun _ =>
        KeepsStats.modify (setHandle_stats .client .null)) (KeepsStats.pure _)
  refine KeepsStats.get.bind fun _ => KeepsStats.ite ?_ closes
  exact (finishClient_stats .rcvClient env.rcvFinish).bind fun _ =>
    (deleteClient_stats .rcvClient).bind fun _ => closes

theorem withClient_stats (side : Side) (prog : ClientM Value) : KeepsStats (withClient side prog) := by
  rintro stats state rfl
  unfold withClient
  cases state.channel.handle side with
  | null | dangling => rfl
  | live client =>
    simp only
    cases prog ⟨client, state.str⟩ with
    | ok value inner => exact setHandle_stats side _ state
    | error abort inner => exact setHandle_stats side _ state

theorem destructor_stats (polls : List FlushPoll) (env : DestroyEnv) :
    KeepsStats (destructor polls env) := by
  have destroys := destroyChannel_stats env
  have waits : KeepsStats (do
      let _ ← onClient .client (waitFlush flushMsec polls)
      destroyChannel env) :=
    KeepsStats.bind (fun stats => onClient_stats .client _ stats) fun _ => destroys
  refine KeepsStats.get.bind fun _ => KeepsStats.ite ?_ destroys
  exact (withClient_stats .client _).bind fun _ => KeepsStats.ite waits destroys

/-- With Redis the end of a channel ends `m_client` alone. -/
theorem closing_redis {channel : Channel} {client : RpcClient} {env : DestroyEnv}
    (redis : channel.useRedis = true) :
    (channel.setHandle (.live client) .client).closing env =
      .returned .client (client.finished env.finish) ::
        ((client.finished env.finish).reported channel.ref env.finish).map Event.command ++
        [.deleted .client (client.finished env.finish)] := by
  have mode : (channel.setHandle (.live client) .client).useRedis = true := redis
  unfold Channel.closing
  rw [mode]
  rfl

/-- The destructor reports once, after everything else it calls, with the counters as they are. -/
theorem destructor_reports (notifies : Notifies channel notifyKey) (serving : Serving channel state)
    {env : DestroyEnv} (noError : env.finish.redisError = none)
    (destroyed : destructor polls env state = .ok ⟨⟩ final) :
    ∃ early late, final.trace =
        state.trace ++ early ++ .command (.lpush notifyKey channel.usageKey) :: late ∧
      .command (.lpush notifyKey channel.usageKey) ∉ early ∧
      .command (.lpush notifyKey channel.usageKey) ∉ late ∧
      ∀ hashes, Counted channel.usageKey final.channel.stats (stored hashes (state.trace ++ early)) := by
  obtain ⟨client, live, serves⟩ := serving.client
  have redis : state.channel.useRedis = true := by
    rw [serving.rest]
    exact notifies.redis
  have holds : Holds true state := ⟨redis, by rw [live]; trivial, fun offline => by cases offline⟩
  have stats := destructor_stats polls env state.channel.stats state rfl
  rw [destroyed] at stats
  rcases destructor_destroys holds polls env with ⟨after, waiting, -⟩ | ⟨wait, handle, waits, made⟩
  · rw [destroyed] at waiting
    cases waiting
  · rw [destroyed] at made
    obtain ⟨grown, -⟩ := made
    have ended : ∃ client, handle = .live client ∧ client.Serves channel ∧
        ∀ event ∈ wait, ∃ client, event = .returned .client client := by
      cases waits with
      | passed => exact ⟨client, live, serves, by simp⟩
      | waited found acked =>
        rw [live] at found
        cases found
        exact ⟨_, rfl, acked.heard.serves serves, by simp⟩
    obtain ⟨last, rfl, lastServes, calls⟩ := ended
    have report := reported_eq notifies serving (RpcClient.finished_serves env.finish lastServes) noError
    rw [closing_redis redis, report] at grown
    refine ⟨wait ++ .returned .client (last.finished env.finish) ::
        (channel.counts state.channel.stats).map Event.command,
      [.command (.expire notifyKey (3600 * 24 * 7)), .deleted .client (last.finished env.finish)],
      ?_, ?_, ?_, fun hashes => ?_⟩
    · rw [grown]
      simp only [List.map_append, List.map_cons, List.map_nil, List.append_assoc, List.cons_append,
        List.nil_append]
    · have clear := push_notMem_counts channel state.channel.stats notifyKey channel.usageKey
      simp only [List.mem_append, List.mem_cons, List.mem_map, reduceCtorEq, false_or, not_or]
      refine ⟨fun member => ?_, ?_⟩
      · obtain ⟨client, same⟩ := calls _ member
        cases same
      · rintro ⟨sent, member, same⟩
        cases same
        exact clear member
    · simp
    · have counted := counted_counts channel final.channel.stats (stored hashes state.trace)
      rw [stats] at counted ⊢
      rw [stored_append, stored_append, stored_calls _ calls]
      exact counted

/-! A reconnect reports too. -/

/-- The key is in the notify list of a trace. -/
def Announced (channel : Channel) (notifyKey : String) (state : CallState) : Prop :=
  .command (.lpush notifyKey channel.usageKey) ∈ state.trace

theorem handOver_serves (env : ReconnectEnv) (client : RpcClient) (serving : Serving channel state) :
    (handOver env client state).2.Serves channel := by
  have fresh : state.channel.newClient.Serves channel := by
    have parties := serving.rest
    refine ⟨?_, ?_, ?_⟩
    all_goals
      rw [parties]
      rfl
  unfold handOver RpcClient.setContinueStatus
  simp only
  split
  · unfold RpcClient.initSender
    simp only
    split <;> exact ⟨fresh.partyid, fresh.toPartyid, fresh.useRedis⟩
  · exact ⟨fresh.partyid, fresh.toPartyid, fresh.useRedis⟩

theorem reconnect_announces (notifies : Notifies channel notifyKey) (serving : Serving channel state)
    {env : ReconnectEnv} (noError : env.finish.redisError = none)
    (done : reconnect env state = .ok ret after) :
    Serving channel after ∧ Announced channel notifyKey after := by
  obtain ⟨old, live, reconnected⟩ := reconnect_ok done
  obtain ⟨client, found, serves⟩ := serving.client
  rw [live] at found
  cases found
  have report := reported_eq notifies serving (RpcClient.finished_serves env.finish serves) noError
  refine ⟨⟨?_, _, reconnected.live, handOver_serves env old serving⟩, ?_⟩
  · have rest := reconnected.frame.channel
    rw [serving.rest] at rest
    rw [reconnected.frame.stats]
    exact rest
  · obtain ⟨events, grown, -⟩ := reconnected.trace
    unfold Announced
    rw [grown, report]
    simp

/-- How a call that may have asked for reconnects ends. -/
structure Ended (channel : Channel) (notifyKey : String) (asked : Prop) (before after : CallState) :
    Prop where
  serving : Serving channel after
  announced : Announced channel notifyKey after ↔ Announced channel notifyKey before ∨ asked

theorem refused_ended (notifies : Notifies channel notifyKey) (call : QuietCall)
    (serving : Serving channel start)
    (rounds : RefusedRounds call.caller.attempt call.caller.reconnects start k last state) :
    Ended channel notifyKey (0 < k) start state := by
  refine Refused.rule (fun i state => Ended channel notifyKey (0 < i) start state)
    (fun i state => Ended channel notifyKey (0 < i) start state) rounds ⟨serving, by simp⟩ ?_ ?_
  · intro i before middle inside refused
    have called := attempt_called inside.serving call.caller i
    rw [refused] at called
    exact ⟨called.serving, (called.commands _).trans inside.announced⟩
  · intro i middle value after inside repaired
    obtain ⟨served, announced⟩ := reconnect_announces notifies inside.serving (call.noError i) repaired
    exact ⟨served, iff_of_true announced (Or.inr (Nat.succ_pos i))⟩

theorem loop_ended (notifies : Notifies channel notifyKey) (call : QuietCall)
    (serving : Serving channel start) :
    Lib.Hoare.Ends (fun _ after => Ended channel notifyKey
        (∃ middle, call.caller.attempt 0 start = .ok none middle) start after)
      (fun abort after => (∃ fault, abort = .fault fault) ∨ Ended channel notifyKey
        (∃ middle, call.caller.attempt 0 start = .ok none middle) start after)
      (call.caller.loop start) := by
  have ended : Lib.Retry.Ends call.caller.attempt (fun i => reconnect (call.caller.reconnects i)) false
    start maxRetry (call.caller.loop start) := retry_ends maxRetry
  -- an attempt that is not refused ends the loop in round `k`
  have last {k : Nat} {value : Bool} {before after : CallState}
      (rounds : RefusedRounds call.caller.attempt call.caller.reconnects start k value before)
      (stops : ∀ middle, call.caller.attempt k before ≠ .ok none middle)
      (called : Called channel before after) : Ended channel notifyKey
        (∃ middle, call.caller.attempt 0 start = .ok none middle) start after := by
    have inside := refused_ended notifies call serving rounds
    refine ⟨called.serving, (called.commands _).trans (inside.announced.trans (or_congr_right ?_))⟩
    refine ⟨rounds.first_refused, fun ⟨middle, refused⟩ => Nat.pos_of_ne_zero ?_⟩
    rintro rfl
    cases rounds
    exact stops middle refused
  revert ended
  generalize call.caller.loop start = result
  intro ended
  cases ended with
  | @stopped k _ before value after inside rounds stop =>
    have called := attempt_called (refused_ended notifies call serving rounds).serving call.caller k
    rw [stop] at called
    exact last rounds (fun middle same => by rw [stop] at same; cases same) called
  | exhausted rounds =>
    have all := refused_ended notifies call serving rounds
    have some : 0 < maxRetry := by decide
    exact ⟨all.serving, all.announced.trans (or_congr_right
      (iff_of_true some (rounds.first_refused some)))⟩
  | @attemptFailed k _ before abort after inside rounds failed =>
    have called := attempt_called (refused_ended notifies call serving rounds).serving call.caller k
    rw [failed] at called
    exact Or.inr (last rounds (fun middle same => by rw [failed] at same; cases same) called)
  | @repairFailed k _ before middle abort after inside rounds refused failed =>
    obtain ⟨-, ⟨fault, -⟩ | ⟨-, -, offline, -⟩⟩ := reconnect_error failed
    · exact Or.inl fault
    · rw [call.connected k] at offline
      cases offline

/-- A call announces the usage exactly when its first attempt asks for a reconnect. -/
theorem call_ended (notifies : Notifies channel notifyKey) (call : QuietCall)
    (serving : Serving channel state) (moved : call.next state = some after) :
    Ended channel notifyKey (¬ call.Unbroken state) state after := by
  have asked : ¬ call.Unbroken state ↔
      ∃ middle, call.caller.attempt 0 { state with str := call.str } = .ok none middle := by
    simp [QuietCall.Unbroken]
  have redis : state.channel.useRedis = true := by
    rw [serving.rest]
    exact notifies.redis
  have concluded : Concludes (call.caller.loop { state with str := call.str })
      (call.caller.run { state with str := call.str }) := run_concludes (Caller.loops_redis call.caller redis)
  have looped := loop_ended notifies call (serving.setStr call.str)
  unfold QuietCall.next Use.next Use.run at moved
  simp only at moved
  rw [asked]
  generalize call.caller.loop { state with str := call.str } = loop at concluded looped
  generalize call.caller.run { state with str := call.str } = result at concluded moved
  cases concluded with
  | @failed abort final =>
    cases abort with
    | fault fault => cases moved
    | pending => cases moved
    | thrown exception =>
      cases moved
      rcases looped with ⟨fault, same⟩ | ended
      · cases same
      · exact ⟨ended.serving, ended.announced⟩
  | threw =>
    cases moved
    exact ⟨looped.serving, looped.announced⟩
  | returned stats =>
    cases moved
    exact ⟨looped.serving.setStats stats, looped.announced⟩

theorem constructed_serving (fromParty toParty : UInt32) (taskid serverAddress : String)
    (metaMap : List (String × String)) (redisTimeoutEnv : Option Int) (str : Bytes) :
    Serving (Channel.init fromParty toParty taskid serverAddress true metaMap redisTimeoutEnv)
      (CallState.constructed fromParty toParty taskid serverAddress true metaMap redisTimeoutEnv str) :=
  ⟨rfl, _, rfl, rfl, rfl, rfl⟩

theorem ReportedOnce.count {key : String} (once : ReportedOnce notifyKey key hashes final) :
    final.trace.count (.command (.lpush notifyKey key)) = 1 := by
  obtain ⟨early, late, split, clearEarly, clearLate, -⟩ := once
  rw [split, List.count_append, List.count_cons_self, List.count_eq_zero.mpr clearEarly,
    List.count_eq_zero.mpr clearLate]

/-- A push that is already in the trace is not the one of the destructor. -/
theorem reportedOnce_iff {key : String} {early late : List Event} (before : List Event)
    (grown : final.trace = before ++ early ++ .command (.lpush notifyKey key) :: late)
    (clearEarly : .command (.lpush notifyKey key) ∉ early)
    (clearLate : .command (.lpush notifyKey key) ∉ late)
    (counted : Counted key final.channel.stats (stored hashes (before ++ early))) :
    ReportedOnce notifyKey key hashes final ↔ .command (.lpush notifyKey key) ∉ before := by
  constructor
  · intro reported member
    have once := reported.count
    have old := List.count_pos_iff.mpr member
    rw [grown, List.count_append, List.count_append, List.count_cons_self] at once
    omega
  · intro clear
    refine ⟨before ++ early, late, grown, ?_, clearLate, counted⟩
    simp [clear, clearEarly]

/-- The usage of a channel is reported once and with its final counters exactly when no call
asked for a reconnect. -/
theorem usage_reported_once (fromParty toParty : UInt32) (taskid serverAddress : String)
    (metaMap : List (String × String)) (redisTimeoutEnv : Option Int) (str : Bytes)
    (notifyKey : String) (hashes : Hashes) (calls : List QuietCall) (polls : List FlushPoll)
    (env : DestroyEnv) (state final : CallState)
    (named : metaMap.lookup "net_usage_redis_key" = some notifyKey)
    (noError : env.finish.redisError = none)
    (ran : run QuietCall.next calls (CallState.constructed fromParty toParty taskid serverAddress true
      metaMap redisTimeoutEnv str) = some state)
    (destroyed : destructor polls env state = .ok ⟨⟩ final) :
    ReportedOnce notifyKey (usageKey taskid fromParty toParty) hashes final ↔
      Meets QuietCall.next QuietCall.Unbroken calls (CallState.constructed fromParty toParty taskid
        serverAddress true metaMap redisTimeoutEnv str) := by
  have start := constructed_serving fromParty toParty taskid serverAddress metaMap redisTimeoutEnv str
  have notifies : Notifies (Channel.init fromParty toParty taskid serverAddress true metaMap
      redisTimeoutEnv) notifyKey :=
    ⟨rfl, named⟩
  have step (call : QuietCall) (before after : CallState) (serving : Serving _ before)
      (moved : call.next before = some after) := call_ended notifies call serving moved
  have serving := (Reaches.ofRun calls ran).invariant (Serving _) start
    fun call before after serving moved => (step call before after serving moved).serving
  have whole := Meets.iff_of_run (Serving _) (fun state => ¬ Announced _ notifyKey state)
    (fun call before after serving moved => (step call before after serving moved).serving)
    (fun call before after serving moved => by
      rw [(step call before after serving moved).announced, not_or, Classical.not_not]) calls start ran
  obtain ⟨early, late, grown, clearEarly, clearLate, counted⟩ :=
    destructor_reports notifies serving noError destroyed
  rw [show usageKey taskid fromParty toParty = Channel.usageKey (Channel.init fromParty toParty taskid
    serverAddress true metaMap redisTimeoutEnv) from rfl,
    reportedOnce_iff state.trace grown clearEarly clearLate (counted hashes)]
  refine whole.trans (and_iff_right ?_)
  exact List.not_mem_nil

/-- A message whose `Write` ends as told in each round. -/
def plainSend (writes : Nat → Bool) : QuietCall where
  str := [7]
  caller := .realSend fun i =>
    { send := { versions := fun _ => .ok 2, thread := ⟨true, 0, false⟩, write := writes i }
      reconnect := quietReconnect }
  connected _ := rfl
  noError _ := rfl

/-- A channel in Redis mode just constructed. -/
def CallState.notifying : CallState :=
  .constructed 1 2 "task" "server" true [("net_usage_redis_key", "notify")] none []

/-- The wait of the destructor, in which the message is acknowledged. -/
def lastPoll : FlushPoll := ⟨⟨true, 1, false⟩, true, 0⟩

/-- A channel that has sent one message. -/
def sentOne (writes : Nat → Bool) : CallState :=
  finalState ((plainSend writes).caller.run { CallState.notifying with str := [7] })

/-- Its end. -/
def endedOne (writes : Nat → Bool) : CallState :=
  finalState (destructor [lastPoll] quietReconnect.destroy (sentOne writes))

/-- The first `Write` succeeds. -/
theorem usage_reported_once_sent :
    (plainSend fun _ => true).next CallState.notifying = some (sentOne fun _ => true) ∧
      ReportedOnce "notify" (usageKey "task" 1 2) (fun _ _ => none) (endedOne fun _ => true) := by
  have moved : (plainSend fun _ => true).next CallState.notifying = some (sentOne fun _ => true) := by
    decide +kernel
  have ran : run QuietCall.next [plainSend fun _ => true] CallState.notifying =
      some (sentOne fun _ => true) := by
    simp only [run, moved, Option.bind_some]
  have destroyed : destructor [lastPoll] quietReconnect.destroy (sentOne fun _ => true) =
      .ok ⟨⟩ (endedOne fun _ => true) := by
    apply completed_eq.mp
    decide +kernel
  have unbroken : (plainSend fun _ => true).Unbroken CallState.notifying := by
    have accepted : (completed ((plainSend fun _ => true).caller.attempt 0
        { CallState.notifying with str := [7] })).map Prod.fst = some (some true) := by
      decide +kernel
    intro middle refused
    have verdict := congrArg (fun result => (completed result).map Prod.fst) refused
    cases accepted.symm.trans verdict
  refine ⟨moved, (usage_reported_once 1 2 "task" "server" [("net_usage_redis_key", "notify")] none []
    "notify" (fun _ _ => none) _ _ _ _ _ (by decide) rfl ran destroyed).mpr ⟨unbroken, fun _ _ => trivial⟩⟩

/-- The first `Write` fails: the reconnect pushes the key with counters of 0, and the end of the
channel pushes it again. -/
theorem usage_reported_twice :
    (plainSend fun i => decide (i ≠ 0)).next CallState.notifying =
        some (sentOne fun i => decide (i ≠ 0)) ∧
      destructor [lastPoll] quietReconnect.destroy (sentOne fun i => decide (i ≠ 0)) =
        .ok ⟨⟩ (endedOne fun i => decide (i ≠ 0)) ∧
      (endedOne fun i => decide (i ≠ 0)).trace.count
        (.command (.lpush "notify" (usageKey "task" 1 2))) = 2 ∧
      stored (fun _ _ => none) ((endedOne fun i => decide (i ≠ 0)).trace.takeWhile
        (· ≠ .command (.lpush "notify" (usageKey "task" 1 2)))) (usageKey "task" 1 2) "send_packet" =
          some "0" ∧
      (endedOne fun i => decide (i ≠ 0)).channel.stats.packetSend = 1 ∧
      ∀ hashes, ¬ ReportedOnce "notify" (usageKey "task" 1 2) hashes
        (endedOne fun i => decide (i ≠ 0)) := by
  have twice : (endedOne fun i => decide (i ≠ 0)).trace.count
      (.command (.lpush "notify" (usageKey "task" 1 2))) = 2 := by
    decide +kernel
  refine ⟨by decide +kernel, completed_eq.mp (by decide +kernel), twice, by decide +kernel,
    by decide +kernel, fun hashes once => ?_⟩
  have single := once.count
  rw [twice] at single
  cases single

end GaiaNet.Grpc
