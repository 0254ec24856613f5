import GaiaNet.Grpc.Calls

/-! What `set_continue_status` carries over from one client to the next. -/

namespace GaiaNet.Grpc

open Lib.Hoare

/-- The methods called on a client, with what they meet. -/
inductive Method where
  | send (taskid : String) (env : SendEnv)
  | recv (taskid : String) (withResend : Bool) (env : RecvEnv)
  | waitFlush (maxMsec : Nat) (polls : List FlushPoll)
  | finish (ref : ChannelRef) (env : FinishEnv)

/-- The client a call leaves, whether it returns or throws. -/
def Method.after (content : Bytes) (client : RpcClient) : Method → RpcClient
  | .send taskid env => (finalState (Grpc.send taskid env ⟨client, content⟩)).client
  | .recv taskid withResend env => (finalState (Grpc.recv taskid withResend env ⟨client, content⟩)).client
  | .waitFlush maxMsec polls => (finalState (Grpc.waitFlush maxMsec polls ⟨client, content⟩)).client
  | .finish ref env => (finalState (Grpc.finish ref env ⟨client, content⟩)).client

/-- `set_continue_status(get_continue_status(old))` on a client just made. -/
def RpcClient.takeOver (partyid toPartyid : UInt32) (useRedis : Bool) (env : Option Int)
    (results : Nat → Bool) (old : RpcClient) : Bool × RpcClient :=
  (RpcClient.init partyid toPartyid useRedis env).setContinueStatus old.getContinueStatus.1 results

/-- The clients a program can have: new ones, those a call or the ack thread leaves,
and those that took over from another. -/
inductive RpcClient.Reachable : RpcClient → Prop where
  | fresh (partyid toPartyid : UInt32) (useRedis : Bool) (env : Option Int) :
    Reachable (RpcClient.init partyid toPartyid useRedis env)
  | call (before : Reachable client) (content : Bytes) (method : Method) :
    Reachable (method.after content client)
  | acked (before : Reachable client) (run : AckRun) : Reachable (client.ackThread run)
  | tookOver (before : Reachable old) (partyid toPartyid : UInt32) (useRedis : Bool)
      (env : Option Int) (results : Nat → Bool) :
    Reachable (old.takeOver partyid toPartyid useRedis env results).2

/-- Below v2 nothing is numbered or queued. -/
def RpcClient.Unnumbered (client : RpcClient) : Prop :=
  client.useRpcVersion < ServiceVersion.v2.code → client.seq = 0 ∧ client.notackQueue = []

/-- The five fields of the transfer state. -/
def RpcClient.transfer (client : RpcClient) : Int × RedisDataVersion × Int × Int × List Packet :=
  (client.useRpcVersion, client.useRedisDataVersion, client.seq, client.recvIdx,
    client.notackQueue)

theorem unnumbered_of_heard (heard : Heard before after) (unnumbered : before.Unnumbered) :
    after.Unnumbered := by
  intro low
  rw [heard.rest] at low
  obtain ⟨noSeq, noQueue⟩ := unnumbered low
  have short := heard.queue
  rw [noQueue, List.suffix_nil] at short
  exact ⟨by rw [heard.rest]; exact noSeq, short⟩

theorem unnumbered_prepared (ready : RpcClient.prepared versions client = some current)
    (unnumbered : client.Unnumbered) : current.Unnumbered := by
  have same := RpcClient.prepared_some ready
  unfold RpcClient.prepared at ready
  split at ready
  · rename_i fresh
    have low : client.useRpcVersion < ServiceVersion.v2.code :=
      ServiceVersion.code_lt fresh (by simp)
    intro _
    rw [same.1, same.2]
    exact unnumbered low
  · cases ready
    exact unnumbered

theorem unnumbered_accept {client : RpcClient} (unnumbered : client.Unnumbered) (stream : Stream) (packet : Packet) :
    (client.accept stream packet).Unnumbered := by
  unfold RpcClient.accept
  split
  · rename_i high
    intro low
    have below : client.useRpcVersion < ServiceVersion.v2.code := low
    omega
  · exact unnumbered

theorem unnumbered_finished {client : RpcClient} (unnumbered : client.Unnumbered) (env : FinishEnv) :
    (client.finished env).Unnumbered := by
  intro low
  rw [client.finished_useRpcVersion] at low
  obtain ⟨noSeq, noQueue⟩ := unnumbered low
  have short := client.finished_queue env
  rw [noQueue, List.suffix_nil] at short
  refine ⟨?_, short⟩
  have notSecond : client.useRpcVersion ≠ ServiceVersion.v2.code := by omega
  unfold RpcClient.finished
  rw [if_neg notSecond]
  split <;> exact noSeq

theorem unnumbered_call {client : RpcClient} (unnumbered : client.Unnumbered) (content : Bytes) (method : Method) :
    (method.after content client).Unnumbered := by
  cases method with
  | send taskid env =>
    have ended := send_ends taskid env client content
    simp only [Method.after]
    revert ended
    generalize Grpc.send taskid env ⟨client, content⟩ = result
    intro ended
    cases ended with
    | unconnected _ => exact unnumbered
    | streamEnded ready _ | writeFailed ready _ _ _ | nullStream ready _ _ =>
      exact unnumbered_of_heard (RpcClient.ackThread_acked _ _).heard
        (unnumbered_prepared ready unnumbered)
    | accepted ready _ _ _ =>
      exact unnumbered_accept (unnumbered_of_heard (RpcClient.ackThread_acked _ _).heard
        (unnumbered_prepared ready unnumbered)) _ _
  | recv taskid withResend env =>
    have ended := recv_ends taskid withResend env client content
    simp only [Method.after]
    revert ended
    generalize Grpc.recv taskid withResend env ⟨client, content⟩ = result
    intro ended
    cases ended with
    | delivered heard _ =>
      have kept := unnumbered_of_heard heard unnumbered
      exact kept
    | refused heard _ _ | aborted heard _ => exact unnumbered_of_heard heard unnumbered
  | waitFlush maxMsec polls =>
    have ended := waitFlush_ends maxMsec polls client content
    simp only [Method.after]
    revert ended
    generalize Grpc.waitFlush maxMsec polls ⟨client, content⟩ = result
    intro ended
    cases ended with
    | flushed acked _ | unflushed acked _ | waiting acked =>
      exact unnumbered_of_heard acked.heard unnumbered
  | finish ref env =>
    simp only [Method.after]
    by_cases ready : client.CanFinish
    · rw [finish_open ref env client content ready]
      exact unnumbered_finished unnumbered env
    · rw [finish_closed ref env client content ready]
      exact unnumbered

theorem takeOver_useRpcVersion (old : RpcClient) (partyid toPartyid : UInt32) (useRedis : Bool)
    (env : Option Int) (results : Nat → Bool) :
    (old.takeOver partyid toPartyid useRedis env results).2.useRpcVersion = old.useRpcVersion := by
  unfold RpcClient.takeOver RpcClient.getContinueStatus RpcClient.setContinueStatus
    RpcClient.initSender
  by_cases high : old.useRpcVersion ≥ ServiceVersion.v2.code <;> simp [high]

theorem takeOver_second {old : RpcClient} (second : old.useRpcVersion = ServiceVersion.v2.code)
    (partyid toPartyid : UInt32) (useRedis : Bool) (env : Option Int) (results : Nat → Bool) :
    (old.takeOver partyid toPartyid useRedis env results).2.transfer = old.transfer := by
  unfold RpcClient.takeOver RpcClient.getContinueStatus RpcClient.setContinueStatus
    RpcClient.initSender RpcClient.transfer
  simp [second]

theorem takeOver_below {old : RpcClient} (low : old.useRpcVersion < ServiceVersion.v2.code)
    (partyid toPartyid : UInt32) (useRedis : Bool) (env : Option Int) (results : Nat → Bool) :
    (old.takeOver partyid toPartyid useRedis env results).2 =
      { RpcClient.init partyid toPartyid useRedis env with
        useRpcVersion := old.useRpcVersion
        useRedisDataVersion := old.useRedisDataVersion } := by
  have high : ¬ old.useRpcVersion ≥ ServiceVersion.v2.code := by omega
  unfold RpcClient.takeOver RpcClient.getContinueStatus RpcClient.setContinueStatus
  simp [high]

theorem RpcClient.Reachable.unnumbered (reachable : RpcClient.Reachable client) :
    client.Unnumbered := by
  induction reachable with
  | fresh partyid toPartyid useRedis env => exact fun _ => ⟨rfl, rfl⟩
  | call _ content method ih => exact unnumbered_call ih content method
  | acked _ run ih => exact unnumbered_of_heard (RpcClient.ackThread_acked _ _).heard ih
  | @tookOver old before partyid toPartyid useRedis env results ih =>
    by_cases low : old.useRpcVersion < ServiceVersion.v2.code
    · rw [takeOver_below low]
      exact fun _ => ⟨rfl, rfl⟩
    · intro below
      rw [takeOver_useRpcVersion] at below
      exact absurd below low

/-- The hand-over of a v1 or v2 client keeps the transfer state exactly when the client
speaks v2 or has received no indexed frame. -/
theorem hand_over_keeps_transfer (client : RpcClient) (partyid toPartyid : UInt32)
    (useRedis : Bool) (env : Option Int) (results : Nat → Bool)
    (reachable : client.Reachable)
    (version : client.useRpcVersion = ServiceVersion.v1.code ∨
      client.useRpcVersion = ServiceVersion.v2.code) :
    (client.takeOver partyid toPartyid useRedis env results).2.transfer = client.transfer ↔
      client.useRpcVersion = ServiceVersion.v2.code ∨ client.recvIdx = -1 := by
  rcases version with first | second
  · have low : client.useRpcVersion < ServiceVersion.v2.code :=
      ServiceVersion.code_lt first (by simp)
    have notSecond : client.useRpcVersion ≠ ServiceVersion.v2.code := by omega
    obtain ⟨noSeq, noQueue⟩ := reachable.unnumbered low
    rw [takeOver_below low]
    unfold RpcClient.transfer RpcClient.init
    simp [noSeq, noQueue, notSecond, eq_comm]
  · rw [takeOver_second second]
    simp [second]

/-- A client that connected to a server without `get_version`. -/
def RpcClient.firstConnected : RpcClient :=
  Method.after [] (RpcClient.init 1 2 true none)
    (.send "task" ⟨fun _ => .unimplemented, AckRun.none, true⟩)

/-- The same client after the first indexed frame has arrived. -/
def RpcClient.firstReceived : RpcClient :=
  Method.after [] RpcClient.firstConnected (.recv "task" true
    ⟨fun _ => [.element (dataVersionMagicString ++ Lib.LittleEndian.encode 4 0 ++ [7])], .failed⟩)

theorem RpcClient.firstReceived_reachable : RpcClient.firstReceived.Reachable :=
  .call (.call (.fresh 1 2 true none) _ _) _ _

theorem RpcClient.firstReceived_fields :
    RpcClient.firstReceived.useRpcVersion = ServiceVersion.v1.code ∧
      RpcClient.firstReceived.recvIdx = 0 := by
  decide +kernel

theorem hand_over_keeps_transfer_first :
    (RpcClient.firstReceived.takeOver 1 2 true none fun _ => true).2.transfer =
        RpcClient.firstReceived.transfer ↔
      RpcClient.firstReceived.useRpcVersion = ServiceVersion.v2.code ∨
        RpcClient.firstReceived.recvIdx = -1 :=
  hand_over_keeps_transfer _ 1 2 true none _ RpcClient.firstReceived_reachable
    (Or.inl RpcClient.firstReceived_fields.1)

/-- A v1 client that has received frame 0 hands over -1 as its receive index. -/
theorem hand_over_forgets_index :
    ¬ ∀ client : RpcClient, client.Reachable →
      client.useRpcVersion = ServiceVersion.v1.code ∨
        client.useRpcVersion = ServiceVersion.v2.code →
      (client.takeOver 1 2 true none fun _ => true).2.transfer = client.transfer := by
  intro keeps
  obtain ⟨first, received⟩ := RpcClient.firstReceived_fields
  have kept := keeps _ RpcClient.firstReceived_reachable (Or.inl first)
  have low : RpcClient.firstReceived.useRpcVersion < ServiceVersion.v2.code :=
    ServiceVersion.code_lt first (by simp)
  rw [takeOver_below low] at kept
  simp only [RpcClient.transfer, RpcClient.init, Prod.mk.injEq] at kept
  obtain ⟨-, -, -, sameIdx, -⟩ := kept
  rw [received] at sameIdx
  cases sameIdx

end GaiaNet.Grpc
