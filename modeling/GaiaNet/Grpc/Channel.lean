import GaiaNet.Grpc.Recv
import GaiaNet.Lib.Retry

/-! `channel` of channel.cpp: creation and destruction of its clients, the retry
loops of `real_send`, `real_recv` and `flush`, and the destructor. -/

namespace GaiaNet.Grpc

/-- A client pointer; `dangling` points to no live object. -/
inductive Handle where
  | null
  | live (client : RpcClient)
  | dangling
  deriving DecidableEq, Repr

/-- `m_client` or `m_rcv_client`. -/
inductive Side where
  | client
  | rcvClient
  deriving DecidableEq, Repr

/-- The fields of `channel`; `redisTimeoutEnv` is the environment variable every
client reads when it is made. -/
structure Channel where
  fromParty : UInt32
  toParty : UInt32
  channelId : String
  serverAddress : String
  useRedis : Bool
  metaMap : List (String × String)
  redisTimeoutEnv : Option Int
  stats : Statistics
  client : Handle
  rcvClient : Handle
  deriving DecidableEq, Repr

def Channel.handle (channel : Channel) : Side → Handle
  | .client => channel.client
  | .rcvClient => channel.rcvClient

def Channel.setHandle (handle : Handle) (channel : Channel) : Side → Channel
  | .client => { channel with client := handle }
  | .rcvClient => { channel with rcvClient := handle }

def Channel.ref (channel : Channel) : ChannelRef where
  taskid := channel.channelId
  stats := channel.stats
  metaMap := channel.metaMap

def Channel.newClient (channel : Channel) : RpcClient :=
  RpcClient.init channel.fromParty channel.toParty channel.useRedis channel.redisTimeoutEnv

/-- The trace of a channel: the client a call returns with, deletions, and the
Redis commands that were executed. -/
inductive Event where
  | returned (side : Side) (client : RpcClient)
  | deleted (side : Side) (client : RpcClient)
  | command (command : RedisCommand)
  deriving DecidableEq, Repr

/-- A channel, the string its caller passed by reference, and the trace. -/
structure CallState where
  channel : Channel
  str : Bytes
  trace : List Event
  deriving DecidableEq, Repr

abbrev CallM := EStateM Abort CallState

def CallState.record (event : Event) (state : CallState) : CallState :=
  { state with trace := state.trace ++ [event] }

def CallState.setHandle (side : Side) (handle : Handle) (state : CallState) : CallState :=
  { state with channel := state.channel.setHandle handle side }

/-- Write a client and the caller's string back after a call. -/
def CallState.putBack (side : Side) (inner : ClientState) (state : CallState) : CallState :=
  { state.setHandle side (.live inner.client) with str := inner.content }

/-- Call a method through a client pointer. -/
def withClient (side : Side) (prog : ClientM α) : CallM α := fun state =>
  match state.channel.handle side with
  | .null => .error (.fault .nullClient) state
  | .dangling => .error (.fault .deletedClient) state
  | .live client =>
    match prog ⟨client, state.str⟩ with
    | .ok value inner => .ok value (state.putBack side inner)
    | .error abort inner => .error abort (state.putBack side inner)

def recordClient (side : Side) : CallM Unit := do
  match (← get).channel.handle side with
  | .live client => modify (CallState.record (.returned side client))
  | _ => pure ()

/-- A call whose end is recorded. -/
def onClient (side : Side) (prog : ClientM α) : CallM α := do
  let value ← withClient side prog
  recordClient side
  return value

def deleteClient (side : Side) : CallM Unit := do
  match (← get).channel.handle side with
  | .null => pure ()
  | .dangling => throw (.fault .deletedClient)
  | .live client =>
    if client.recvThread then
      throw (.fault .joinableThread)
    modify (CallState.record (.deleted side client))
    modify (CallState.setHandle side .dangling)

def finishClient (side : Side) (env : FinishEnv) : CallM Unit := do
  let commands ← onClient side (finish (← get).channel.ref env)
  modify fun state => { state with trace := state.trace ++ commands.map Event.command }

/-- `create_channel`; `connected` is the answer of `WaitForConnected`. The answer
for the local server only goes to a log line. -/
def createChannel (connected : Bool) : CallM Unit := do
  let channel := (← get).channel
  if ¬ connected then
    throw (.thrown (.connectServer channel.serverAddress))
  modify (CallState.setHandle .client (.live channel.newClient))
  if ¬ channel.useRedis then
    modify (CallState.setHandle .rcvClient (.live channel.newClient))

structure DestroyEnv where
  finish : FinishEnv
  rcvFinish : FinishEnv

/-- `destroy_channel`: only `m_client` is set to null. -/
def destroyChannel (env : DestroyEnv) : CallM Unit := do
  if ¬ (← get).channel.useRedis then
    finishClient .rcvClient env.rcvFinish
    deleteClient .rcvClient
  if (← get).channel.client ≠ .null then
    finishClient .client env.finish
    deleteClient .client
    modify (CallState.setHandle .client .null)

/-- Outcomes met by one reconnect. -/
structure ReconnectEnv where
  finish : FinishEnv
  destroy : DestroyEnv
  connected : Bool
  resend : Nat → Bool

def getContinueStatus : ClientM ContinueStatus := do
  let (tup, client) := (← get).client.getContinueStatus
  modifyClient fun _ => client
  return tup

def setContinueStatus (tup : ContinueStatus) (results : Nat → Bool) : ClientM Bool := do
  let (ret, client) := (← get).client.setContinueStatus tup results
  modifyClient fun _ => client
  return ret

/-- The first half of a reconnect: the old client gives up its status and its life. -/
def retire (env : ReconnectEnv) : CallM ContinueStatus := do
  finishClient .client env.finish
  let continueStatus ← withClient .client getContinueStatus
  deleteClient .client
  modify (CallState.setHandle .client .null)
  destroyChannel env.destroy
  return continueStatus

/-- The reconnect that `real_send`, `real_recv` and `flush` each spell out. -/
def reconnect (env : ReconnectEnv) : CallM Bool := do
  let continueStatus ← retire env
  createChannel env.connected
  onClient .client (setContinueStatus continueStatus env.resend)

def maxRetry : Nat := 120

structure SendRound where
  send : SendEnv
  reconnect : ReconnectEnv

def sendAttempt (rounds : Nat → SendRound) (i : Nat) : CallM (Option Bool) := do
  let ret ← onClient .client (send (← get).channel.channelId (rounds i).send)
  return if ret then some true else none

def realSend (rounds : Nat → SendRound) : CallM Unit := do
  let nbytes := UInt64.ofNat (← get).str.length
  let ending ← Lib.Retry.retry (sendAttempt rounds) (fun i => reconnect (rounds i).reconnect)
    0 maxRetry false
  if ending.value then
    modify fun state => { state with
      channel := { state.channel with stats := state.channel.stats.statisticsSend nbytes } }
  else
    throw (.thrown .sendData)

structure RecvRound where
  recv : RecvEnv
  reconnect : ReconnectEnv

def recvAttempt (rounds : Nat → RecvRound) (i : Nat) : CallM (Option Bool) := do
  let result ← onClient .client (recv (← get).channel.channelId true (rounds i).recv)
  return if result.ret then some true else if result.needResend then none else some false

/-- The loop of `real_recv` without Redis: pull until `Recv` returns true. -/
def pullLoop : List RecvEnv → CallM Unit
  | [] => throw .pending
  | env :: envs => do
    let result ← onClient .rcvClient (recv (← get).channel.channelId false env)
    if result.ret then
      return
    pullLoop envs

def realRecv (pulls : List RecvEnv) (rounds : Nat → RecvRound) : CallM Unit := do
  if ¬ (← get).channel.useRedis then
    pullLoop pulls
  else
    let ending ← Lib.Retry.retry (recvAttempt rounds) (fun i => reconnect (rounds i).reconnect)
      0 maxRetry false
    if ¬ ending.value then
      throw (.thrown .recvData)
  modify fun state => { state with
    channel := { state.channel with
      stats := state.channel.stats.statisticsRecv (UInt64.ofNat state.str.length) } }

structure FlushRound where
  polls : List FlushPoll
  reconnect : ReconnectEnv

def flushMsec : Nat := 10000

def flushAttempt (rounds : Nat → FlushRound) (i : Nat) : CallM (Option Bool) := do
  let (flag, needRetry) ← onClient .client (waitFlush flushMsec (rounds i).polls)
  return if flag then some true else if needRetry then none else some false

/-- `flush` answers true when its rounds are used up. -/
def flush (rounds : Nat → FlushRound) : CallM Bool := do
  match ← Lib.Retry.retry (flushAttempt rounds) (fun i => reconnect (rounds i).reconnect)
      0 maxRetry false with
  | .stopped flag => return flag
  | .exhausted _ => return true

def clientFinish (env : FinishEnv) : CallM Unit := do
  if (← get).channel.client ≠ .null then
    finishClient .client env
    deleteClient .client
    modify (CallState.setHandle .client .null)

/-- The destructor: wait for acks at most once, then `destroy_channel`. -/
def destructor (polls : List FlushPoll) (env : DestroyEnv) : CallM Unit := do
  if (← get).channel.client ≠ .null then
    let flushed ← withClient .client do return decide ((← get).client.notackQueue = [])
    if ¬ flushed then
      let _ ← onClient .client (waitFlush flushMsec polls)
  destroyChannel env

/-- The constructor's fields before `create_channel`. -/
def Channel.init (fromParty toParty : UInt32) (taskid serverAddress : String) (useRedis : Bool)
    (metaMap : List (String × String)) (redisTimeoutEnv : Option Int) : Channel where
  fromParty := fromParty
  toParty := toParty
  channelId := taskid
  serverAddress := serverAddress
  useRedis := useRedis
  metaMap := metaMap
  redisTimeoutEnv := redisTimeoutEnv
  stats := Statistics.zero
  client := .dangling
  rcvClient := .dangling

end GaiaNet.Grpc
