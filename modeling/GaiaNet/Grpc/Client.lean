import GaiaNet.IChannel
import GaiaNet.Lib.LittleEndian

/-! `RpcClient` of grpc_client.cpp without `Recv`: version negotiation, streams,
`Send`, the hand-over of a connection and `finish`. What the network, the ack
thread and Redis do during a call is an argument of that call. -/

namespace GaiaNet.Grpc

inductive ServiceVersion where
  | notInited
  | v1
  | v2

def ServiceVersion.code : ServiceVersion → Int
  | .notInited => -1
  | .v1 => 1
  | .v2 => 2

theorem ServiceVersion.code_ne {speaks other : ServiceVersion} (spoken : version = speaks.code)
    (different : speaks ≠ other) : version ≠ other.code := by
  subst spoken
  cases speaks <;> cases other <;> simp_all [ServiceVersion.code]

theorem ServiceVersion.code_ge (spoken : version = ServiceVersion.v2.code) :
    version ≥ ServiceVersion.v2.code :=
  Int.le_of_eq spoken.symm

theorem ServiceVersion.code_lt {speaks : ServiceVersion} (spoken : version = speaks.code)
    (below : speaks ≠ .v2) : version < ServiceVersion.v2.code := by
  subst spoken
  cases speaks <;> simp_all [ServiceVersion.code]

inductive RedisDataVersion where
  | notInited
  | v1
  | v2
  deriving DecidableEq, Repr

inductive RecvThreadStatus where
  | notInited
  | started
  | finished
  deriving DecidableEq, Repr

def configSupportMaxVersion : Int := ServiceVersion.v2.code

/-- The 40 ASCII characters as bytes. -/
def dataVersionMagicString : Bytes :=
  "372b2fc1839a9e161dd972c2964e11a262c419ad".toList.map fun char => UInt8.ofNat char.toNat

/-- `int` addition, wrapping. -/
def addInt (left right : Int) : Int := (left + right).bmod (2 ^ 32)

/-- `INT_MAX`. -/
def intMax : Int := 2 ^ 31 - 1

theorem addInt_next (begun : 0 ≤ i) (fits : i < intMax) : addInt i 1 = i + 1 := by
  unfold intMax at fits
  unfold addInt
  refine Int.bmod_eq_of_le ?_ ?_ <;> omega

theorem addInt_le_intMax (left right : Int) : addInt left right ≤ intMax := by
  have bound := Int.bmod_lt (x := left + right) (m := 2 ^ 32) (by decide)
  unfold addInt intMax
  omega

/-- `std::to_string` of a party id. -/
def decimal (party : UInt32) : String := toString party.toNat

inductive ServiceType where
  | base | cube | edge | tensor | other | cubeEngine
  deriving DecidableEq, Repr

/-- The fields of `Metadata` that `Send` fills; all others keep their defaults. -/
structure Metadata where
  taskId : String
  fromPartyId : String
  toPartyId : String
  serviceType : ServiceType
  seq : Int
  deriving DecidableEq, Repr

structure Packet where
  header : Metadata
  body : Bytes
  deriving DecidableEq, Repr

/-- A client stream: the packets whose `Write` returned true and the calls that end it. -/
structure Stream where
  written : List Packet
  writesDone : Nat
  finished : Nat
  deriving DecidableEq, Repr

def Stream.opened : Stream := ⟨[], 0, 0⟩

/-- `WritesDone` followed by `Finish`. -/
def Stream.finish (stream : Stream) : Stream :=
  { stream with writesDone := stream.writesDone + 1, finished := stream.finished + 1 }

def Stream.write (stream : Stream) (packet : Packet) : Stream :=
  { stream with written := stream.written ++ [packet] }

/-- `sender` and `rwSender` are null until `init_sender` opens a stream;
`recvThread` says whether the ack thread is joinable. -/
structure RpcClient where
  partyid : UInt32
  toPartyid : UInt32
  useRedis : Bool
  redisTimeout : Int
  sender : Option Stream
  rwSender : Option Stream
  useRpcVersion : Int
  useRedisDataVersion : RedisDataVersion
  seq : Int
  recvIdx : Int
  notackQueue : List Packet
  recvThread : Bool
  recvThreadStatus : RecvThreadStatus
  deriving DecidableEq, Repr

/-- What is thrown; `outOfRange` is the exception of `std::string::substr`. -/
inductive Exception where
  | connectServer (address : String)
  | initRpcVersion
  | sendData
  | recvData
  | recvTimeout
  | recvFailed
  | outOfRange
  deriving DecidableEq, Repr

/-- Ways to leave the defined behaviour of the program. -/
inductive Fault where
  | nullStream
  | nullClient
  | deletedClient
  | joinableThread
  | shortFrame
  deriving DecidableEq, Repr

/-- Why a call has not returned: an exception, undefined behaviour, or the end
of the given environment while the call still waits. -/
inductive Abort where
  | thrown (exception : Exception)
  | fault (fault : Fault)
  | pending
  deriving DecidableEq, Repr

/-- A client and the caller's string passed by reference. -/
structure ClientState where
  client : RpcClient
  content : Bytes

abbrev ClientM := EStateM Abort ClientState

def modifyClient (change : RpcClient → RpcClient) : ClientM Unit :=
  modify fun state => { state with client := change state.client }

/-- The constructor; `env` is `CPP_REDIS_TIMEOUT` read by `atoi`. -/
def RpcClient.init (partyid toPartyid : UInt32) (useRedis : Bool) (env : Option Int) : RpcClient where
  partyid := partyid
  toPartyid := toPartyid
  useRedis := useRedis
  redisTimeout := env.getD 120
  sender := none
  rwSender := none
  useRpcVersion := ServiceVersion.notInited.code
  useRedisDataVersion := .notInited
  seq := 0
  recvIdx := -1
  notackQueue := []
  recvThread := false
  recvThreadStatus := .notInited

/-- What the ack thread does between two steps of the caller: it starts, pops
one packet for each ack it reads, and ends when `Read` returns false. -/
structure AckRun where
  started : Bool
  acks : Nat
  finished : Bool
  deriving Repr

def AckRun.none : AckRun := ⟨false, 0, false⟩

def RpcClient.ackThread (run : AckRun) (client : RpcClient) : RpcClient :=
  if client.recvThread ∧ client.recvThreadStatus ≠ .finished ∧ run.started then
    { client with
      notackQueue := client.notackQueue.drop run.acks
      recvThreadStatus := if run.finished then .finished else .started }
  else client

inductive VersionReply where
  | ok (version : Int)
  | unimplemented
  | failed
  deriving DecidableEq, Repr

/-- The 20 attempts of `init_rpc_version`, from attempt `i` on. -/
def versionLoop (replies : Nat → VersionReply) : Nat → Nat → Option Int
  | _, 0 => none
  | i, remaining + 1 =>
    match replies i with
    | .ok version => some (min version configSupportMaxVersion)
    | .unimplemented => some ServiceVersion.v1.code
    | .failed => versionLoop replies (i + 1) remaining

def initRpcVersion (replies : Nat → VersionReply) : ClientM Unit := do
  match versionLoop replies 0 20 with
  | some version => modifyClient fun client => { client with useRpcVersion := version }
  | none => pure ()
  if (← get).client.useRpcVersion = ServiceVersion.notInited.code then
    throw (.thrown .initRpcVersion)

def RpcClient.initSender (client : RpcClient) : RpcClient :=
  if client.useRpcVersion ≥ ServiceVersion.v2.code then
    { client with rwSender := some Stream.opened, recvThread := true }
  else
    { client with sender := some Stream.opened }

/-- Outcomes met by one call of `Send`. -/
structure SendEnv where
  versions : Nat → VersionReply
  thread : AckRun
  write : Bool

def RpcClient.packet (client : RpcClient) (taskid : String) (content : Bytes) : Packet where
  header := {
    taskId := taskid
    fromPartyId := decimal client.partyid
    toPartyId := decimal client.toPartyid
    serviceType := .tensor
    seq := if client.useRpcVersion ≥ ServiceVersion.v2.code then client.seq else 0 }
  body := content

/-- A `Write` on the v2 stream returned true: count the packet and queue it. -/
def RpcClient.pushNotack (packet : Packet) (client : RpcClient) : RpcClient :=
  { client with seq := addInt client.seq 1, notackQueue := client.notackQueue ++ [packet] }

/-- `Send`. The body is swapped into the packet and swapped back on failure. -/
def send (taskid : String) (env : SendEnv) : ClientM Bool := do
  if (← get).client.useRpcVersion = ServiceVersion.notInited.code then
    initRpcVersion env.versions
    modifyClient RpcClient.initSender
  modifyClient (RpcClient.ackThread env.thread)
  if (← get).client.recvThreadStatus = .finished then
    return false
  let packet := (← get).client.packet taskid (← get).content
  modify fun state => { state with content := [] }
  if (← get).client.useRpcVersion ≥ ServiceVersion.v2.code then
    match (← get).client.rwSender with
    | none => throw (.fault .nullStream)
    | some stream =>
      if env.write then
        modifyClient fun client => { client with rwSender := some (stream.write packet) }
        modifyClient (RpcClient.pushNotack packet)
  else
    match (← get).client.sender with
    | none => throw (.fault .nullStream)
    | some stream =>
      if env.write then
        modifyClient fun client => { client with sender := some (stream.write packet) }
  if ¬ env.write then
    modify fun state => { state with content := packet.body }
    return false
  return true

/-- What `wait_flush` meets in one round of its loop. -/
structure FlushPoll where
  thread : AckRun
  ready : Bool
  elapsed : Nat

/-- `wait_flush`: the result and whether `*need_resend` was set. The doubling
interval only sets how long each round sleeps and is left to the polls. -/
def waitFlush (maxMsec : Nat) : List FlushPoll → ClientM (Bool × Bool)
  | [] => throw .pending
  | poll :: polls => do
    modifyClient (RpcClient.ackThread poll.thread)
    let client := (← get).client
    if client.notackQueue = [] then
      return (true, false)
    if client.recvThreadStatus = .finished then
      return (false, true)
    if ¬ poll.ready then
      return (false, true)
    if poll.elapsed ≥ maxMsec then
      return (false, false)
    waitFlush maxMsec polls

/-- The tuple handed from one client to the next; `int` members start at 0. -/
structure ContinueStatus where
  notackQueue : List Packet
  seq : Int
  recvIdx : Int
  useRpcVersion : Int
  useRedisDataVersion : RedisDataVersion
  deriving DecidableEq, Repr

def RpcClient.getContinueStatus (client : RpcClient) : ContinueStatus × RpcClient :=
  if client.useRpcVersion ≥ ServiceVersion.v2.code then
    ({ notackQueue := client.notackQueue
       seq := client.seq
       recvIdx := client.recvIdx
       useRpcVersion := client.useRpcVersion
       useRedisDataVersion := client.useRedisDataVersion },
     { client with notackQueue := [] })
  else
    ({ notackQueue := []
       seq := 0
       recvIdx := 0
       useRpcVersion := client.useRpcVersion
       useRedisDataVersion := client.useRedisDataVersion }, client)

/-- Write the queue to the new stream until a `Write` returns false. -/
def resend (results : Nat → Bool) : Nat → List Packet → Stream → Bool × Stream
  | _, [], stream => (true, stream)
  | i, packet :: rest, stream =>
    if results i then resend results (i + 1) rest (stream.write packet) else (false, stream)

/-- `set_continue_status`; `results` are the outcomes of its `Write` calls. -/
def RpcClient.setContinueStatus (tup : ContinueStatus) (results : Nat → Bool) (client : RpcClient) :
    Bool × RpcClient :=
  let client := { client with
    useRpcVersion := tup.useRpcVersion
    useRedisDataVersion := tup.useRedisDataVersion }
  if client.useRpcVersion ≥ ServiceVersion.v2.code then
    let client := { client with
      notackQueue := tup.notackQueue
      seq := tup.seq
      recvIdx := tup.recvIdx }
    let client := client.initSender
    let (ret, stream) := resend results 0 client.notackQueue Stream.opened
    (ret, { client with rwSender := some stream })
  else (true, client)

/-- Commands `finish` sends to Redis. -/
inductive RedisCommand where
  | hset (key : String) (fields : List (String × String))
  | expire (key : String) (seconds : Nat)
  | lpush (key value : String)
  deriving DecidableEq, Repr

/-- The channel as its clients see it through `m_ref_channel`. -/
structure ChannelRef where
  taskid : String
  stats : Statistics
  metaMap : List (String × String)

def usageKey (taskid : String) (partyid toPartyid : UInt32) : String :=
  "net_usage_" ++ taskid ++ "_" ++ decimal partyid ++ "_" ++ decimal toPartyid

def RpcClient.usageReport (client : RpcClient) (ref : ChannelRef) : List RedisCommand :=
  let key := usageKey ref.taskid client.partyid client.toPartyid
  [.hset key [("recv_bytes", toString ref.stats.bytesRecv),
      ("recv_packet", toString ref.stats.packetRecv),
      ("send_bytes", toString ref.stats.bytesSend),
      ("send_packet", toString ref.stats.packetSend)],
    .expire key (3600 * 24 * 7)] ++
  match ref.metaMap.lookup "net_usage_redis_key" with
  | none => []
  | some notifyKey =>
    (match ref.metaMap.lookup "mesh-urn" with
      | none => []
      | some urn => [RedisCommand.hset key [("mesh-urn", urn)]]) ++
    [.lpush notifyKey key, .expire notifyKey (3600 * 24 * 7)]

/-- Outcomes met by `finish`: the ack thread before the join test, the acks it
still pops until it is joined, and the number of Redis commands before an error. -/
structure FinishEnv where
  thread : AckRun
  lastAcks : Nat
  redisError : Option Nat

/-- The stream end of `finish`: `WritesDone`, `Finish` and the join. -/
def finishStream (env : FinishEnv) : ClientM Unit := do
  let client := (← get).client
  if client.useRpcVersion = ServiceVersion.notInited.code then
    pure ()
  else if client.useRpcVersion = ServiceVersion.v1.code then
    match client.sender with
    | none => throw (.fault .nullStream)
    | some stream => modifyClient fun client => { client with sender := some stream.finish }
  else if client.useRpcVersion = ServiceVersion.v2.code then
    match client.rwSender with
    | none => throw (.fault .nullStream)
    | some stream =>
      modifyClient fun client => { client with rwSender := some stream.finish }
      modifyClient (RpcClient.ackThread env.thread)
      if (← get).client.recvThreadStatus ≠ .notInited then
        modifyClient (RpcClient.ackThread ⟨true, env.lastAcks, true⟩)
        modifyClient fun client => { client with recvThread := false }
  else pure ()

/-- `finish`, returning the Redis commands that were executed. -/
def finish (ref : ChannelRef) (env : FinishEnv) : ClientM (List RedisCommand) := do
  finishStream env
  if (← get).client.useRedis then
    let report := (← get).client.usageReport ref
    match env.redisError with
    | none => return report
    | some count => return report.take count
  return []

end GaiaNet.Grpc
