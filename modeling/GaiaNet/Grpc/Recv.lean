import GaiaNet.Grpc.Client

/-! `RpcClient::Recv`: the polling loop over a Redis list, the frame header and
the pull from the local server. -/

namespace GaiaNet.Grpc

/-- One `brpop`: an element, nothing within its second (and what the ack thread
did meanwhile), or a Redis error. -/
inductive Poll where
  | element (frame : Bytes)
  | empty (thread : AckRun)
  | error

/-- The list key of `brpop`. -/
def redisKey (toPartyid partyid : UInt32) (taskid : String) : String :=
  decimal toPartyid ++ decimal partyid ++ taskid

/-- `init_redis_data_version`: the version and the content without the magic. -/
def initRedisDataVersion (contentTemp : Bytes) : RedisDataVersion × Bytes :=
  if contentTemp.take dataVersionMagicString.length = dataVersionMagicString then
    (.v2, contentTemp.drop dataVersionMagicString.length)
  else (.v1, contentTemp)

/-- `memcpy` of four bytes into an `int32_t`; a string ends with one null byte
past its contents. -/
def frameIndex (frame : Bytes) : Option Int :=
  if frame.length < 3 then none
  else some ((Lib.LittleEndian.decode ((frame ++ [0]).take 4) : Int).bmod (2 ^ 32))

/-- What the loop makes of one element. -/
inductive Verdict where
  | deliver (content : Bytes)
  | control
  | repeated
  | gap
  deriving DecidableEq, Repr

/-- The body of the loop for an element, from the inner copy `content_temp` on. -/
def receiveFrame (frame : Bytes) : ClientM Verdict := do
  let mut content := frame
  if (← get).client.useRedisDataVersion = .notInited then
    let (version, rest) := initRedisDataVersion content
    modifyClient fun client => { client with useRedisDataVersion := version }
    content := rest
  if (← get).client.useRedisDataVersion ≠ .v2 then
    return .deliver content
  match frameIndex content with
  | none => throw (.fault .shortFrame)
  | some idx =>
    if content.length = 4 ∧ idx < 0 then
      return .control
    let wanted := addInt (← get).client.recvIdx 1
    if idx = wanted then
      if content.length < 4 then
        throw (.thrown .outOfRange)
      modifyClient fun client => { client with recvIdx := idx }
      return .deliver (content.drop 4)
    else if idx < wanted then
      return .repeated
    else
      return .gap

/-- How one pass through the body of the loop ends: the next round, the call of `Recv`
for a repeated frame, or a return with `*need_resend`. -/
inductive Pass where
  | next
  | recv
  | ends (ret needResend : Bool)
  deriving DecidableEq, Repr

/-- The body of the loop. A Redis error is caught in the call that polls. -/
def recvBody (withResend : Bool) : Poll → ClientM Pass
  | .error => return .next
  | .empty thread => do
    modifyClient (RpcClient.ackThread thread)
    let client := (← get).client
    if client.recvThreadStatus = .finished ∧ client.notackQueue ≠ [] ∧ withResend then
      return .ends false true
    return .next
  | .element frame => do
    match ← receiveFrame frame with
    | .deliver content =>
      modify fun state => { state with content := content }
      return .ends true false
    | .control => return .next
    | .repeated => return .recv
    | .gap => return .ends false false

/-- The condition of the loop in round `i`. -/
def RpcClient.InTime (client : RpcClient) (i : Int) : Prop :=
  i ≤ client.redisTimeout ∨ client.redisTimeout = 0

instance (client : RpcClient) (i : Int) : Decidable (client.InTime i) :=
  inferInstanceAs (Decidable (_ ∨ _))

/-- Return value, `*need_resend`, and the polls not used up. -/
structure RecvResult where
  ret : Bool
  needResend : Bool
  rest : List Poll

/-- The loop of `Recv` in its round `i`; a repeated frame makes the function call
itself, which starts again at round 1. -/
def recvRedis (withResend : Bool) : Int → List Poll → ClientM RecvResult
  | i, polls => do
    if ¬ (← get).client.InTime i then
      return ⟨false, false, polls⟩
    match polls with
    | [] => throw .pending
    | poll :: rest =>
      match ← recvBody withResend poll with
      | .next => recvRedis withResend (addInt i 1) rest
      | .recv => recvRedis withResend 1 rest
      | .ends ret needResend => return ⟨ret, needResend, rest⟩
termination_by structural _ polls => polls

/-- The answer of the local server to `pull`. -/
inductive PullReply where
  | found (body : Bytes)
  | missing
  | failed

/-- What one call of `Recv` meets: the Redis lists by key, or the local server. -/
structure RecvEnv where
  polls : String → List Poll
  pull : PullReply

def recv (taskid : String) (withResend : Bool) (env : RecvEnv) : ClientM RecvResult := do
  let client := (← get).client
  if client.useRedis then
    recvRedis withResend 1 (env.polls (redisKey client.toPartyid client.partyid taskid))
  else
    match env.pull with
    | .found body =>
      modify fun state => { state with content := body }
      return ⟨true, false, []⟩
    | .missing => throw (.thrown .recvTimeout)
    | .failed => throw (.thrown .recvFailed)

end GaiaNet.Grpc
