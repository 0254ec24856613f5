import GaiaNet.Grpc.Protocol

/-! A v2 client and its ack thread: the caller's `Send` and the hand-over to the next
client, one step at a time, against a server that acknowledges what it receives. -/

namespace GaiaNet.Grpc

open Lib.Transition

/-- Where the caller is. `attempt`, `write` and `push` are inside `Send`, `finishing` and
`joining` inside `finish` before and after `Finish` returns; `lock` and `resend` are inside
`set_continue_status`, before and after it has `m_mtx`. -/
inductive LineStage where
  | outside
  | attempt (content : Bytes)
  | write (packet : Packet)
  | push (packet : Packet)
  | finishing
  | joining
  | take
  | delete (tup : ContinueStatus)
  | create (tup : ContinueStatus)
  | restore (tup : ContinueStatus)
  | lock (rest : List Packet)
  | resend (rest : List Packet)
  | gone
  | crashed
  deriving DecidableEq, Repr

/-- The caller is inside `Send`. -/
def LineStage.sends : LineStage → Bool
  | .attempt _ | .write _ | .push _ => true
  | _ => false

/-- `Finish` has returned: the stream has ended and `Read` returns false. -/
def LineStage.ended : LineStage → Bool
  | .joining | .take | .delete _ => true
  | _ => false

/-- The caller holds `m_mtx`. -/
def LineStage.locked : LineStage → Bool
  | .resend _ => true
  | _ => false

/-- What was written on a stream, and the seq of the packet that was the oldest
unacknowledged one when the stream was opened. -/
structure Written where
  oldest : Int
  packets : List Packet
  deriving DecidableEq, Repr

/-- `heldAck` is the ack read and not yet popped for, `acksRead` counts those read from the
current stream and `acked` those the server has sent on it; `failed` says that a `Write` on
it returned false. `past` are the streams of deleted clients, `packets` counts the `Send`
calls that have pushed. -/
structure Line where
  taskid : String
  fresh : RpcClient
  client : Option RpcClient
  stage : LineStage
  heldAck : Option Int
  acksRead : Nat
  acked : Nat
  failed : Bool
  oldest : Int
  past : List Written
  packets : Nat
  deriving DecidableEq, Repr

/-- The seq of the oldest unacknowledged packet; without one, that of the next packet. -/
def RpcClient.oldest (client : RpcClient) : Int :=
  match client.notackQueue with
  | [] => client.seq
  | packet :: _ => packet.header.seq

/-- `init_sender` has opened a stream. -/
def Line.opened (client : RpcClient) (line : Line) : Line :=
  { line with
    client := some client
    heldAck := none
    acksRead := 0
    acked := 0
    failed := false
    oldest := client.oldest }

def Line.enter (stage : LineStage) (line : Line) : Line := { line with stage := stage }

/-- Undefined behaviour or `std::terminate`. -/
def Line.crash (line : Line) : Line :=
  { line with client := none, heldAck := none, stage := .crashed }

/-- A `Write` on the current stream; after one that returned false it returns false. -/
def Line.tryWrite (ok : Bool) (packet : Packet) (client : RpcClient) (next : LineStage)
    (line : Line) : Option Line :=
  match client.rwSender with
  | none => some line.crash
  | some stream =>
    if ok then
      if line.failed then none
      else some { line with
        client := some { client with rwSender := some (stream.write packet) }, stage := next }
    else some { line with failed := true, stage := .outside }

/-- `Send` up to its `Write`; only a server of version 2 is in the protocol. -/
def Line.beginSend (versions : Nat → VersionReply) (content : Bytes) (client : RpcClient)
    (line : Line) : Option Line :=
  if client.useRpcVersion = ServiceVersion.notInited.code then
    match client.connect versions with
    | none => some (line.enter .outside)
    | some current =>
      if current.useRpcVersion = ServiceVersion.v2.code then some (line.opened current) else none
  else if client.recvThreadStatus = .finished then some (line.enter .outside)
  else some (line.enter (.write (client.packet line.taskid content)))

/-- The stream of a client that is deleted. -/
def Line.record (client : RpcClient) (line : Line) : List Written :=
  match client.rwSender with
  | none => line.past
  | some stream => ⟨line.oldest, stream.written⟩ :: line.past

/-- The next step of the caller; `ok` is the outcome of a `Write` or of `create_channel`. -/
def Line.callerStep (versions : Nat → VersionReply) (ok : Bool) (line : Line) : Option Line :=
  match line.stage, line.client with
  | .attempt content, some client => line.beginSend versions content client
  | .write packet, some client => line.tryWrite ok packet client (.push packet)
  | .push packet, some client =>
    some { line with
      client := some (client.pushNotack packet), stage := .outside, packets := line.packets + 1 }
  | .finishing, some _ => some (line.enter .joining)
  | .joining, some client =>
    match client.recvThreadStatus with
    | .notInited => some (line.enter .take)
    | .started => none
    | .finished => some { line with
        client := some { client with recvThread := false }, stage := .take }
  | .take, some client =>
    some { line with
      client := some client.getContinueStatus.2, stage := .delete client.getContinueStatus.1 }
  | .delete tup, some client =>
    if client.recvThread then some line.crash
    else some { line with client := none, stage := .create tup, past := line.record client }
  | .create tup, none =>
    if ok then some { line with client := some line.fresh, stage := .restore tup }
    else some (line.enter .gone)
  | .restore tup, some client =>
    if tup.useRpcVersion ≥ ServiceVersion.v2.code then
      some ((line.opened (client.restored tup)).enter (.lock tup.notackQueue))
    else some { line with
      client := some { client with
        useRpcVersion := tup.useRpcVersion, useRedisDataVersion := tup.useRedisDataVersion }
      stage := .outside }
  | .lock rest, some _ => some (line.enter (.resend rest))
  | .resend [], some _ => some (line.enter .outside)
  | .resend (packet :: rest), some client => line.tryWrite ok packet client (.resend rest)
  | _, _ => none

/-- The caller calls `Send`. -/
def Line.send (content : Bytes) (line : Line) : Option Line :=
  match line.stage, line.client with
  | .outside, some _ => some (line.enter (.attempt content))
  | _, _ => none

/-- The caller begins a hand-over with `finish`, which does nothing before the version is
negotiated. -/
def Line.reconnect (line : Line) : Option Line :=
  match line.stage, line.client with
  | .outside, some client =>
    if client.useRpcVersion = ServiceVersion.notInited.code then some (line.enter .take)
    else match client.rwSender with
      | none => some line.crash
      | some stream =>
        some { line with
          client := some { client with rwSender := some stream.finish }, stage := .finishing }
  | _, _ => none

def Line.readAck (client : RpcClient) (line : Line) : Option Line :=
  match client.rwSender with
  | none => none
  | some stream =>
    if line.acksRead < line.acked then
      stream.written[line.acksRead]?.map fun packet =>
        { line with heldAck := some packet.header.seq, acksRead := line.acksRead + 1 }
    else none

/-- A step of the ack thread of a client. -/
def Line.ackClientStep (client : RpcClient) (line : Line) : AckStep → Option Line
  | .start =>
    if client.recvThreadStatus = .notInited then
      some { line with client := some { client with recvThreadStatus := .started } }
    else none
  | .read =>
    if client.recvThreadStatus = .started ∧ line.heldAck = none ∧ ¬ line.stage.ended then
      line.readAck client
    else none
  | .pop =>
    if line.heldAck ≠ none ∧ client.notackQueue ≠ [] ∧ ¬ line.stage.locked then
      some { line with
        client := some { client with notackQueue := client.notackQueue.tail }, heldAck := none }
    else none
  | .stop =>
    if client.recvThreadStatus = .started ∧ line.heldAck = none ∧ ¬ line.stage.locked then
      some { line with client := some { client with recvThreadStatus := .finished } }
    else none

def Line.ackStep (step : AckStep) (line : Line) : Option Line :=
  match line.client with
  | some client => if client.recvThread then line.ackClientStep client step else none
  | none => none

/-- The server acknowledges the next packet of the current stream. -/
def Line.serve (line : Line) : Option Line :=
  match line.client with
  | none => none
  | some client =>
    match client.rwSender with
    | none => none
    | some stream =>
      if line.acked < stream.written.length then some { line with acked := line.acked + 1 }
      else none

inductive LineLabel where
  | send (content : Bytes)
  | reconnect
  | caller (versions : Nat → VersionReply) (ok : Bool)
  | ack (step : AckStep)
  | serve

def Line.next : LineLabel → Line → Option Line
  | .send content, line => line.send content
  | .reconnect, line => line.reconnect
  | .caller versions ok, line => line.callerStep versions ok
  | .ack step, line => line.ackStep step
  | .serve, line => line.serve

/-- A client that has just been made. -/
def Line.start (taskid : String) (partyid toPartyid : UInt32) (useRedis : Bool)
    (redisTimeoutEnv : Option Int) : Line where
  taskid := taskid
  fresh := RpcClient.init partyid toPartyid useRedis redisTimeoutEnv
  client := some (RpcClient.init partyid toPartyid useRedis redisTimeoutEnv)
  stage := .outside
  heldAck := none
  acksRead := 0
  acked := 0
  failed := false
  oldest := 0
  past := []
  packets := 0

/-! What the assertion that the ack thread has commented out rests on. -/

/-- The packets are numbered one by one from here on. -/
def Consecutive (first : Int) (packets : List Packet) : Prop :=
  ∀ (i : Nat) (packet : Packet), packets[i]? = some packet → packet.header.seq = first + i

/-- Acks and the unacknowledged packets go together, and `finish` can join the ack thread. -/
structure AcksMatch (line : Line) : Prop where
  queue : ∀ client, line.client = some client →
    Consecutive (client.seq - client.notackQueue.length) client.notackQueue
  stream : ∀ client stream, line.client = some client → client.rwSender = some stream →
    Consecutive line.oldest stream.written
  past : ∀ written ∈ line.past, Consecutive written.oldest written.packets
  front : ∀ client ack packet rest, line.client = some client → line.heldAck = some ack →
    client.notackQueue = packet :: rest → packet.header.seq = ack
  free : ∀ client, line.client = some client → line.stage.sends = false →
    line.heldAck ≠ none → client.notackQueue ≠ []
  joins : line.stage = .joining →
    ∃ labels after, run Line.next labels line = some after ∧ after.stage = .take

end GaiaNet.Grpc
