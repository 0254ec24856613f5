import GaiaNet.Grpc.Calls
import GaiaNet.Grpc.Channel
import GaiaNet.Lib.Transition

/-! The v2 protocol from one channel to another, one step at a time: the application
thread in `real_send` and `flush`, the ack thread, the handlers of the streams at the
server, the Redis list and the `Recv` of the other channel. -/

namespace GaiaNet.Grpc

/-- One `push_v2` stream at the server: what has arrived, and how much of it the
handler has appended to the list and then acknowledged. -/
structure Handler where
  received : List Packet
  appended : Nat
  acked : Nat
  deriving DecidableEq, Repr

def Handler.opened : Handler := ⟨[], 0, 0⟩

inductive Call where
  | send (message : Bytes)
  | flush
  deriving DecidableEq, Repr

/-- Where a call stands in one round of its loop. In `write` the caller's string is
swapped into the packet; in `push` its `Write` has returned true; `resend` holds `m_mtx`. -/
inductive Stage where
  | attempt
  | write (packet : Packet)
  | push (packet : Packet)
  | finish
  | join
  | giveUp
  | create (tup : ContinueStatus)
  | restore (tup : ContinueStatus)
  | resend (rest : List Packet)
  deriving DecidableEq, Repr

inductive App where
  | idle
  | calling (call : Call) (round : Nat) (stage : Stage)
  | crashed (fault : Fault)
  deriving DecidableEq, Repr

/-- `heldAck` is the ack read and not yet popped for, `acksRead` counts those read from
the current stream, `failed` says that a `Write` on it returned false. The list is kept
whole, oldest element first, with the number of elements popped. `pending` are the
messages the application is going to send, `sent` those whose `real_send` returned. -/
structure Link where
  channel : Channel
  app : App
  content : Bytes
  heldAck : Option Int
  acksRead : Nat
  failed : Bool
  handlers : List Handler
  redis : List Bytes
  popped : Nat
  receiver : RpcClient
  pending : List Bytes
  sent : List Bytes
  delivered : List Bytes

def Link.setClient (client : RpcClient) (link : Link) : Link :=
  { link with channel := { link.channel with client := .live client } }

def Link.enter (call : Call) (round : Nat) (stage : Stage) (link : Link) : Link :=
  { link with app := .calling call round stage }

def Link.crash (fault : Fault) (link : Link) : Link :=
  { link with app := .crashed fault }

/-- The call throws, or `flush` answers false. -/
def Link.fail (link : Link) : Link := { link with app := .idle }

/-- The call returns. -/
def Link.succeed (call : Call) (link : Link) : Link :=
  match call with
  | .flush => { link with app := .idle }
  | .send message =>
    { link with
      app := .idle
      sent := link.sent ++ [message]
      channel := { link.channel with
        stats := link.channel.stats.statisticsSend (UInt64.ofNat message.length) } }

/-- A client has opened a stream, which starts its ack thread. -/
def Link.opened (client : RpcClient) (link : Link) : Link :=
  { link.setClient client with
    heldAck := none
    acksRead := 0
    failed := false
    handlers := Handler.opened :: link.handlers }

/-- The end of a round whose `set_continue_status` returned `ret`. -/
def Link.endRound (call : Call) (round : Nat) (ret : Bool) (link : Link) : Link :=
  if round + 1 < maxRetry then link.enter call (round + 1) .attempt
  else match call with
    | .flush => link.succeed call
    | .send _ => if ret then link.succeed call else link.fail

/-- What decides the next step of the application thread: the answers to `get_version`,
the outcome of a `Write` or `WaitForConnected`, and what `wait_flush` reads. -/
structure StepEnv where
  versions : Nat → VersionReply
  ok : Bool
  ready : Bool
  timeout : Bool

/-- The version is not negotiated yet; only a server of version 2 is in the protocol. -/
def Link.negotiate (env : StepEnv) (client : RpcClient) (link : Link) : Option Link :=
  match client.connect env.versions with
  | none => some link.fail
  | some current =>
    if current.useRpcVersion = ServiceVersion.v2.code then some (link.opened current) else none

/-- `Send` up to its `Write`. -/
def Link.beginSend (env : StepEnv) (call : Call) (round : Nat) (client : RpcClient)
    (link : Link) : Option Link :=
  if client.useRpcVersion = ServiceVersion.notInited.code then
    link.negotiate env client
  else if client.recvThreadStatus = .finished then
    some (link.enter call round .finish)
  else
    let packet := client.packet link.channel.channelId link.content
    some ({ link with content := [] }.enter call round (.write packet))

/-- One round of the loop of `wait_flush`. -/
def Link.poll (env : StepEnv) (call : Call) (round : Nat) (client : RpcClient)
    (link : Link) : Link :=
  if client.notackQueue = [] then link.succeed call
  else if client.recvThreadStatus = .finished then link.enter call round .finish
  else if ¬ env.ready then link.enter call round .finish
  else if env.timeout then link.fail
  else link

/-- A `Write` on the current stream; after one that returned false it returns false. -/
def Link.tryWrite (packet : Packet) (client : RpcClient) (stream : Stream) (link : Link) :
    Option Link :=
  if link.failed then none
  else some (link.setClient { client with rwSender := some (stream.write packet) })

/-- `set_continue_status` up to its loop over the queue. -/
def RpcClient.restored (tup : ContinueStatus) (client : RpcClient) : RpcClient :=
  { client with
    useRpcVersion := tup.useRpcVersion
    useRedisDataVersion := tup.useRedisDataVersion
    notackQueue := tup.notackQueue
    seq := tup.seq
    recvIdx := tup.recvIdx }.initSender

/-- A step of the application thread that uses `m_client`. -/
def Link.clientStep (env : StepEnv) (call : Call) (round : Nat) (client : RpcClient)
    (link : Link) : Stage → Option Link
  | .attempt =>
    match call with
    | .send _ => link.beginSend env call round client
    | .flush => some (link.poll env call round client)
  | .write packet =>
    match client.rwSender with
    | none => some (link.crash .nullStream)
    | some stream =>
      if env.ok then
        (link.tryWrite packet client stream).map (Link.enter call round (.push packet))
      else
        some ({ link with failed := true, content := packet.body }.enter call round .finish)
  | .push packet => some ((link.setClient (client.pushNotack packet)).succeed call)
  | .finish =>
    match client.rwSender with
    | none => some (link.crash .nullStream)
    | some stream =>
      some ((link.setClient { client with rwSender := some stream.finish }).enter call round .join)
  | .join =>
    match client.recvThreadStatus with
    | .notInited => some (link.enter call round .giveUp)
    | .started => none
    | .finished => some ((link.setClient { client with recvThread := false }).enter call round .giveUp)
  | .giveUp =>
    if client.recvThread then some (link.crash .joinableThread)
    else some ({ link with channel := { link.channel with client := .null } }.enter call round
      (.create client.getContinueStatus.1))
  | .create _ => none
  | .restore tup =>
    some ((link.opened (client.restored tup)).enter call round (.resend tup.notackQueue))
  | .resend [] => some (link.endRound call round true)
  | .resend (packet :: rest) =>
    match client.rwSender with
    | none => some (link.crash .nullStream)
    | some stream =>
      if env.ok then
        (link.tryWrite packet client stream).map (Link.enter call round (.resend rest))
      else some ({ link with failed := true }.endRound call round false)

def Link.create (env : StepEnv) (call : Call) (round : Nat) (tup : ContinueStatus)
    (link : Link) : Link :=
  if env.ok then (link.setClient link.channel.newClient).enter call round (.restore tup)
  else link.fail

/-- The next step of the application thread inside a call. -/
def Link.appStep (env : StepEnv) (link : Link) : Option Link :=
  match link.app with
  | .idle | .crashed _ => none
  | .calling call round (.create tup) => some (link.create env call round tup)
  | .calling call round stage =>
    match link.channel.client with
    | .live client => link.clientStep env call round client stage
    | .null => some (link.crash .nullClient)
    | .dangling => some (link.crash .deletedClient)

def Link.locked (link : Link) : Bool :=
  match link.app with
  | .calling _ _ (.resend _) => true
  | _ => false

/-- Steps of the ack thread: set the status, read an ack, pop the front, end. -/
inductive AckStep where
  | start
  | read
  | pop
  | stop
  deriving DecidableEq, Repr

def Link.readAck (link : Link) : Option Link :=
  match link.handlers with
  | [] => none
  | handler :: _ =>
    if link.acksRead < handler.acked then
      handler.received[link.acksRead]?.map fun packet =>
        { link with heldAck := some packet.header.seq, acksRead := link.acksRead + 1 }
    else none

def Link.ackClientStep (client : RpcClient) (link : Link) : AckStep → Option Link
  | .start =>
    if client.recvThreadStatus = .notInited then
      some (link.setClient { client with recvThreadStatus := .started })
    else none
  | .read =>
    if client.recvThreadStatus = .started ∧ link.heldAck = none then link.readAck else none
  | .pop =>
    if link.heldAck ≠ none ∧ client.notackQueue ≠ [] ∧ ¬ link.locked then
      some { link.setClient { client with notackQueue := client.notackQueue.tail } with
        heldAck := none }
    else none
  | .stop =>
    if client.recvThreadStatus = .started ∧ link.heldAck = none ∧ ¬ link.locked then
      some (link.setClient { client with recvThreadStatus := .finished })
    else none

def Link.ackStep (step : AckStep) (link : Link) : Option Link :=
  match link.channel.client with
  | .live client => if client.recvThread then link.ackClientStep client step else none
  | _ => none

/-- What a handler appends; the first element of the list carries the magic string. -/
def redisFrame (first : Bool) (packet : Packet) : Bytes :=
  (if first then dataVersionMagicString else []) ++
    Lib.LittleEndian.encode 4 (packet.header.seq % 2 ^ 32).toNat ++ packet.body

/-- The next packet of the current stream arrives at its handler. -/
def Link.receive (link : Link) : Option Link :=
  match link.channel.client, link.handlers with
  | .live client, handler :: rest =>
    match client.rwSender with
    | none => none
    | some stream => stream.written[handler.received.length]?.map fun packet =>
        { link with
          handlers := { handler with received := handler.received ++ [packet] } :: rest }
  | _, _ => none

/-- A handler, also one of a broken stream, appends its next packet to the list. -/
def Link.append (k : Nat) (link : Link) : Option Link :=
  match link.handlers[k]? with
  | none => none
  | some handler =>
    if handler.acked = handler.appended then
      handler.received[handler.appended]?.map fun packet =>
        { link with
          redis := link.redis ++ [redisFrame (link.redis = []) packet]
          handlers := link.handlers.set k { handler with appended := handler.appended + 1 } }
    else none

def Link.acknowledge (k : Nat) (link : Link) : Option Link :=
  match link.handlers[k]? with
  | none => none
  | some handler =>
    if handler.acked < handler.appended then
      some { link with
        handlers := link.handlers.set k { handler with acked := handler.acked + 1 } }
    else none

/-- A `Recv` of the other channel pops the next element and treats it. -/
def Link.pop (link : Link) : Option Link :=
  link.redis[link.popped]?.map fun frame =>
    match receiveFrame frame ⟨link.receiver, []⟩ with
    | .ok (.deliver content) inner =>
      { link with
        receiver := inner.client
        popped := link.popped + 1
        delivered := link.delivered ++ [content] }
    | .ok _ inner | .error _ inner =>
      { link with receiver := inner.client, popped := link.popped + 1 }

/-- The application calls `real_send` on its next message, or `flush`. -/
def Link.call (flush : Bool) (link : Link) : Option Link :=
  match link.app with
  | .idle =>
    if flush then some (link.enter .flush 0 .attempt)
    else match link.pending with
      | [] => none
      | message :: rest =>
        some ({ link with pending := rest, content := message }.enter (.send message) 0 .attempt)
  | _ => none

inductive Label where
  | call (flush : Bool)
  | app (env : StepEnv)
  | ack (step : AckStep)
  | receive
  | append (k : Nat)
  | acknowledge (k : Nat)
  | pop

def Link.next : Label → Link → Option Link
  | .call flush, link => link.call flush
  | .app env, link => link.appStep env
  | .ack step, link => link.ackStep step
  | .receive, link => link.receive
  | .append k, link => link.append k
  | .acknowledge k, link => link.acknowledge k
  | .pop, link => link.pop

/-- A sending channel right after its constructor, a receiver that has read nothing, and
the messages to send. -/
def Link.start (fromParty toParty : UInt32) (taskid serverAddress : String)
    (metaMap : List (String × String)) (redisTimeoutEnv : Option Int) (messages : List Bytes) :
    Link where
  channel :=
    let channel := Channel.init fromParty toParty taskid serverAddress true metaMap redisTimeoutEnv
    { channel with client := .live channel.newClient }
  app := .idle
  content := []
  heldAck := none
  acksRead := 0
  failed := false
  handlers := []
  redis := []
  popped := 0
  receiver := RpcClient.init toParty fromParty true redisTimeoutEnv
  pending := messages
  sent := []
  delivered := []

end GaiaNet.Grpc
