import GaiaNet.Grpc.Protocol

/-! The ack thread in the life of its client, one step of either at a time: from
`init_sender`, which spawns it, to `finish` and the end of the client. Nothing is assumed of
the server and of the streams. -/

namespace GaiaNet.Grpc

open Lib.Transition

/-- Where the caller is: inside `Send`, between the end of the stream and the join test of
`finish`, between `finish` and the end of the client, or inside the hand-over. `handsOver`
says that a reconnect has called `finish`, and not the end of the channel. -/
inductive LifeStage where
  | outside
  | attempt (content : Bytes)
  | write (packet : Packet)
  | push (packet : Packet)
  | joining (handsOver : Bool)
  | take
  | delete (tup : Option ContinueStatus)
  | create (tup : ContinueStatus)
  | restore (tup : ContinueStatus)
  | lock (rest : List Packet)
  | resend (rest : List Packet)
  | gone
  | crashed
  deriving DecidableEq, Repr

/-- `finish` has returned and the client is still to be deleted. -/
def LifeStage.retired : LifeStage → Bool
  | .take | .delete _ => true
  | _ => false

/-- The status on its way to the next client. -/
def LifeStage.carries : LifeStage → Option ContinueStatus
  | .delete tup => tup
  | .create tup | .restore tup => some tup
  | _ => none

/-- `acking` says that the ack thread has read an ack that it has not popped for. `deleted` are
the clients deleted after `finish`, as they were then. -/
structure AckLife where
  taskid : String
  fresh : RpcClient
  client : Option RpcClient
  stage : LifeStage
  acking : Bool
  deleted : List RpcClient
  deriving DecidableEq, Repr

namespace AckLife

def enter (stage : LifeStage) (life : AckLife) : AckLife := { life with stage := stage }

/-- A `Write`, on the stream of the negotiated version. -/
def tryWrite (ok : Bool) (packet : Packet) (client : RpcClient) (done : LifeStage)
    (life : AckLife) : AckLife :=
  match client.target with
  | none => life.enter .crashed
  | some stream =>
    if ok then
      if client.useRpcVersion ≥ ServiceVersion.v2.code then
        { life with
          client := some { client with rwSender := some (stream.write packet) }, stage := done }
      else
        { life with
          client := some { client with sender := some (stream.write packet) }, stage := .outside }
    else life.enter .outside

/-- `Send` up to its `Write`. -/
def beginSend (versions : Nat → VersionReply) (content : Bytes) (client : RpcClient)
    (life : AckLife) : AckLife :=
  if client.useRpcVersion = ServiceVersion.notInited.code then
    match client.connect versions with
    | none => life.enter .outside
    | some current => { life with client := some current }
  else if client.recvThreadStatus = .finished then life.enter .outside
  else life.enter (.write (client.packet life.taskid content))

/-- `finish` returns. -/
def leave (handsOver : Bool) (life : AckLife) : AckLife :=
  life.enter (if handsOver then .take else .delete none)

/-- `finish` up to the join test: the stream ends. -/
def beginFinish (handsOver : Bool) (client : RpcClient) (life : AckLife) : AckLife :=
  if client.useRpcVersion = ServiceVersion.notInited.code then life.leave handsOver
  else if client.useRpcVersion = ServiceVersion.v1.code then
    match client.sender with
    | none => life.enter .crashed
    | some stream =>
      { life with client := some { client with sender := some stream.finish } }.leave handsOver
  else if client.useRpcVersion = ServiceVersion.v2.code then
    match client.rwSender with
    | none => life.enter .crashed
    | some stream =>
      { life with client := some { client with rwSender := some stream.finish } }.enter
        (.joining handsOver)
  else life.leave handsOver

/-- The join test: a thread whose status is set is waited for. -/
def join (handsOver : Bool) (client : RpcClient) (life : AckLife) : Option AckLife :=
  match client.recvThreadStatus with
  | .notInited => some (life.leave handsOver)
  | .started => none
  | .finished =>
    some ({ life with client := some { client with recvThread := false } }.leave handsOver)

/-- `delete`: the destructor of a joinable thread ends the process. -/
def delete (tup : Option ContinueStatus) (client : RpcClient) (life : AckLife) : AckLife :=
  { life with
    client := none
    acking := false
    deleted := client :: life.deleted
    stage :=
      if client.recvThread then .crashed
      else match tup with
        | none => .gone
        | some tup => .create tup }

/-- The next step of the caller; `ok` is the outcome of a `Write` or of `create_channel`. -/
def callerStep (versions : Nat → VersionReply) (ok : Bool) (life : AckLife) : Option AckLife :=
  match life.stage, life.client with
  | .attempt content, some client => some (life.beginSend versions content client)
  | .write packet, some client => some (life.tryWrite ok packet client (.push packet))
  | .push packet, some client =>
    some { life with client := some (client.pushNotack packet), stage := .outside }
  | .joining handsOver, some client => life.join handsOver client
  | .take, some client =>
    some { life with
      client := some client.getContinueStatus.2, stage := .delete (some client.getContinueStatus.1) }
  | .delete tup, some client => some (life.delete tup client)
  | .create tup, none =>
    if ok then some { life with client := some life.fresh, stage := .restore tup }
    else some (life.enter .gone)
  | .restore tup, some client =>
    if tup.useRpcVersion ≥ ServiceVersion.v2.code then
      some { life with client := some (client.restored tup), stage := .lock tup.notackQueue }
    else some { life with
      client := some { client with
        useRpcVersion := tup.useRpcVersion, useRedisDataVersion := tup.useRedisDataVersion }
      stage := .outside }
  | .lock rest, some _ => some (life.enter (.resend rest))
  | .resend [], some _ => some (life.enter .outside)
  | .resend (packet :: rest), some client => some (life.tryWrite ok packet client (.resend rest))
  | _, _ => none

/-- The caller holds `m_mtx`. -/
def locked (life : AckLife) : Bool :=
  match life.stage with
  | .resend _ => true
  | _ => false

/-- A step of the ack thread of a client. -/
def threadStep (client : RpcClient) (life : AckLife) : AckStep → Option AckLife
  | .start =>
    if client.recvThreadStatus = .notInited then
      some { life with client := some { client with recvThreadStatus := .started } }
    else none
  | .read =>
    if client.recvThreadStatus = .started ∧ life.acking = false then
      some { life with acking := true }
    else none
  | .pop =>
    if life.acking = true ∧ client.notackQueue ≠ [] ∧ life.locked = false then
      some { life with
        client := some { client with notackQueue := client.notackQueue.tail }, acking := false }
    else none
  | .stop =>
    if client.recvThreadStatus = .started ∧ life.acking = false ∧ life.locked = false then
      some { life with client := some { client with recvThreadStatus := .finished } }
    else none

/-- The caller calls `Send` or `finish`. -/
inductive Label where
  | send (content : Bytes)
  | finish (handsOver : Bool)
  | caller (versions : Nat → VersionReply) (ok : Bool)
  | thread (step : AckStep)

def next : Label → AckLife → Option AckLife
  | .send content, life =>
    match life.stage, life.client with
    | .outside, some _ => some (life.enter (.attempt content))
    | _, _ => none
  | .finish handsOver, life =>
    match life.stage, life.client with
    | .outside, some client => some (life.beginFinish handsOver client)
    | _, _ => none
  | .caller versions ok, life => life.callerStep versions ok
  | .thread step, life =>
    match life.client with
    | some client => if client.recvThread then life.threadStep client step else none
    | none => none

/-- A client that has just been made. -/
def start (taskid : String) (partyid toPartyid : UInt32) (useRedis : Bool)
    (redisTimeoutEnv : Option Int) : AckLife where
  taskid := taskid
  fresh := RpcClient.init partyid toPartyid useRedis redisTimeoutEnv
  client := some (RpcClient.init partyid toPartyid useRedis redisTimeoutEnv)
  stage := .outside
  acking := false
  deleted := []

/-! `finish` as one call is a run of these steps. -/

def hold (client : RpcClient) (life : AckLife) : AckLife :=
  { life with client := some client, acking := false }

variable {client : RpcClient}

theorem thread_reaches {life after : AckLife} (step : AckStep)
    (live : life.client = some client) (thread : client.recvThread = true)
    (moved : life.threadStep client step = some after) : Reaches next life after := by
  have steps : next (.thread step) life = some after := by
    simp only [next, live, thread, if_true, moved]
  exact (Reaches.refl next life).step steps

/-- The thread reads an ack and pops for it, any number of times. -/
theorem acks_reach (acks : Nat) (client : RpcClient) (life : AckLife)
    (thread : client.recvThread = true) (started : client.recvThreadStatus = .started)
    (unlocked : life.locked = false) :
    Reaches next (life.hold client)
      (life.hold { client with notackQueue := client.notackQueue.drop acks }) := by
  induction acks generalizing client with
  | zero => exact Reaches.refl next _
  | succ acks ih =>
    cases queue : client.notackQueue with
    | nil =>
      rw [List.drop_nil, ← queue]
      exact Reaches.refl next _
    | cons packet rest =>
      have read : (life.hold client).threadStep client .read =
          some { life.hold client with acking := true } := by
        simp [threadStep, hold, started]
      have pop : AckLife.threadStep client { life.hold client with acking := true } .pop =
          some (life.hold { client with notackQueue := rest }) := by
        have free : AckLife.locked { life.hold client with acking := true } = false := unlocked
        have full : client.notackQueue ≠ [] := by simp [queue]
        have tail : client.notackQueue.tail = rest := by rw [queue, List.tail_cons]
        rw [← tail]
        exact if_pos ⟨rfl, full, free⟩
      have popped := (thread_reaches .read rfl thread read).trans (thread_reaches .pop rfl thread pop)
      exact popped.trans (ih { client with notackQueue := rest } thread started)

theorem ackThread_reaches (run : AckRun) (client : RpcClient) (life : AckLife)
    (unlocked : life.locked = false) :
    Reaches next (life.hold client) (life.hold (client.ackThread run)) := by
  unfold RpcClient.ackThread
  split
  · rename_i runs
    obtain ⟨thread, unfinished, -⟩ := runs
    have begun : Reaches next (life.hold client)
        (life.hold { client with recvThreadStatus := .started }) := by
      cases status : client.recvThreadStatus with
      | notInited => exact thread_reaches .start rfl thread (by simp [threadStep, hold, status])
      | started =>
        rw [← status]
        exact Reaches.refl next _
      | finished => exact absurd status unfinished
    have popped := begun.trans (acks_reach run.acks _ life thread rfl unlocked)
    cases run.finished with
    | false => exact popped
    | true =>
      refine popped.trans (thread_reaches .stop rfl thread ?_)
      have free : AckLife.locked (life.hold { client with
          recvThreadStatus := .started, notackQueue := client.notackQueue.drop run.acks }) = false :=
        unlocked
      exact if_pos ⟨rfl, rfl, free⟩
  · exact Reaches.refl next _

/-- Only a joinable thread can be running. -/
def Running (client : RpcClient) : Prop :=
  client.recvThreadStatus = .started → client.recvThread = true

theorem Running.ackThread (running : Running client) (run : AckRun) :
    Running (client.ackThread run) := by
  unfold RpcClient.ackThread
  split
  · rename_i runs
    exact fun _ => runs.1
  · exact running

/-- A thread that is waited for ends. -/
theorem Running.waited (running : Running client) (set : client.recvThreadStatus ≠ .notInited)
    (acks : Nat) : (client.ackThread ⟨true, acks, true⟩).recvThreadStatus = .finished := by
  unfold RpcClient.ackThread
  split
  · rfl
  · rename_i idle
    cases status : client.recvThreadStatus with
    | notInited => exact absurd status set
    | started => exact absurd ⟨running status, by simp [status], rfl⟩ idle
    | finished => rfl

/-- The join test, with what the thread does before it and while it is waited for. -/
theorem join_reaches (env : FinishEnv) (handsOver : Bool) (life : AckLife) (running : Running client) :
    Reaches next ((life.hold client).enter (.joining handsOver))
      ((life.hold (client.joined env)).leave handsOver) := by
  have waits (run : AckRun) (client : RpcClient) :
      Reaches next ((life.hold client).enter (.joining handsOver))
        ((life.hold (client.ackThread run)).enter (.joining handsOver)) :=
    ackThread_reaches run client (life.enter (.joining handsOver)) rfl
  have joins {client new : RpcClient}
      (joined : ((life.hold client).enter (.joining handsOver)).join handsOver client =
        some ((life.hold new).leave handsOver)) :
      Reaches next ((life.hold client).enter (.joining handsOver))
        ((life.hold new).leave handsOver) :=
    (Reaches.refl next _).step
      (show next (.caller (fun _ => .failed) true) _ = some _ from joined)
  have tested := waits env.thread client
  have later := running.ackThread env.thread
  unfold RpcClient.joined
  generalize client.ackThread env.thread = current at tested later
  simp only
  by_cases silent : current.recvThreadStatus = .notInited
  · rw [if_neg (Classical.not_not.mpr silent)]
    refine tested.trans (joins ?_)
    simp only [join, silent]
    rfl
  · rw [if_pos silent]
    refine (tested.trans (waits ⟨true, env.lastAcks, true⟩ current)).trans (joins ?_)
    simp only [join, later.waited silent]
    rfl

/-- Every outcome of `finish` on a client that it can end. -/
theorem finish_reaches (env : FinishEnv) (handsOver : Bool) {life : AckLife} (ready : client.CanFinish)
    (live : life.client = some client) (outside : life.stage = .outside) (silent : life.acking = false)
    (running : Running client) :
    Reaches next life ((life.hold (client.finished env)).leave handsOver) := by
  have held (other : RpcClient) : { life with client := some other } = life.hold other := by
    unfold hold
    rw [← silent]
  have begins : Reaches next life (life.beginFinish handsOver client) := by
    have steps : next (.finish handsOver) life = some (life.beginFinish handsOver client) := by
      simp only [next, outside, live]
    exact (Reaches.refl next life).step steps
  have kept : life = life.hold client := by rw [← held, ← live]
  unfold RpcClient.finished
  unfold beginFinish at begins
  by_cases first : client.useRpcVersion = ServiceVersion.v1.code
  · obtain ⟨stream, opened⟩ := Option.ne_none_iff_exists'.mp (ready.1 first)
    have set : client.useRpcVersion ≠ ServiceVersion.notInited.code :=
      ServiceVersion.code_ne first (by simp)
    rw [if_neg set, if_pos first, opened] at begins
    rw [if_pos first, opened, Option.map_some, ← held]
    exact begins
  rw [if_neg first]
  rw [if_neg first] at begins
  by_cases second : client.useRpcVersion = ServiceVersion.v2.code
  · obtain ⟨stream, opened⟩ := Option.ne_none_iff_exists'.mp (ready.2 second)
    have set : client.useRpcVersion ≠ ServiceVersion.notInited.code :=
      ServiceVersion.code_ne second (by simp)
    rw [if_neg set, if_pos second, opened] at begins
    rw [if_pos second, opened, Option.map_some]
    simp only at begins
    rw [held] at begins
    exact begins.trans (join_reaches env handsOver life running)
  · rw [if_neg second]
    rw [if_neg second, ite_self] at begins
    rw [← kept]
    exact begins

end AckLife

end GaiaNet.Grpc
