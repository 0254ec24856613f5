import GaiaNet.Grpc.Recv
import GaiaNet.Lib.Hoare

/-! What `Send` and `finish` do to a client, as equations and as one inversion
lemma for each. -/

namespace GaiaNet.Grpc

open Lib.Hoare

/-- The stream `Send` writes to. -/
def RpcClient.target (client : RpcClient) : Option Stream :=
  if client.useRpcVersion ≥ ServiceVersion.v2.code then client.rwSender else client.sender

/-- The client after an accepted `Write`. -/
def RpcClient.accept (stream : Stream) (packet : Packet) (client : RpcClient) : RpcClient :=
  if client.useRpcVersion ≥ ServiceVersion.v2.code then
    { client with rwSender := some (stream.write packet) }.pushNotack packet
  else { client with sender := some (stream.write packet) }

/-- The client after the first `Send` has connected it; `none` where that throws. -/
def RpcClient.connect (versions : Nat → VersionReply) (client : RpcClient) : Option RpcClient :=
  match versionLoop versions 0 20 with
  | none => none
  | some version =>
    if version = ServiceVersion.notInited.code then none
    else some { client with useRpcVersion := version }.initSender

theorem send_connected (taskid : String) (env : SendEnv) (client : RpcClient) (content : Bytes)
    (connected : client.useRpcVersion ≠ ServiceVersion.notInited.code) :
    send taskid env ⟨client, content⟩ =
      let current := client.ackThread env.thread
      if current.recvThreadStatus = .finished then .ok false ⟨current, content⟩
      else match current.target with
        | none => .error (.fault .nullStream) ⟨current, []⟩
        | some stream =>
          if env.write then .ok true ⟨current.accept stream (current.packet taskid content), []⟩
          else .ok false ⟨current, content⟩ := by
  simp only [send, run_bind, run_get, connected, if_false, modifyClient, run_modify,
    run_ite, run_pure]
  unfold RpcClient.target RpcClient.accept
  split
  · rfl
  · by_cases second : (client.ackThread env.thread).useRpcVersion ≥ ServiceVersion.v2.code
    · simp only [if_pos second]
      cases (client.ackThread env.thread).rwSender with
      | none => rfl
      | some stream => cases env.write <;> rfl
    · simp only [if_neg second]
      cases (client.ackThread env.thread).sender with
      | none => rfl
      | some stream => cases env.write <;> rfl

theorem initRpcVersion_eq (versions : Nat → VersionReply) (client : RpcClient) (content : Bytes)
    (fresh : client.useRpcVersion = ServiceVersion.notInited.code) :
    initRpcVersion versions ⟨client, content⟩ =
      match versionLoop versions 0 20 with
      | none => .error (.thrown .initRpcVersion) ⟨client, content⟩
      | some version =>
        if version = ServiceVersion.notInited.code then
          .error (.thrown .initRpcVersion) ⟨client, content⟩
        else .ok ⟨⟩ ⟨{ client with useRpcVersion := version }, content⟩ := by
  unfold initRpcVersion
  cases versionLoop versions 0 20 with
  | none =>
    simp only [run_bind, run_get, fresh, if_true]
    rfl
  | some version =>
    simp only [run_bind, run_get, modifyClient, run_modify, run_ite]
    split
    · rename_i same
      subst same
      rw [← fresh]
      rfl
    · rfl

theorem send_fresh (taskid : String) (env : SendEnv) (client : RpcClient) (content : Bytes)
    (fresh : client.useRpcVersion = ServiceVersion.notInited.code) :
    send taskid env ⟨client, content⟩ =
      match client.connect env.versions with
      | none => .error (.thrown .initRpcVersion) ⟨client, content⟩
      | some ready => send taskid env ⟨ready, content⟩ := by
  unfold RpcClient.connect
  have opening := initRpcVersion_eq env.versions client content fresh
  cases found : versionLoop env.versions 0 20 with
  | none =>
    rw [found] at opening
    unfold send
    simp only [run_bind, run_get, fresh, if_true]
    rw [opening]
  | some version =>
    rw [found] at opening
    by_cases unset : version = ServiceVersion.notInited.code
    · simp only [unset, if_true] at opening ⊢
      unfold send
      simp only [run_bind, run_get, fresh, if_true]
      rw [opening]
    · simp only [unset, if_false] at opening ⊢
      have connected : ({ client with useRpcVersion := version } : RpcClient).initSender.useRpcVersion ≠
          ServiceVersion.notInited.code := by
        unfold RpcClient.initSender
        split <;> exact unset
      unfold send
      simp only [run_bind, run_get, fresh, connected, if_true, if_false, opening]
      rfl

/-- What the ack thread can change: packets leave the front of the queue, and its status. -/
structure Acked (before after : RpcClient) : Prop where
  queue : after.notackQueue <:+ before.notackQueue
  idle : before.recvThread = false → after.recvThreadStatus = before.recvThreadStatus
  rest : after = { before with
    notackQueue := after.notackQueue
    recvThreadStatus := after.recvThreadStatus }

theorem Acked.refl (client : RpcClient) : Acked client client :=
  ⟨List.suffix_refl _, fun _ => rfl, rfl⟩

theorem Acked.recvThread (acked : Acked before after) : after.recvThread = before.recvThread := by
  rw [acked.rest]

theorem Acked.trans (first : Acked before middle) (second : Acked middle after) :
    Acked before after := by
  refine ⟨second.queue.trans first.queue, fun off => ?_, ?_⟩
  · exact (second.idle (first.recvThread.trans off)).trans (first.idle off)
  · rw [second.rest, first.rest]

theorem RpcClient.ackThread_acked (run : AckRun) (client : RpcClient) :
    Acked client (client.ackThread run) := by
  unfold RpcClient.ackThread
  split
  · rename_i running
    refine ⟨List.drop_suffix _ _, fun off => ?_, rfl⟩
    simp [off] at running
  · exact Acked.refl client

theorem Acked.useRpcVersion (acked : Acked before after) :
    after.useRpcVersion = before.useRpcVersion := by
  rw [acked.rest]

theorem Acked.target (acked : Acked before after) : after.target = before.target := by
  rw [acked.rest]
  rfl

theorem Acked.seq (acked : Acked before after) : after.seq = before.seq := by
  rw [acked.rest]

theorem Acked.recvIdx (acked : Acked before after) : after.recvIdx = before.recvIdx := by
  rw [acked.rest]

/-- The connected client on which `Send` goes on; `none` where it throws. -/
def RpcClient.prepared (versions : Nat → VersionReply) (client : RpcClient) : Option RpcClient :=
  if client.useRpcVersion = ServiceVersion.notInited.code then client.connect versions
  else some client

theorem RpcClient.prepared_connected
    (ready : RpcClient.prepared versions client = some current) :
    current.useRpcVersion ≠ ServiceVersion.notInited.code := by
  unfold RpcClient.prepared RpcClient.connect at ready
  split at ready
  · split at ready
    · cases ready
    · split at ready
      · cases ready
      · rename_i set
        cases ready
        unfold RpcClient.initSender
        split <;> exact set
  · rename_i set
    cases ready
    exact set

/-- The ends of `Send`. -/
inductive SendEnds (taskid : String) (env : SendEnv) (client : RpcClient) (content : Bytes) :
    EStateM.Result Abort ClientState Bool → Prop where
  | unconnected (failed : client.prepared env.versions = none) :
    SendEnds taskid env client content (.error (.thrown .initRpcVersion) ⟨client, content⟩)
  | streamEnded (ready : client.prepared env.versions = some current)
      (ended : (current.ackThread env.thread).recvThreadStatus = .finished) :
    SendEnds taskid env client content (.ok false ⟨current.ackThread env.thread, content⟩)
  | writeFailed (ready : client.prepared env.versions = some current)
      (running : (current.ackThread env.thread).recvThreadStatus ≠ .finished)
      (opened : current.target = some stream) (failed : env.write = false) :
    SendEnds taskid env client content (.ok false ⟨current.ackThread env.thread, content⟩)
  | accepted (ready : client.prepared env.versions = some current)
      (running : (current.ackThread env.thread).recvThreadStatus ≠ .finished)
      (opened : current.target = some stream) (written : env.write = true) :
    SendEnds taskid env client content
      (.ok true ⟨(current.ackThread env.thread).accept stream
        ((current.ackThread env.thread).packet taskid content), []⟩)
  | nullStream (ready : client.prepared env.versions = some current)
      (running : (current.ackThread env.thread).recvThreadStatus ≠ .finished)
      (closed : current.target = none) :
    SendEnds taskid env client content
      (.error (.fault .nullStream) ⟨current.ackThread env.thread, []⟩)

theorem send_prepared (ready : RpcClient.prepared env.versions client = some current) :
    send taskid env ⟨client, content⟩ = send taskid env ⟨current, content⟩ := by
  unfold RpcClient.prepared at ready
  split at ready
  · rename_i fresh
    rw [send_fresh taskid env client content fresh, ready]
  · cases ready
    rfl

theorem send_ends (taskid : String) (env : SendEnv) (client : RpcClient) (content : Bytes) :
    SendEnds taskid env client content (send taskid env ⟨client, content⟩) := by
  cases ready : client.prepared env.versions with
  | none =>
    have fresh : client.useRpcVersion = ServiceVersion.notInited.code := by
      unfold RpcClient.prepared at ready
      split at ready
      · assumption
      · cases ready
    have failed : client.connect env.versions = none := by
      unfold RpcClient.prepared at ready
      rwa [if_pos fresh] at ready
    rw [send_fresh taskid env client content fresh, failed]
    exact .unconnected ready
  | some current =>
    rw [send_prepared ready,
      send_connected taskid env current content (RpcClient.prepared_connected ready)]
    simp only [(current.ackThread_acked env.thread).target]
    by_cases ended : (current.ackThread env.thread).recvThreadStatus = .finished
    · rw [if_pos ended]
      exact .streamEnded ready ended
    · rw [if_neg ended]
      cases opened : current.target with
      | none => exact .nullStream ready ended opened
      | some stream =>
        cases written : env.write with
        | false => exact .writeFailed ready ended opened written
        | true => exact .accepted ready ended opened written

@[simp] theorem RpcClient.initSender_seq (client : RpcClient) : client.initSender.seq = client.seq := by
  unfold RpcClient.initSender
  split <;> rfl

@[simp] theorem RpcClient.initSender_notackQueue (client : RpcClient) :
    client.initSender.notackQueue = client.notackQueue := by
  unfold RpcClient.initSender
  split <;> rfl

theorem RpcClient.initSender_target (client : RpcClient) : client.initSender.target ≠ none := by
  unfold RpcClient.initSender RpcClient.target
  split <;> simp_all

theorem RpcClient.connect_some (connected : RpcClient.connect versions client = some current) :
    current.seq = client.seq ∧ current.notackQueue = client.notackQueue ∧ current.target ≠ none := by
  unfold RpcClient.connect at connected
  split at connected
  · cases connected
  · split at connected
    · cases connected
    · cases connected
      exact ⟨RpcClient.initSender_seq _, RpcClient.initSender_notackQueue _,
        RpcClient.initSender_target _⟩

theorem RpcClient.prepared_some (ready : RpcClient.prepared versions client = some current) :
    current.seq = client.seq ∧ current.notackQueue = client.notackQueue := by
  unfold RpcClient.prepared at ready
  split at ready
  · have connected := RpcClient.connect_some ready
    exact ⟨connected.1, connected.2.1⟩
  · cases ready
    exact ⟨rfl, rfl⟩

theorem RpcClient.accept_target (stream : Stream) (packet : Packet) (client : RpcClient) :
    (client.accept stream packet).target = some (stream.write packet) := by
  unfold RpcClient.accept RpcClient.target
  split <;> simp_all [RpcClient.pushNotack]

/-- The streams that `finish` needs are open. -/
def RpcClient.CanFinish (client : RpcClient) : Prop :=
  (client.useRpcVersion = ServiceVersion.v1.code → client.sender ≠ none) ∧
    (client.useRpcVersion = ServiceVersion.v2.code → client.rwSender ≠ none)

/-- The ack thread as `finish` leaves it: joined if it had set its status. -/
def RpcClient.joined (env : FinishEnv) (client : RpcClient) : RpcClient :=
  let current := client.ackThread env.thread
  if current.recvThreadStatus ≠ .notInited then
    { current.ackThread ⟨true, env.lastAcks, true⟩ with recvThread := false }
  else current

/-- The client after `finish`. -/
def RpcClient.finished (env : FinishEnv) (client : RpcClient) : RpcClient :=
  if client.useRpcVersion = ServiceVersion.v1.code then
    { client with sender := client.sender.map Stream.finish }
  else if client.useRpcVersion = ServiceVersion.v2.code then
    { client with rwSender := client.rwSender.map Stream.finish }.joined env
  else client

theorem finishStream_open (env : FinishEnv) (client : RpcClient) (content : Bytes)
    (ready : client.CanFinish) :
    finishStream env ⟨client, content⟩ = .ok ⟨⟩ ⟨client.finished env, content⟩ := by
  obtain ⟨firstReady, secondReady⟩ := ready
  unfold finishStream RpcClient.finished
  simp only [run_bind, run_get, run_ite]
  by_cases first : client.useRpcVersion = ServiceVersion.v1.code
  · have set : client.useRpcVersion ≠ ServiceVersion.notInited.code :=
      ServiceVersion.code_ne first (by simp)
    obtain ⟨stream, opened⟩ := Option.ne_none_iff_exists'.mp (firstReady first)
    rw [if_neg set, if_pos first, if_pos first, opened]
    rfl
  by_cases second : client.useRpcVersion = ServiceVersion.v2.code
  · have set : client.useRpcVersion ≠ ServiceVersion.notInited.code :=
      ServiceVersion.code_ne second (by simp)
    obtain ⟨stream, opened⟩ := Option.ne_none_iff_exists'.mp (secondReady second)
    rw [if_neg set, if_neg first, if_neg first, if_pos second, if_pos second, opened]
    simp only [modifyClient, run_modify, run_bind, run_get, run_ite, RpcClient.joined,
      Option.map_some]
    split <;> rfl
  · rw [if_neg first, if_neg first, if_neg second, if_neg second]
    split <;> rfl

theorem finishStream_closed (env : FinishEnv) (client : RpcClient) (content : Bytes)
    (closed : ¬ client.CanFinish) :
    finishStream env ⟨client, content⟩ = .error (.fault .nullStream) ⟨client, content⟩ := by
  unfold finishStream
  simp only [run_bind, run_get, run_ite]
  by_cases first : client.useRpcVersion = ServiceVersion.v1.code
  · have missing : client.sender = none := by
      cases opened : client.sender with
      | none => rfl
      | some stream =>
        exact absurd ⟨fun _ => by simp [opened], fun second => by simp [first] at second; cases second⟩
          closed
    have set : client.useRpcVersion ≠ ServiceVersion.notInited.code :=
      ServiceVersion.code_ne first (by simp)
    rw [if_neg set, if_pos first, missing]
    rfl
  by_cases second : client.useRpcVersion = ServiceVersion.v2.code
  · have missing : client.rwSender = none := by
      cases opened : client.rwSender with
      | none => rfl
      | some stream =>
        exact absurd ⟨fun same => absurd same first, fun _ => by simp [opened]⟩ closed
    have set : client.useRpcVersion ≠ ServiceVersion.notInited.code :=
      ServiceVersion.code_ne second (by simp)
    rw [if_neg set, if_neg first, if_pos second, missing]
    rfl
  · exact absurd ⟨fun same => absurd same first, fun same => absurd same second⟩ closed

theorem RpcClient.finished_useRpcVersion (env : FinishEnv) (client : RpcClient) :
    (client.finished env).useRpcVersion = client.useRpcVersion := by
  unfold RpcClient.finished
  split
  · rfl
  · split
    · unfold RpcClient.joined
      simp only
      split
      · exact ((RpcClient.ackThread_acked _ _).useRpcVersion).trans
          (RpcClient.ackThread_acked _ _).useRpcVersion
      · exact (RpcClient.ackThread_acked _ _).useRpcVersion
    · rfl

theorem RpcClient.finished_queue (env : FinishEnv) (client : RpcClient) :
    (client.finished env).notackQueue <:+ client.notackQueue := by
  unfold RpcClient.finished
  split
  · exact List.suffix_refl _
  · split
    · unfold RpcClient.joined
      simp only
      split
      · exact (RpcClient.ackThread_acked _ _).queue.trans (RpcClient.ackThread_acked _ _).queue
      · exact (RpcClient.ackThread_acked _ _).queue
    · exact List.suffix_refl _

/-- The Redis commands that `finish` executes. -/
def RpcClient.reported (ref : ChannelRef) (env : FinishEnv) (client : RpcClient) :
    List RedisCommand :=
  if client.useRedis then
    match env.redisError with
    | none => client.usageReport ref
    | some count => (client.usageReport ref).take count
  else []

theorem finish_open (ref : ChannelRef) (env : FinishEnv) (client : RpcClient) (content : Bytes)
    (ready : client.CanFinish) :
    finish ref env ⟨client, content⟩ =
      .ok ((client.finished env).reported ref env) ⟨client.finished env, content⟩ := by
  unfold finish RpcClient.reported
  simp only [run_bind, finishStream_open env client content ready, run_get, run_ite]
  split
  · cases env.redisError <;> rfl
  · rfl

theorem finish_closed (ref : ChannelRef) (env : FinishEnv) (client : RpcClient) (content : Bytes)
    (closed : ¬ client.CanFinish) :
    finish ref env ⟨client, content⟩ = .error (.fault .nullStream) ⟨client, content⟩ := by
  unfold finish
  rw [run_bind, finishStream_closed env client content closed]

/-- The ends of `wait_flush`. -/
inductive FlushEnds (before : RpcClient) (content : Bytes) :
    EStateM.Result Abort ClientState (Bool × Bool) → Prop where
  | flushed (acked : Acked before after) (empty : after.notackQueue = []) :
    FlushEnds before content (.ok (true, false) ⟨after, content⟩)
  | unflushed (acked : Acked before after) (full : after.notackQueue ≠ []) :
    FlushEnds before content (.ok (false, needResend) ⟨after, content⟩)
  | waiting (acked : Acked before after) : FlushEnds before content (.error .pending ⟨after, content⟩)

theorem FlushEnds.after_ack (acked : Acked before middle) (ended : FlushEnds middle content result) :
    FlushEnds before content result := by
  cases ended with
  | flushed later empty => exact .flushed (acked.trans later) empty
  | unflushed later full => exact .unflushed (acked.trans later) full
  | waiting later => exact .waiting (acked.trans later)

theorem waitFlush_ends (maxMsec : Nat) (polls : List FlushPoll) (client : RpcClient)
    (content : Bytes) :
    FlushEnds client content (waitFlush maxMsec polls ⟨client, content⟩) := by
  induction polls generalizing client with
  | nil => exact .waiting (Acked.refl client)
  | cons poll polls ih =>
    unfold waitFlush
    simp only [run_bind, modifyClient, run_modify, run_get, run_ite, run_pure]
    have acked := client.ackThread_acked poll.thread
    split
    · rename_i empty
      exact .flushed acked empty
    · rename_i full
      split
      · exact .unflushed acked full
      · split
        · exact .unflushed acked full
        · split
          · exact .unflushed acked full
          · exact (ih _).after_ack acked

/-- The client and the frame once the Redis data version is settled. -/
def RpcClient.versioned (frame : Bytes) (client : RpcClient) : RpcClient × Bytes :=
  if client.useRedisDataVersion = .notInited then
    ({ client with useRedisDataVersion := (initRedisDataVersion frame).1 },
      (initRedisDataVersion frame).2)
  else (client, frame)

theorem initRedisDataVersion_set (frame : Bytes) : (initRedisDataVersion frame).1 ≠ .notInited := by
  unfold initRedisDataVersion
  split <;> simp

theorem RpcClient.versioned_set (frame : Bytes) (client : RpcClient) :
    (client.versioned frame).1.useRedisDataVersion ≠ .notInited := by
  unfold RpcClient.versioned
  split
  · dsimp only
    exact initRedisDataVersion_set frame
  · assumption

theorem receiveFrame_versioned (frame : Bytes) (client : RpcClient) (content : Bytes) :
    receiveFrame frame ⟨client, content⟩ =
      receiveFrame (client.versioned frame).2 ⟨(client.versioned frame).1, content⟩ := by
  have set := client.versioned_set frame
  unfold RpcClient.versioned at set ⊢
  split
  · rename_i fresh
    rw [if_pos fresh] at set
    unfold receiveFrame
    simp only [run_bind, run_get, if_pos fresh, if_neg set, modifyClient, run_modify]
  · rfl

/-- The body of `Recv` for an element, as one expression. -/
theorem receiveFrame_eq (frame : Bytes) (client : RpcClient) (content : Bytes) :
    receiveFrame frame ⟨client, content⟩ =
      let current := (client.versioned frame).1
      let body := (client.versioned frame).2
      if current.useRedisDataVersion ≠ .v2 then .ok (.deliver body) ⟨current, content⟩
      else match frameIndex body with
        | none => .error (.fault .shortFrame) ⟨current, content⟩
        | some idx =>
          if body.length = 4 ∧ idx < 0 then .ok .control ⟨current, content⟩
          else if idx = addInt current.recvIdx 1 then
            if body.length < 4 then .error (.thrown .outOfRange) ⟨current, content⟩
            else .ok (.deliver (body.drop 4)) ⟨{ current with recvIdx := idx }, content⟩
          else if idx < addInt current.recvIdx 1 then .ok .repeated ⟨current, content⟩
          else .ok .gap ⟨current, content⟩ := by
  rw [receiveFrame_versioned]
  have set := client.versioned_set frame
  generalize client.versioned frame = pair at set ⊢
  obtain ⟨current, body⟩ := pair
  unfold receiveFrame
  simp only [run_bind, run_get, if_neg set, run_ite, run_pure]
  split
  · rfl
  · cases frameIndex body with
    | none => rfl
    | some idx =>
      simp only [run_ite, run_bind, run_get, run_pure, modifyClient, run_modify, run_throw]

/-- What `Recv` can change without delivering: what the ack thread can, and the
Redis data version. -/
structure Heard (before after : RpcClient) : Prop where
  queue : after.notackQueue <:+ before.notackQueue
  idle : before.recvThread = false → after.recvThreadStatus = before.recvThreadStatus
  rest : after = { before with
    useRedisDataVersion := after.useRedisDataVersion
    notackQueue := after.notackQueue
    recvThreadStatus := after.recvThreadStatus }

theorem Heard.refl (client : RpcClient) : Heard client client :=
  ⟨List.suffix_refl _, fun _ => rfl, rfl⟩

theorem Heard.recvThread (heard : Heard before after) : after.recvThread = before.recvThread := by
  rw [heard.rest]

theorem Heard.trans (first : Heard before middle) (second : Heard middle after) :
    Heard before after := by
  refine ⟨second.queue.trans first.queue, fun off => ?_, ?_⟩
  · exact (second.idle (first.recvThread.trans off)).trans (first.idle off)
  · rw [second.rest, first.rest]

theorem Acked.heard (acked : Acked before after) : Heard before after := by
  refine ⟨acked.queue, acked.idle, ?_⟩
  rw [acked.rest]

theorem RpcClient.versioned_heard (frame : Bytes) (client : RpcClient) :
    Heard client (client.versioned frame).1 := by
  unfold RpcClient.versioned
  split
  · exact ⟨List.suffix_refl _, fun _ => rfl, rfl⟩
  · exact Heard.refl client

/-- The ends of the loop body for an element. -/
inductive FrameEnds (before : RpcClient) (content : Bytes) :
    EStateM.Result Abort ClientState Verdict → Prop where
  | delivered (heard : Heard before after) :
    FrameEnds before content (.ok (.deliver body) ⟨{ after with recvIdx := idx }, content⟩)
  | skipped (heard : Heard before after) (kind : ∀ body, verdict ≠ .deliver body) :
    FrameEnds before content (.ok verdict ⟨after, content⟩)
  | aborted (heard : Heard before after) (own : ∀ address, abort ≠ .thrown (.connectServer address))
      (settled : abort ≠ .pending) :
    FrameEnds before content (.error abort ⟨after, content⟩)

theorem receiveFrame_ends (frame : Bytes) (client : RpcClient) (content : Bytes) :
    FrameEnds client content (receiveFrame frame ⟨client, content⟩) := by
  have heard := client.versioned_heard frame
  rw [receiveFrame_eq]
  generalize client.versioned frame = pair at heard ⊢
  obtain ⟨current, body⟩ := pair
  have delivered (idx : Int) (payload : Bytes) : FrameEnds client content
      (.ok (.deliver payload) ⟨{ current with recvIdx := idx }, content⟩) := .delivered heard
  simp only
  split
  · exact delivered current.recvIdx body
  · cases frameIndex body with
    | none => exact .aborted heard (by simp) (by simp)
    | some idx =>
      simp only
      split
      · exact .skipped heard (by simp)
      · split
        · split
          · exact .aborted heard (by simp) (by simp)
          · exact delivered idx (body.drop 4)
        · split
          · exact .skipped heard (by simp)
          · exact .skipped heard (by simp)

/-- The ends of the body of the loop: only an element makes it call `Recv`, and it never waits. -/
inductive BodyEnds (before : RpcClient) (content : Bytes) (poll : Poll) :
    EStateM.Result Abort ClientState Pass → Prop where
  | delivered (heard : Heard before after) :
    BodyEnds before content poll
      (.ok (.ends true false) ⟨{ after with recvIdx := idx }, delivery⟩)
  | refused (heard : Heard before after) (why : needResend = true → after.notackQueue ≠ []) :
    BodyEnds before content poll (.ok (.ends false needResend) ⟨after, content⟩)
  | next (heard : Heard before after) : BodyEnds before content poll (.ok .next ⟨after, content⟩)
  | recv (popped : poll = .element frame) (heard : Heard before after) :
    BodyEnds before content poll (.ok .recv ⟨after, content⟩)
  | aborted (heard : Heard before after) (own : ∀ address, abort ≠ .thrown (.connectServer address))
      (settled : abort ≠ .pending) :
    BodyEnds before content poll (.error abort ⟨after, content⟩)

theorem recvBody_empty (withResend : Bool) (thread : AckRun) (client : RpcClient) (content : Bytes) :
    recvBody withResend (.empty thread) ⟨client, content⟩ =
      let after := client.ackThread thread
      if after.recvThreadStatus = .finished ∧ after.notackQueue ≠ [] ∧ withResend then
        .ok (.ends false true) ⟨after, content⟩
      else .ok .next ⟨after, content⟩ := by
  unfold recvBody
  simp only [run_bind, modifyClient, run_modify, run_get, run_ite, run_pure]

theorem recvBody_element (withResend : Bool) (frame : Bytes) (state : ClientState) :
    recvBody withResend (.element frame) state =
      match receiveFrame frame state with
      | .ok (.deliver content) after => .ok (.ends true false) { after with content := content }
      | .ok .control after => .ok .next after
      | .ok .repeated after => .ok .recv after
      | .ok .gap after => .ok (.ends false false) after
      | .error abort after => .error abort after := by
  unfold recvBody
  simp only [run_bind]
  cases receiveFrame frame state with
  | error abort after => rfl
  | ok verdict after => cases verdict <;> rfl

theorem recvBody_ends (withResend : Bool) (poll : Poll) (client : RpcClient) (content : Bytes) :
    BodyEnds client content poll (recvBody withResend poll ⟨client, content⟩) := by
  cases poll with
  | error => exact .next (Heard.refl client)
  | empty thread =>
    have heard := (client.ackThread_acked thread).heard
    rw [recvBody_empty]
    simp only
    split
    · rename_i why
      exact .refused heard fun _ => why.2.1
    · exact .next heard
  | element frame =>
    have ended := receiveFrame_ends frame client content
    rw [recvBody_element]
    revert ended
    generalize receiveFrame frame ⟨client, content⟩ = result
    intro ended
    cases ended with
    | delivered heard => exact .delivered heard
    | @skipped after verdict heard kind =>
      cases verdict with
      | deliver body => exact absurd rfl (kind body)
      | control => exact .next heard
      | repeated => exact .recv rfl heard
      | gap => exact .refused heard (by simp)
    | aborted heard own settled => exact .aborted heard own settled

theorem recvRedis_nil (withResend : Bool) (i : Int) (state : ClientState) :
    recvRedis withResend i [] state =
      if state.client.InTime i then .error .pending state else .ok ⟨false, false, []⟩ state := by
  rw [recvRedis.eq_def]
  simp only [run_bind, run_get, run_ite, run_pure, run_throw]
  exact ite_not (state.client.InTime i) ..

theorem recvRedis_cons (withResend : Bool) (i : Int) (poll : Poll) (rest : List Poll)
    (state : ClientState) :
    recvRedis withResend i (poll :: rest) state =
      if state.client.InTime i then
        match recvBody withResend poll state with
        | .ok .next after => recvRedis withResend (addInt i 1) rest after
        | .ok .recv after => recvRedis withResend 1 rest after
        | .ok (.ends ret needResend) after => .ok ⟨ret, needResend, rest⟩ after
        | .error abort after => .error abort after
      else .ok ⟨false, false, poll :: rest⟩ state := by
  rw [recvRedis.eq_def]
  simp only [run_bind, run_get, run_ite, run_pure]
  by_cases inTime : state.client.InTime i
  · rw [if_neg (not_not_intro inTime), if_pos inTime]
    cases recvBody withResend poll state with
    | error abort after => rfl
    | ok pass after => cases pass <;> rfl
  · rw [if_pos inTime, if_neg inTime]

/-- The ends of `Recv`. -/
inductive RecvEnds (before : RpcClient) (content : Bytes) :
    EStateM.Result Abort ClientState RecvResult → Prop where
  | delivered (heard : Heard before after) (ret : result.ret = true) :
    RecvEnds before content (.ok result ⟨{ after with recvIdx := idx }, delivery⟩)
  | refused (heard : Heard before after) (ret : result.ret = false)
      (why : result.needResend = true → after.notackQueue ≠ []) :
    RecvEnds before content (.ok result ⟨after, content⟩)
  | aborted (heard : Heard before after) (own : ∀ address, abort ≠ .thrown (.connectServer address)) :
    RecvEnds before content (.error abort ⟨after, content⟩)

theorem RecvEnds.after_heard (heard : Heard before middle)
    (ended : RecvEnds middle content result) : RecvEnds before content result := by
  cases ended with
  | delivered later ret => exact .delivered (heard.trans later) ret
  | refused later ret why => exact .refused (heard.trans later) ret why
  | aborted later own => exact .aborted (heard.trans later) own

theorem recvRedis_ends (withResend : Bool) (i : Int) (polls : List Poll) (client : RpcClient)
    (content : Bytes) :
    RecvEnds client content (recvRedis withResend i polls ⟨client, content⟩) := by
  induction polls generalizing i client with
  | nil =>
    rw [recvRedis_nil]
    split
    · exact .aborted (Heard.refl client) (by simp)
    · exact .refused (Heard.refl client) rfl (by simp)
  | cons poll rest ih =>
    rw [recvRedis_cons]
    split
    · have ended := recvBody_ends withResend poll client content
      revert ended
      generalize recvBody withResend poll ⟨client, content⟩ = result
      intro ended
      cases ended with
      | delivered heard => exact .delivered heard rfl
      | refused heard why => exact .refused heard rfl why
      | next heard | recv popped heard => exact (ih _ _).after_heard heard
      | aborted heard own settled => exact .aborted heard own
    · exact .refused (Heard.refl client) rfl (by simp)

theorem recv_eq_recvRedis (taskid : String) (withResend : Bool) (env : RecvEnv)
    (client : RpcClient) (content : Bytes) (redis : client.useRedis = true) :
    recv taskid withResend env ⟨client, content⟩ =
      recvRedis withResend 1 (env.polls (redisKey client.toPartyid client.partyid taskid))
        ⟨client, content⟩ := by
  unfold recv
  simp only [run_bind, run_get, redis, if_true]

theorem recv_ends (taskid : String) (withResend : Bool) (env : RecvEnv) (client : RpcClient)
    (content : Bytes) :
    RecvEnds client content (recv taskid withResend env ⟨client, content⟩) := by
  unfold recv
  simp only [run_bind, run_get, run_ite]
  split
  · exact recvRedis_ends _ _ _ _ _
  · cases env.pull with
    | found body => exact .delivered (Heard.refl client) rfl
    | missing => exact .aborted (Heard.refl client) (by simp)
    | failed => exact .aborted (Heard.refl client) (by simp)

end GaiaNet.Grpc
