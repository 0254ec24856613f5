import GaiaNet.Grpc.LinkThread

/-! From which states of a link everything can still be delivered: the steps that lead
there when the network works again, and the rank they lower. -/

namespace GaiaNet.Grpc

open Lib Lib.Transition

/-- Stages of the reconnect, up to the new stream. -/
def Stage.leaving : Stage → Bool
  | .finish | .join | .giveUp | .create _ | .restore _ => true
  | _ => false

/-- The stream of a connected client has ended, or a `Write` on it has failed. -/
def Link.broken (link : Link) : Bool :=
  match link.channel.client with
  | .live client => decide (client.useRpcVersion = ServiceVersion.v2.code ∧
      (client.recvThreadStatus = .finished ∨ link.failed = true))
  | _ => false

/-- The stream is going to be replaced before it carries another packet. -/
def Link.retries (link : Link) : Bool :=
  match link.app.stage with
  | .attempt => link.broken
  | .write _ => link.failed
  | .push _ => false
  | .resend _ => true
  | _ => true

/-- The process runs and has a client, its ack thread is joined where the client is deleted,
and a `real_send` that has to reconnect has a round left. -/
structure Link.Recoverable (link : Link) : Prop where
  running : ∀ fault, link.app ≠ .crashed fault
  live : (∃ tup, link.app.stage = .create tup) ∨ ∃ client, link.channel.client = .live client
  joined : link.app.stage = .giveUp → ∀ client, link.channel.client = .live client →
    client.recvThread = false
  rounds : ∀ message round stage, link.app = .calling (.send message) round stage →
    link.retries = true → round + 1 < maxRetry

/-- Nothing is left to do: all messages are sent, acknowledged and read. -/
structure Link.Settled (link : Link) : Prop where
  idle : link.app = .idle
  sent : link.pending = []
  acknowledged : ∃ client, link.channel.client = .live client ∧ client.notackQueue = []
  read : link.redis.length ≤ link.popped

def Link.flushed (link : Link) : Bool :=
  match link.channel.client with
  | .live client => client.notackQueue.isEmpty
  | _ => false

def Link.dead (link : Link) : Bool := link.app.stage.leaving || link.broken

/-- Whether the version has still to be negotiated. -/
def Link.greeting (link : Link) : Nat :=
  match link.channel.client with
  | .live client => if client.useRpcVersion = ServiceVersion.v2.code then 0 else 1
  | _ => 1

theorem Link.greeting_le (link : Link) : link.greeting ≤ 1 := by
  unfold Link.greeting
  repeat' split
  all_goals decide

/-- Steps of the ack thread before `join` returns. -/
def Link.threadSteps (link : Link) : Nat :=
  match link.channel.client with
  | .live client =>
    match client.recvThreadStatus with
    | .notInited => 3
    | .started => if link.heldAck.isSome then 2 else 1
    | .finished => 0
  | _ => 0

/-- The way to a new stream. -/
def Link.deadRank (link : Link) : Nat :=
  match link.app with
  | .calling call _ .attempt => if call = .flush ∧ link.flushed then 14 else 12
  | .calling _ _ (.write _) => if link.failed then 11 else 15
  | .calling _ _ (.push _) => 14
  | .calling _ _ .finish => 10
  | .calling _ _ .join => 6 + link.threadSteps
  | .calling _ _ .giveUp => 5
  | .calling _ _ (.create _) => 4
  | .calling _ _ (.restore _) => 3
  | .calling _ _ (.resend _) => 0
  | _ => 13

/-- The way through the messages that are still to be sent. -/
def Link.aliveRank (link : Link) : Nat :=
  6 * link.pending.length + match link.app with
    | .calling _ _ .attempt => 3 + link.greeting
    | .calling _ _ (.write _) => 2
    | .calling _ _ (.push _) => 1
    | .calling _ _ (.resend rest) => 5 + rest.length
    | _ => 0

/-- What the server, the ack thread and the receiver have still to do. -/
def Link.work (link : Link) : Nat :=
  (link.redis.length - link.popped) + match link.channel.client, link.handlers with
    | .live client, handler :: _ =>
      match client.rwSender with
      | some stream =>
        (stream.written.length - handler.received.length) +
          3 * (stream.written.length - handler.appended) +
          (stream.written.length - handler.acked) + 2 * (stream.written.length - link.acksRead) +
          (if link.heldAck.isSome then 1 else 0) +
          if client.recvThreadStatus = .notInited then 1 else 0
      | none => 0
    | _, _ => 0

def Link.distance (link : Link) : Nat × Nat × Nat :=
  if link.dead then (1, link.deadRank, link.work) else (0, link.aliveRank, link.work)

@[simp] theorem Link.enter_stage (call : Call) (tries : Nat) (stage : Stage) (link : Link) :
    (link.enter call tries stage).app.stage = stage := rfl

@[simp] theorem Link.enter_client (call : Call) (tries : Nat) (stage : Stage) (link : Link) :
    (link.enter call tries stage).channel = link.channel := rfl

@[simp] theorem Link.enter_failed (call : Call) (tries : Nat) (stage : Stage) (link : Link) :
    (link.enter call tries stage).failed = link.failed := rfl

@[simp] theorem Link.setClient_client (client : RpcClient) (link : Link) :
    (link.setClient client).channel.client = .live client := rfl

@[simp] theorem Link.setClient_failed (client : RpcClient) (link : Link) :
    (link.setClient client).failed = link.failed := rfl

theorem broken_same {link after : Link} {client new : RpcClient}
    (live : link.channel.client = .live client) (now : after.channel.client = .live new)
    (same : new.threading = client.threading) (failed : after.failed = link.failed) :
    after.broken = link.broken := by
  simp only [RpcClient.threading, Prod.mk.injEq] at same
  obtain ⟨version, -, status⟩ := same
  simp only [Link.broken, live, now, version, status, failed]

/-- A step that brings the link nearer to a settled state and loses no message. -/
def Link.Advances (link : Link) : Prop :=
  ∃ label after, Link.keeping label link = some after ∧
    (after.Recoverable ∧ after.account = link.account) ∧
    WellFoundedRelation.rel after.distance link.distance

section

variable {link after : Link} {client : RpcClient}

theorem keeps (moved : Link.next label link = some after) (kept : link.drops label = false) :
    Link.keeping label link = some after := by
  unfold Link.keeping
  rw [kept]
  exact moved

/-- A step on the way to a new stream. -/
theorem nearer_dead (dead : link.dead = true) (still : after.dead = true)
    (lower : after.deadRank < link.deadRank) :
    WellFoundedRelation.rel after.distance link.distance := by
  unfold Link.distance
  rw [if_pos dead, if_pos still]
  exact Prod.Lex.right 1 (Prod.Lex.left _ _ lower)

/-- The new stream. -/
theorem nearer_opened (dead : link.dead = true) (alive : after.dead = false) :
    WellFoundedRelation.rel after.distance link.distance := by
  unfold Link.distance
  rw [if_pos dead, if_neg (by rw [alive]; exact Bool.false_ne_true)]
  exact Prod.Lex.left _ _ Nat.zero_lt_one

/-- A step of a call over a stream that works. -/
theorem nearer_alive (alive : link.dead = false) (still : after.dead = false)
    (lower : after.aliveRank < link.aliveRank) :
    WellFoundedRelation.rel after.distance link.distance := by
  unfold Link.distance
  simp only [alive, still, Bool.false_eq_true, ↓reduceIte]
  exact Prod.Lex.right 0 (Prod.Lex.left _ _ lower)

/-- A step outside the application. -/
theorem nearer_work (same : after.dead = link.dead) (dead : after.deadRank = link.deadRank)
    (alive : after.aliveRank = link.aliveRank) (lower : after.work < link.work) :
    WellFoundedRelation.rel after.distance link.distance := by
  unfold Link.distance
  rw [same, dead, alive]
  split
  · exact Prod.Lex.right 1 (Prod.Lex.right _ lower)
  · exact Prod.Lex.right 0 (Prod.Lex.right _ lower)

/-- A step from one stage of a call to the next. -/
theorem advances_stage {next : Stage} (recoverable : link.Recoverable)
    (app : link.app = .calling call tries stage) (stepped : Link.next label link = some after)
    (kept : link.drops label = false) (now : after.app = .calling call turn next)
    (sent : after.sent = link.sent) (pending : after.pending = link.pending)
    (live : (∃ tup, next = .create tup) ∨ ∃ client, after.channel.client = .live client)
    (joined : next = .giveUp → ∀ client, after.channel.client = .live client →
      client.recvThread = false)
    (retries : after.retries = true → turn = tries ∧ link.retries = true)
    (nearer : WellFoundedRelation.rel after.distance link.distance) : link.Advances := by
  have place : after.app.stage = next := by rw [now]; rfl
  refine ⟨label, after, keeps stepped kept, ⟨⟨?_, ?_, ?_, ?_⟩, ?_⟩, nearer⟩
  · intro fault same
    rw [now] at same
    cases same
  · rwa [place]
  · rwa [place]
  · intro message round stage same again
    rw [now] at same
    cases same
    obtain ⟨rfl, before⟩ := retries again
    exact recoverable.rounds message _ _ app before
  · unfold Link.account
    rw [app, now, sent, pending]
    cases call <;> rfl

theorem threadSteps_le (link : Link) : link.threadSteps ≤ 3 := by
  unfold Link.threadSteps
  repeat' split
  all_goals omega

theorem advances_finish (implements : Implements True link log) (recoverable : link.Recoverable)
    (app : link.app = .calling call tries .finish) (live : link.channel.client = .live client) :
    link.Advances := by
  have place : link.app.stage = .finish := by rw [app]; rfl
  have connected := implements.sending.inside place rfl (by simp) live
  obtain ⟨stream, -, -, -, -, opened, -⟩ := connected.streams
  have stepped : link.clientStep .works call tries client .finish =
      some ((link.setClient { client with rwSender := some stream.finish }).enter call tries .join) := by
    simp [Link.clientStep, opened]
  refine advances_stage recoverable app ((next_app app (by simp) live .works).trans stepped)
    (by simp [Link.drops, app]) rfl rfl rfl (.inr ⟨_, rfl⟩) (by simp)
    (fun _ => ⟨rfl, by rw [Link.retries, place]⟩) ?_
  refine nearer_dead (by rw [Link.dead, place]; rfl) rfl ?_
  have few := threadSteps_le ((link.setClient { client with rwSender := some stream.finish }).enter
    call tries .join)
  simp only [Link.deadRank, app]
  exact Nat.lt_of_le_of_lt (Nat.add_le_add_left few 6) (by decide)

/-- The packet of an ack that has been read is still in the queue. -/
theorem Threaded.waiting {stage : Stage} (threaded : Threaded link)
    (implements : Implements lossless link log) (connected : Connected link log stage client)
    (calm : stage.pushing = []) (held : link.heldAck = some answer) : client.notackQueue ≠ [] := by
  obtain ⟨stream, handler, handlers, span, spans, -, head, here, streaming⟩ := connected.streams
  have first : link.handlers[0]? = some handler := by rw [head]; rfl
  obtain ⟨other, found, handles⟩ := implements.serves.found first
  rw [here] at found
  cases found
  have positive := (threaded.held (by rw [held]; exact Option.some_ne_none answer)).1
  have read := streaming.read
  have acked := streaming.acked
  have inside := handles.acked
  have enough := handles.enough
  have short := handles.received.length_le
  have queue := connected.queue
  rw [calm, List.append_nil] at queue
  intro empty
  have drained := congrArg List.length (queue.symm.trans empty)
  rw [held] at read
  simp only [List.length_nil, List.length_drop, Option.toList_some, List.length_singleton]
    at drained read short
  omega

theorem advances_join (implements : Implements True link log) (threaded : Threaded link)
    (recoverable : link.Recoverable)
    (app : link.app = .calling call tries .join) (live : link.channel.client = .live client) :
    link.Advances := by
  have place : link.app.stage = .join := by rw [app]; rfl
  have connected := implements.sending.inside place rfl (by simp) live
  have runs := threaded.running client live connected.version (by rw [place]; exact Stage.noConfusion)
  have dead : link.dead = true := by rw [Link.dead, place]; rfl
  have retries : link.retries = true := by rw [Link.retries, place]
  cases status : client.recvThreadStatus with
  | notInited =>
    have stepped : Link.next (.ack .start) link =
        some (link.setClient { client with recvThreadStatus := .started }) := by
      simp [Link.next, Link.ackStep, live, runs, Link.ackClientStep, status]
    refine advances_stage recoverable app stepped rfl app rfl rfl (.inr ⟨_, rfl⟩) (by simp)
      (fun _ => ⟨rfl, retries⟩) ?_
    refine nearer_dead dead (by rw [← dead]; simp [Link.dead, Link.setClient, place, Stage.leaving]) ?_
    simp only [Link.deadRank, app, Link.setClient, Link.threadSteps, live, status]
    split <;> omega
  | started =>
    cases held : link.heldAck with
    | some ack =>
      have waiting := threaded.waiting implements connected rfl held
      have stepped : Link.next (.ack .pop) link =
          some { link.setClient { client with notackQueue := client.notackQueue.tail } with
            heldAck := none } := by
        simp [Link.next, Link.ackStep, live, runs, Link.ackClientStep, held, waiting, Link.locked, app]
      refine advances_stage recoverable app stepped rfl app rfl rfl (.inr ⟨_, rfl⟩) (by simp)
        (fun _ => ⟨rfl, retries⟩) ?_
      refine nearer_dead dead (by simp [Link.dead, Link.setClient, place, Stage.leaving]) ?_
      simp [Link.deadRank, app, Link.setClient, Link.threadSteps, live, status, held]
    | none =>
      have stepped : Link.next (.ack .stop) link =
          some (link.setClient { client with recvThreadStatus := .finished }) := by
        simp [Link.next, Link.ackStep, live, runs, Link.ackClientStep, status, held, Link.locked, app]
      refine advances_stage recoverable app stepped rfl app rfl rfl (.inr ⟨_, rfl⟩) (by simp)
        (fun _ => ⟨rfl, retries⟩) ?_
      refine nearer_dead dead (by simp [Link.dead, Link.setClient, place, Stage.leaving]) ?_
      simp [Link.deadRank, app, Link.setClient, Link.threadSteps, live, status, held]
  | finished =>
    have stepped : link.clientStep .works call tries client .join =
        some ((link.setClient { client with recvThread := false }).enter call tries .giveUp) := by
      simp [Link.clientStep, status]
    refine advances_stage recoverable app ((next_app app (by simp) live .works).trans stepped)
      (by simp [Link.drops, app]) rfl rfl rfl (.inr ⟨_, rfl⟩) ?_ (fun _ => ⟨rfl, retries⟩) ?_
    · intro _ other there
      cases there
      rfl
    · refine nearer_dead dead rfl ?_
      simp only [Link.deadRank, app, Link.enter]
      omega

theorem advances_giveUp (recoverable : link.Recoverable)
    (app : link.app = .calling call tries .giveUp) (live : link.channel.client = .live client) :
    link.Advances := by
  have place : link.app.stage = .giveUp := by rw [app]; rfl
  have joined := recoverable.joined place client live
  have stepped : link.clientStep .works call tries client .giveUp =
      some ({ link with channel := { link.channel with client := .null } }.enter call tries
        (.create client.getContinueStatus.1)) := by
    simp [Link.clientStep, joined]
  refine advances_stage recoverable app ((next_app app (by simp) live .works).trans stepped)
    (by simp [Link.drops, app]) rfl rfl rfl (.inl ⟨_, rfl⟩) (by simp)
    (fun _ => ⟨rfl, by rw [Link.retries, place]⟩) ?_
  refine nearer_dead (by rw [Link.dead, place]; rfl) rfl ?_
  simp [Link.deadRank, app, Link.enter]

theorem advances_create (recoverable : link.Recoverable)
    (app : link.app = .calling call tries (.create tup)) : link.Advances := by
  have place : link.app.stage = .create tup := by rw [app]; rfl
  have stepped : Link.next (.app .works) link =
      some ((link.setClient link.channel.newClient).enter call tries (.restore tup)) := by
    simp [Link.next, Link.appStep, app, Link.create, StepEnv.works]
  refine advances_stage recoverable app stepped (by simp [Link.drops, app]) rfl rfl rfl
    (.inr ⟨_, rfl⟩) (by simp) (fun _ => ⟨rfl, by rw [Link.retries, place]⟩) ?_
  refine nearer_dead (by rw [Link.dead, place]; rfl) rfl ?_
  simp [Link.deadRank, app, Link.enter]

theorem RpcClient.restored_status (tup : ContinueStatus) (client : RpcClient) :
    (client.restored tup).recvThreadStatus = client.recvThreadStatus := by
  unfold RpcClient.restored RpcClient.initSender
  split <;> rfl

theorem advances_restore (threaded : Threaded link) (recoverable : link.Recoverable)
    (app : link.app = .calling call tries (.restore tup))
    (live : link.channel.client = .live client) : link.Advances := by
  have place : link.app.stage = .restore tup := by rw [app]; rfl
  have unspoken := threaded.restoring tup place client live
  have status := (threaded.fresh client live unspoken).1
  have stepped : link.clientStep .works call tries client (.restore tup) =
      some ((link.opened (client.restored tup)).enter call tries (.resend tup.notackQueue)) := rfl
  refine advances_stage recoverable app ((next_app app (by simp) live .works).trans stepped)
    (by simp [Link.drops, app]) rfl rfl rfl (.inr ⟨_, rfl⟩) (by simp)
    (fun _ => ⟨rfl, by rw [Link.retries, place]⟩) ?_
  refine nearer_opened (by rw [Link.dead, place]; rfl) ?_
  have kept := (RpcClient.restored_status tup client).trans status
  simp [Link.dead, Link.broken, Link.enter, Link.opened, Link.setClient, App.stage, Stage.leaving, kept]

/-- A step out of a call. -/
theorem advances_idle (stepped : Link.next label link = some after)
    (kept : link.drops label = false) (idle : after.app = .idle)
    (live : after.channel.client = .live client) (account : after.account = link.account)
    (nearer : WellFoundedRelation.rel after.distance link.distance) : link.Advances := by
  refine ⟨label, after, keeps stepped kept, ⟨⟨?_, .inr ⟨client, live⟩, ?_, ?_⟩, account⟩, nearer⟩
  · intro fault same
    rw [idle] at same
    cases same
  · intro same
    rw [idle] at same
    cases same
  · intro message round stage same
    rw [idle] at same
    cases same

theorem advances_succeed {before : Link} (app : link.app = .calling call tries stage)
    (stepped : Link.next label link = some (before.succeed call))
    (kept : link.drops label = false) (sent : before.sent = link.sent)
    (pending : before.pending = link.pending) (live : before.channel.client = .live client)
    (nearer : WellFoundedRelation.rel (before.succeed call).distance link.distance) :
    link.Advances := by
  have idle : (before.succeed call).app = .idle := by cases call <;> rfl
  refine advances_idle stepped kept idle ((succeed_stage call before).2.2.trans live) ?_ nearer
  unfold Link.account
  rw [app, idle]
  cases call with
  | flush =>
    show before.sent ++ [] ++ before.pending = link.sent ++ [] ++ link.pending
    rw [sent, pending]
  | send message =>
    show before.sent ++ [message] ++ [] ++ before.pending = link.sent ++ [message] ++ link.pending
    rw [sent, pending, List.append_nil]

theorem advances_push (app : link.app = .calling call tries (.push packet)) (live : link.channel.client = .live client) :
    link.Advances := by
  have place : link.app.stage = .push packet := by rw [app]; rfl
  have stepped : link.clientStep .works call tries client (.push packet) =
      some ((link.setClient (client.pushNotack packet)).succeed call) := rfl
  refine advances_succeed app ((next_app app (by simp) live .works).trans stepped)
    (by simp [Link.drops, app]) rfl rfl rfl ?_
  have dead : ((link.setClient (client.pushNotack packet)).succeed call).dead = link.dead := by
    obtain ⟨stage, -, same⟩ := succeed_stage call (link.setClient (client.pushNotack packet))
    have failed : ((link.setClient (client.pushNotack packet)).succeed call).failed = link.failed := by
      cases call <;> rfl
    rw [Link.dead, Link.dead, place, stage, broken_same live same rfl failed]
    rfl
  cases alive : link.dead with
  | true =>
    refine nearer_dead alive (dead.trans alive) ?_
    cases call <;> simp [Link.deadRank, app, Link.succeed]
  | false =>
    refine nearer_alive alive (dead.trans alive) ?_
    cases call <;> simp [Link.aliveRank, app, Link.succeed, Link.setClient]

theorem advances_resend (implements : Implements True link log) (threaded : Threaded link)
    (recoverable : link.Recoverable) (app : link.app = .calling call tries (.resend rest))
    (live : link.channel.client = .live client) : link.Advances := by
  have place : link.app.stage = .resend rest := by rw [app]; rfl
  have connected := implements.sending.inside place rfl (by simp) live
  obtain ⟨working, going⟩ := threaded.resending rest place
  have runs := going client live
  have alive : link.dead = false := by
    simp [Link.dead, place, Stage.leaving, Link.broken, live, working, runs]
  cases rest with
  | nil =>
    have stepped : link.clientStep .works call tries client (.resend []) =
        some (link.endRound call tries true) := rfl
    have moved := (next_app app (by simp) live .works).trans stepped
    unfold Link.endRound at moved
    by_cases more : tries + 1 < maxRetry
    · rw [if_pos more] at moved
      have broken : (link.enter call (tries + 1) .attempt).broken = false := by
        simp [Link.broken, Link.enter, live, working, runs]
      refine advances_stage recoverable app moved (by cases call <;> simp [Link.drops, app]; omega) rfl
        rfl rfl (.inr ⟨client, live⟩) (by simp) ?_ ?_
      · intro again
        rw [Link.retries] at again
        exact absurd (broken.symm.trans again) Bool.false_ne_true
      · refine nearer_alive alive (by rw [Link.dead, broken]; rfl) ?_
        have few := (link.enter call (tries + 1) .attempt).greeting_le
        simp only [Link.aliveRank, app, Link.enter, List.length_nil] at few ⊢
        omega
    · rw [if_neg more] at moved
      cases call with
      | flush =>
        refine advances_succeed app moved (by simp [Link.drops, app]) rfl rfl live ?_
        refine nearer_alive alive ?_ ?_
        · simp [Link.dead, Link.succeed, App.stage, Stage.leaving, Link.broken, live, working, runs]
        · simp [Link.aliveRank, app, Link.succeed]
      | send message =>
        exact absurd (recoverable.rounds message tries _ app (by rw [Link.retries, place])) more
  | cons packet rest =>
    obtain ⟨stream, -, -, -, -, opened, -⟩ := connected.streams
    have stepped : link.clientStep .works call tries client (.resend (packet :: rest)) =
        some ((link.setClient { client with rwSender := some (stream.write packet) }).enter call tries
          (.resend rest)) := by
      simp [Link.clientStep, opened, StepEnv.works, Link.tryWrite, working]
    refine advances_stage recoverable app ((next_app app (by simp) live .works).trans stepped)
      (by simp [Link.drops, app]) rfl rfl rfl (.inr ⟨_, rfl⟩) (by simp)
      (fun _ => ⟨rfl, by rw [Link.retries, place]⟩) ?_
    refine nearer_alive alive ?_ ?_
    · simp [Link.dead, Link.enter, Link.setClient, App.stage, Stage.leaving, Link.broken, working, runs]
    · simp [Link.aliveRank, app, Link.enter, Link.setClient]

theorem advances_write (implements : Implements True link log) (recoverable : link.Recoverable)
    (app : link.app = .calling call tries (.write packet)) (live : link.channel.client = .live client) :
    link.Advances := by
  have place : link.app.stage = .write packet := by rw [app]; rfl
  have connected := implements.sending.inside place rfl (by simp) live
  obtain ⟨stream, -, -, -, -, opened, -⟩ := connected.streams
  cases failed : link.failed with
  | true =>
    have stepped : link.clientStep .breaks call tries client (.write packet) =
        some ({ link with failed := true, content := packet.body }.enter call tries .finish) := by
      simp [Link.clientStep, opened, StepEnv.breaks, StepEnv.works]
    refine advances_stage recoverable app ((next_app app (by simp) live .breaks).trans stepped)
      (by simp [Link.drops, app]) rfl rfl rfl (.inr ⟨client, live⟩) (by simp)
      (fun _ => ⟨rfl, by rw [Link.retries, place, failed]⟩) ?_
    refine nearer_dead ?_ rfl ?_
    · simp [Link.dead, place, Stage.leaving, Link.broken, live, connected.version, failed]
    · simp [Link.deadRank, app, Link.enter, failed]
  | false =>
    have stepped : link.clientStep .works call tries client (.write packet) =
        some ((link.setClient { client with rwSender := some (stream.write packet) }).enter call tries
          (.push packet)) := by
      simp [Link.clientStep, opened, StepEnv.works, Link.tryWrite, failed]
    have dead : ((link.setClient { client with rwSender := some (stream.write packet) }).enter call
        tries (.push packet)).dead = link.dead := by
      have broken : ((link.setClient { client with rwSender := some (stream.write packet) }).enter
          call tries (.push packet)).broken = link.broken := broken_same live rfl rfl rfl
      rw [Link.dead, Link.dead, place, broken]
      rfl
    refine advances_stage recoverable app ((next_app app (by simp) live .works).trans stepped)
      (by simp [Link.drops, app]) rfl rfl rfl (.inr ⟨_, rfl⟩) (by simp) ?_ ?_
    · intro again
      simp [Link.retries, Link.enter, App.stage] at again
    · cases alive : link.dead with
      | true =>
        refine nearer_dead alive (dead.trans alive) ?_
        simp [Link.deadRank, app, Link.enter, failed]
      | false =>
        refine nearer_alive alive (dead.trans alive) ?_
        simp [Link.aliveRank, app, Link.enter, Link.setClient]

/-- `poll` sees that the channel is not ready, or that its time is over. -/
def StepEnv.expires (ready : Bool) : StepEnv := { StepEnv.works with ready, timeout := true }

theorem advances_poll (implements : Implements True link log)
    (recoverable : link.Recoverable) (app : link.app = .calling .flush tries .attempt)
    (live : link.channel.client = .live client) : link.Advances := by
  have place : link.app.stage = .attempt := by rw [app]; rfl
  have stepped (ready : Bool) : link.clientStep (.expires ready) .flush tries client .attempt =
      some (link.poll (.expires ready) .flush tries client) := rfl
  by_cases empty : client.notackQueue = []
  · have moved := (next_app app (by simp) live (.expires true)).trans (stepped true)
    unfold Link.poll at moved
    rw [if_pos empty] at moved
    refine advances_succeed app moved (by simp [Link.drops, app]) rfl rfl live ?_
    have dead : (link.succeed .flush).dead = link.dead := by
      have broken : (link.succeed .flush).broken = link.broken := broken_same live live rfl rfl
      rw [Link.dead, Link.dead, place, broken]
      rfl
    cases alive : link.dead with
    | true =>
      refine nearer_dead alive (dead.trans alive) ?_
      simp [Link.deadRank, app, Link.succeed, Link.flushed, live, empty]
    | false =>
      refine nearer_alive alive (dead.trans alive) ?_
      simp only [Link.aliveRank, app, Link.succeed]
      omega
  · have connected : Connected link log .attempt client := by
      refine (implements.sending.attempt place live).resolve_right fun unconnected => ?_
      exact empty unconnected.queue
    cases broken : link.broken with
    | true =>
      have moved := (next_app app (by simp) live (.expires false)).trans (stepped false)
      have leaves : link.poll (.expires false) .flush tries client = link.enter .flush tries .finish := by
        unfold Link.poll
        rw [if_neg empty]
        split
        · rfl
        · rfl
      rw [leaves] at moved
      refine advances_stage recoverable app moved (by simp [Link.drops, app]) rfl rfl rfl
        (.inr ⟨client, live⟩) (by simp) (fun _ => ⟨rfl, by rw [Link.retries, place, broken]⟩) ?_
      refine nearer_dead (by rw [Link.dead, broken, Bool.or_true]) rfl ?_
      simp [Link.deadRank, app, Link.enter, Link.flushed, live, empty]
    | false =>
      have going : client.recvThreadStatus ≠ .finished := fun ended => by
        simp [Link.broken, live, connected.version, ended] at broken
      have moved := (next_app app (by simp) live (.expires true)).trans (stepped true)
      have fails : link.poll (.expires true) .flush tries client = link.fail := by
        unfold Link.poll
        rw [if_neg empty, if_neg going]
        rfl
      rw [fails] at moved
      have still : link.fail.broken = false := (broken_same live live rfl rfl).trans broken
      refine advances_idle moved (by simp [Link.drops, app]) rfl live ?_ ?_
      · unfold Link.account
        rw [app]
        rfl
      · refine nearer_alive (by rw [Link.dead, place, broken]; rfl) (by rw [Link.dead, still]; rfl) ?_
        simp only [Link.aliveRank, app, Link.fail]
        omega

/-- The first `Send` negotiates version 2. -/
theorem advances_negotiate (threaded : Threaded link) (recoverable : link.Recoverable)
    (app : link.app = .calling (.send message) tries .attempt)
    (live : link.channel.client = .live client)
    (unspoken : client.useRpcVersion = ServiceVersion.notInited.code) : link.Advances := by
  have place : link.app.stage = .attempt := by rw [app]; rfl
  have status := (threaded.fresh client live unspoken).1
  let current : RpcClient := { client with
    useRpcVersion := 2, rwSender := some Stream.opened, recvThread := true }
  have connects : client.connect StepEnv.works.versions = some current := rfl
  have stepped : link.clientStep .works (.send message) tries client .attempt =
      some (link.opened current) := by
    simp only [Link.clientStep, Link.beginSend, if_pos unspoken, Link.negotiate, connects]
    rfl
  have alive : link.dead = false := by
    simp [Link.dead, place, Stage.leaving, Link.broken, live, unspoken, ServiceVersion.code]
  have broken : (link.opened current).broken = false := by
    simp [Link.broken, Link.opened, current, status]
  refine advances_stage recoverable app ((next_app app (by simp) live .works).trans stepped)
    (by simp [Link.drops, app]) app rfl rfl (.inr ⟨_, rfl⟩) (by simp) ?_ ?_
  · intro again
    have stage : (link.opened current).app.stage = .attempt := place
    rw [Link.retries, stage] at again
    exact absurd (broken.symm.trans again) Bool.false_ne_true
  · have stage : (link.opened current).app.stage = .attempt := place
    refine nearer_alive alive (by rw [Link.dead, stage, broken]; rfl) ?_
    have before : link.greeting = 1 := by
      simp [Link.greeting, live, unspoken, ServiceVersion.code]
    have now : (link.opened current).greeting = 0 := by
      simp [Link.greeting, Link.opened, current, ServiceVersion.code]
    have kept : (link.opened current).app = link.app := rfl
    simp only [Link.aliveRank, kept, app, before, now]
    simp [Link.opened, Link.setClient]

theorem advances_send (implements : Implements True link log) (threaded : Threaded link)
    (recoverable : link.Recoverable) (app : link.app = .calling (.send message) tries .attempt)
    (live : link.channel.client = .live client) : link.Advances := by
  have place : link.app.stage = .attempt := by rw [app]; rfl
  rcases implements.sending.attempt place live with connected | unconnected
  · have spoken : client.useRpcVersion ≠ ServiceVersion.notInited.code :=
      ServiceVersion.code_ne connected.version (by simp)
    by_cases ended : client.recvThreadStatus = .finished
    · have broken : link.broken = true := by simp [Link.broken, live, connected.version, ended]
      have stepped : link.clientStep .works (.send message) tries client .attempt =
          some (link.enter (.send message) tries .finish) := by
        simp only [Link.clientStep, Link.beginSend, if_neg spoken, if_pos ended]
      refine advances_stage recoverable app ((next_app app (by simp) live .works).trans stepped)
        (by simp [Link.drops, app]) rfl rfl rfl (.inr ⟨client, live⟩) (by simp)
        (fun _ => ⟨rfl, by rw [Link.retries, place, broken]⟩) ?_
      refine nearer_dead (by rw [Link.dead, broken, Bool.or_true]) rfl ?_
      simp [Link.deadRank, app, Link.enter]
    · let packet := client.packet link.channel.channelId link.content
      have stepped : link.clientStep .works (.send message) tries client .attempt =
          some ({ link with content := [] }.enter (.send message) tries (.write packet)) := by
        simp only [Link.clientStep, Link.beginSend, if_neg spoken, if_neg ended]
        rfl
      have same : ({ link with content := [] }.enter (.send message) tries (.write packet)).broken =
          link.broken := broken_same live live rfl rfl
      have broken : link.broken = link.failed := by
        cases failed : link.failed <;> simp [Link.broken, live, connected.version, ended, failed]
      refine advances_stage recoverable app ((next_app app (by simp) live .works).trans stepped)
        (by simp [Link.drops, app]) rfl rfl rfl (.inr ⟨client, live⟩) (by simp) ?_ ?_
      · intro again
        refine ⟨rfl, ?_⟩
        rw [Link.retries, place]
        exact broken.trans again
      · cases dead : link.broken with
        | true =>
          refine nearer_dead (by rw [Link.dead, dead, Bool.or_true])
            (by rw [Link.dead, same, dead, Bool.or_true]) ?_
          simp [Link.deadRank, app, Link.enter, broken.symm.trans dead]
        | false =>
          refine nearer_alive (by rw [Link.dead, place, dead]; rfl)
            (by rw [Link.dead, same, dead]; rfl) ?_
          simp only [Link.aliveRank, app, Link.enter]
          omega
  · exact advances_negotiate threaded recoverable app live unconnected.version

/-- The application calls `real_send` with its next message. -/
theorem advances_call (idle : link.app = .idle) (live : link.channel.client = .live client)
    (pending : link.pending = message :: rest) : link.Advances := by
  have place : link.app.stage = .attempt := by rw [idle]; rfl
  have stepped : Link.next (.call false) link = some
      ({ link with pending := rest, content := message }.enter (.send message) 0 .attempt) := by
    simp [Link.next, Link.call, idle, pending]
  have same : ({ link with pending := rest, content := message }.enter (.send message) 0
      .attempt).broken = link.broken := broken_same live live rfl rfl
  refine ⟨_, _, keeps stepped (by simp [Link.drops]), ⟨⟨?_, .inr ⟨client, live⟩, ?_, ?_⟩, ?_⟩, ?_⟩
  · exact fun fault there => by cases there
  · exact fun there => by cases there
  · intro other tries stage there _
    cases there
    decide
  · simp [Link.account, Link.enter, idle, pending, App.message]
  · cases dead : link.broken with
    | true =>
      refine nearer_dead (by rw [Link.dead, dead, Bool.or_true])
        (by rw [Link.dead, same, dead, Bool.or_true]) ?_
      simp [Link.deadRank, idle, Link.enter]
    | false =>
      refine nearer_alive (by rw [Link.dead, place, dead]; rfl) (by rw [Link.dead, same, dead]; rfl) ?_
      have few := ({ link with pending := rest, content := message }.enter (.send message) 0
        .attempt).greeting_le
      simp only [Link.aliveRank, idle, pending, Link.enter, List.length_cons] at few ⊢
      omega

/-- The application calls `flush` because the stream is broken. -/
theorem advances_flush (idle : link.app = .idle) (live : link.channel.client = .live client)
    (broken : link.broken = true) (waiting : client.notackQueue ≠ []) : link.Advances := by
  have stepped : Link.next (.call true) link = some (link.enter .flush 0 .attempt) := by
    simp [Link.next, Link.call, idle]
  have same : (link.enter .flush 0 .attempt).broken = link.broken := broken_same live live rfl rfl
  refine ⟨_, _, keeps stepped (by simp [Link.drops]), ⟨⟨?_, .inr ⟨client, live⟩, ?_, ?_⟩, ?_⟩, ?_⟩
  · exact fun fault there => by cases there
  · exact fun there => by cases there
  · exact fun other tries stage there => by cases there
  · simp [Link.account, Link.enter, idle, App.message]
  · refine nearer_dead (by rw [Link.dead, broken, Bool.or_true])
      (by rw [Link.dead, same, broken, Bool.or_true]) ?_
    simp [Link.deadRank, idle, Link.enter, Link.flushed, live, waiting]

/-- A step outside the application between two calls. -/
theorem advances_work (idle : link.app = .idle) (stepped : Link.next label link = some after)
    (kept : link.drops label = false) (app : after.app = link.app)
    (live : after.channel.client = .live client) (sent : after.sent = link.sent)
    (pending : after.pending = link.pending) (broken : after.broken = link.broken)
    (lower : after.work < link.work) : link.Advances := by
  refine advances_idle stepped kept (app.trans idle) live ?_ (nearer_work ?_ ?_ ?_ lower)
  · unfold Link.account
    rw [app, sent, pending]
  · rw [Link.dead, Link.dead, app, broken]
  · simp only [Link.deadRank, app, idle]
  · simp only [Link.aliveRank, app, idle, pending]

/-- The receiver reads the next element of the list, whatever it is. -/
theorem advances_pop (idle : link.app = .idle) (live : link.channel.client = .live client)
    (unread : link.popped < link.redis.length) : link.Advances := by
  obtain ⟨after, moved, popped, kept⟩ : ∃ after, Link.next .pop link = some after ∧
      after.popped = link.popped + 1 ∧
      (after.app, after.channel, after.failed, after.sent, after.pending, after.redis, after.heldAck,
        after.acksRead, after.handlers) = (link.app, link.channel, link.failed, link.sent, link.pending,
        link.redis, link.heldAck, link.acksRead, link.handlers) := by
    have there := List.getElem?_eq_getElem unread
    simp only [Link.next, Link.pop, there, Option.map_some, Option.some.injEq, exists_eq_left']
    split <;> exact ⟨rfl, rfl⟩
  simp only [Prod.mk.injEq] at kept
  obtain ⟨app, channel, failed, sent, pending, redis, held, read, handlers⟩ := kept
  refine advances_work idle moved (by simp [Link.drops]) app (by rw [channel]; exact live) sent pending
    (broken_same live (by rw [channel]; exact live) rfl failed) ?_
  simp only [Link.work, popped, channel, redis, held, read, handlers]
  omega

/-- The work of a connected link. -/
theorem work_eq {stream : Stream} {handler : Handler} {handlers : List Handler}
    (live : link.channel.client = .live client) (opened : client.rwSender = some stream)
    (head : link.handlers = handler :: handlers) :
    link.work = (link.redis.length - link.popped) +
      ((stream.written.length - handler.received.length) +
        3 * (stream.written.length - handler.appended) +
        (stream.written.length - handler.acked) + 2 * (stream.written.length - link.acksRead) +
        (if link.heldAck.isSome then 1 else 0) +
        if client.recvThreadStatus = .notInited then 1 else 0) := by
  simp only [Link.work, live, head, opened]

/-- While packets are not acknowledged, the server or the ack thread can go on. -/
theorem advances_network (implements : Implements True link log) (threaded : Threaded link)
    (idle : link.app = .idle) (live : link.channel.client = .live client)
    (connected : Connected link log .attempt client) (alive : link.broken = false)
    (waiting : client.notackQueue ≠ []) : link.Advances := by
  have place : link.app.stage = .attempt := by rw [idle]; rfl
  have runs := threaded.running client live connected.version (by rw [place]; exact Stage.noConfusion)
  obtain ⟨stream, handler, handlers, span, spans, opened, head, here, streaming⟩ := connected.streams
  obtain ⟨other, found, handles⟩ := implements.serves.found (k := 0) (by rw [head]; rfl)
  rw [here] at found
  cases found
  have going : client.recvThreadStatus ≠ .finished := fun ended => by
    simp [Link.broken, live, connected.version, ended] at alive
  have working : link.failed = false := by
    cases failed : link.failed with
    | false => rfl
    | true => simp [Link.broken, live, connected.version, failed] at alive
  have short := streaming.received.length_le
  have inside := handles.acked
  have enough := handles.enough
  have read := streaming.acked
  have before := work_eq live opened head
  by_cases arriving : handler.received.length < stream.written.length
  · let handler' := { handler with
      received := handler.received ++ [stream.written[handler.received.length]] }
    have stepped : Link.next .receive link = some { link with handlers := handler' :: handlers } := by
      simp [Link.next, Link.receive, live, head, opened, arriving, handler']
    refine advances_work idle stepped rfl rfl live rfl rfl (broken_same live live rfl rfl) ?_
    rw [before]
    simp only [Link.work, live, opened, handler', List.length_append, List.length_singleton]
    omega
  by_cases unacknowledged : handler.acked < handler.appended
  · let handler' := { handler with acked := handler.acked + 1 }
    have stepped : Link.next (.acknowledge 0) link =
        some { link with handlers := handler' :: handlers } := by
      simp [Link.next, Link.acknowledge, head, unacknowledged, handler']
    refine advances_work idle stepped rfl rfl live rfl rfl (broken_same live live rfl rfl) ?_
    rw [before]
    simp only [Link.work, live, opened, handler']
    omega
  by_cases unappended : handler.appended < handler.received.length
  · let handler' := { handler with appended := handler.appended + 1 }
    have level : handler.acked = handler.appended := by omega
    have stepped : Link.next (.append 0) link = some { link with
        redis := link.redis ++
          [redisFrame (link.redis = []) handler.received[handler.appended]]
        handlers := handler' :: handlers } := by
      simp [Link.next, Link.append, head, level, unappended, handler']
    refine advances_work idle stepped rfl rfl live rfl rfl (broken_same live live rfl rfl) ?_
    rw [before]
    simp only [Link.work, live, opened, handler', List.length_append, List.length_singleton]
    omega
  cases status : client.recvThreadStatus with
  | finished => exact absurd status going
  | notInited =>
    have stepped : Link.next (.ack .start) link =
        some (link.setClient { client with recvThreadStatus := .started }) := by
      simp [Link.next, Link.ackStep, live, runs, Link.ackClientStep, status]
    refine advances_work idle stepped rfl rfl rfl rfl rfl ?_ ?_
    · rw [alive]
      simp [Link.broken, Link.setClient, working]
    · rw [before]
      simp [Link.work, Link.setClient, head, opened, status]
  | started =>
    cases held : link.heldAck with
    | some ack =>
      have stepped : Link.next (.ack .pop) link =
          some { link.setClient { client with notackQueue := client.notackQueue.tail } with
            heldAck := none } := by
        simp [Link.next, Link.ackStep, live, runs, Link.ackClientStep, held, waiting, Link.locked, idle]
      refine advances_work idle stepped rfl rfl rfl rfl rfl (broken_same live rfl rfl rfl) ?_
      rw [before]
      simp [Link.work, Link.setClient, head, opened, status, held]
    | none =>
      by_cases unread : link.acksRead < handler.acked
      · have present : link.acksRead < handler.received.length := by omega
        have stepped : Link.next (.ack .read) link = some { link with
            heldAck := some handler.received[link.acksRead].header.seq
            acksRead := link.acksRead + 1 } := by
          simp [Link.next, Link.ackStep, live, runs, Link.ackClientStep, status, held, Link.readAck,
            head, unread, present]
        refine advances_work idle stepped rfl rfl live rfl rfl (broken_same live live rfl rfl) ?_
        rw [before]
        simp only [Link.work, live, head, opened, held, Option.isSome_some, Option.isSome_none,
          Bool.false_eq_true, ↓reduceIte]
        omega
      · -- everything written is acknowledged, so nothing is left in the queue
        have whole := congrArg List.length (streaming.whole working)
        have count := streaming.read
        have queue := congrArg List.length connected.queue
        simp only [held, Stage.remaining, Stage.pushing, List.append_nil, List.length_drop,
          Option.toList_none, List.length_nil] at whole count queue
        have empty : client.notackQueue.length = 0 := by omega
        exact absurd (List.length_eq_zero_iff.mp empty) waiting

/-- A recoverable link can go on until all is settled. -/
theorem recoverable_advances (implements : Implements True link log) (threaded : Threaded link)
    (recoverable : link.Recoverable) : link.Settled ∨ link.Advances := by
  cases app : link.app with
  | crashed fault => exact absurd app (recoverable.running fault)
  | idle =>
    have place : link.app.stage = .attempt := by rw [app]; rfl
    obtain ⟨tup, stage⟩ | ⟨client, live⟩ := recoverable.live
    · rw [place] at stage
      cases stage
    cases pending : link.pending with
    | cons message rest => exact .inr (advances_call app live pending)
    | nil =>
      by_cases empty : client.notackQueue = []
      · by_cases unread : link.popped < link.redis.length
        · exact .inr (advances_pop app live unread)
        · exact .inl ⟨app, pending, ⟨client, live, empty⟩, Nat.le_of_not_lt unread⟩
      · cases broken : link.broken with
        | true => exact .inr (advances_flush app live broken empty)
        | false =>
          have connected := (implements.sending.attempt place live).resolve_right
            fun unconnected => empty unconnected.queue
          exact .inr (advances_network implements threaded app live connected broken empty)
  | calling call tries stage =>
    have place : link.app.stage = stage := by rw [app]; rfl
    have live (present : ∀ tup, stage ≠ .create tup) : ∃ client, link.channel.client = .live client :=
      recoverable.live.resolve_left fun ⟨tup, same⟩ => present tup (place.symm.trans same)
    right
    cases stage with
    | attempt =>
      obtain ⟨client, live⟩ := live (by simp)
      cases call with
      | send message => exact advances_send implements threaded recoverable app live
      | flush => exact advances_poll implements recoverable app live
    | write packet =>
      obtain ⟨client, live⟩ := live (by simp)
      exact advances_write implements recoverable app live
    | push packet =>
      obtain ⟨client, live⟩ := live (by simp)
      exact advances_push app live
    | finish =>
      obtain ⟨client, live⟩ := live (by simp)
      exact advances_finish implements recoverable app live
    | join =>
      obtain ⟨client, live⟩ := live (by simp)
      exact advances_join implements threaded recoverable app live
    | giveUp =>
      obtain ⟨client, live⟩ := live (by simp)
      exact advances_giveUp recoverable app live
    | create tup => exact advances_create recoverable app
    | restore tup =>
      obtain ⟨client, live⟩ := live (by simp)
      exact advances_restore threaded recoverable app live
    | resend rest =>
      obtain ⟨client, live⟩ := live (by simp)
      exact advances_resend implements threaded recoverable app live

/-- Where nothing is left to do the receiver has been given everything. -/
theorem Link.Settled.delivered (settled : link.Settled) (implements : Implements True link log)
    (sound : Replay.Sound log) : link.delivered = link.sent := by
  obtain ⟨client, live, empty⟩ := settled.acknowledged
  have place : link.app.stage = .attempt := by rw [settled.idle]; rfl
  have done : log.items.length ≤ log.acked := by
    rcases implements.sending.attempt place live with connected | unconnected
    · have queue := connected.queue
      rw [empty] at queue
      exact List.drop_eq_nil_iff.mp queue.symm
    · rw [unconnected.items]
      exact Nat.zero_le _
  have all : log.log.take link.popped = log.log := by
    refine List.take_of_length_le ?_
    rw [← implements.listed.length]
    exact settled.read
  have taken : log.taken link.popped = log.items := by
    unfold Replay.State.taken
    rw [all]
    exact List.take_of_length_le (Nat.le_trans done sound.acked)
  have promised : link.promised = link.sent := by
    unfold Link.promised
    rw [place]
    exact List.append_nil _
  rw [implements.reads.contents, taken, implements.whole trivial, promised]

end

theorem keeping_reaches (path : Reaches Link.keeping start link) : Reaches Link.next start link := by
  induction path with
  | refl => exact Reaches.refl _ _
  | tail _ moved ih =>
    obtain ⟨label, moved⟩ := moved
    exact ih.step (keeping_next moved).1

/-- From a recoverable state all messages can still be sent, acknowledged and delivered. -/
theorem recoverable_settles (few : messages.length < 2 ^ 31)
    (reached : Reaches Link.keeping (Link.start fromParty toParty taskid serverAddress metaMap
      redisTimeoutEnv messages) link) (recoverable : link.Recoverable) :
    ∃ final, Reaches Link.keeping link final ∧ final.Settled ∧ final.sent = link.account ∧
      final.delivered = link.account := by
  have implements {state : Link} (path : Reaches Link.keeping (Link.start fromParty toParty taskid
      serverAddress metaMap redisTimeoutEnv messages) state) :
      ∃ log, Reaches Replay.next Replay.State.empty log ∧ Implements True state log :=
    run_implements (start_implements few True)
      (fun _ _ _ moved => ⟨(keeping_next moved).1, fun _ => (keeping_next moved).2⟩) path
  obtain ⟨final, path, ⟨whole, -, account⟩, settled⟩ :=
    reaches_of_lowers Link.distance
      (fun state => Reaches Link.keeping (Link.start fromParty toParty taskid serverAddress metaMap
        redisTimeoutEnv messages) state ∧ state.Recoverable ∧ state.account = link.account)
      Link.Settled (fun state good => by
        obtain ⟨path, recoverable, account⟩ := good
        obtain ⟨log, -, there⟩ := implements path
        have threaded := threaded_reaches few (keeping_reaches path)
        rcases recoverable_advances there threaded recoverable with settled |
          ⟨label, after, moved, ⟨still, kept⟩, nearer⟩
        · exact .inl settled
        · exact .inr ⟨label, after, moved, ⟨path.step moved, still, kept.trans account⟩, nearer⟩)
      ⟨reached, recoverable, rfl⟩
  have sent : final.sent = link.account := by
    rw [← account, Link.account, settled.idle, settled.sent]
    simp [App.message]
  obtain ⟨log, abstract, there⟩ := implements whole
  refine ⟨final, path, settled, sent, ?_⟩
  rw [← sent]
  exact settled.delivered there (Replay.reaches_sound abstract)

end GaiaNet.Grpc
