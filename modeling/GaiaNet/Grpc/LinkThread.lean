import GaiaNet.Grpc.Delivery
import GaiaNet.Grpc.LinkRuns

/-! What the ack thread of a link knows at each stage of a call. -/

namespace GaiaNet.Grpc

open Lib.Transition

/-- The ack thread runs while there is a stream, holds an ack only between reading and
popping, and does not end while `set_continue_status` holds `m_mtx`. -/
structure Threaded (link : Link) : Prop where
  running : ∀ client, link.channel.client = .live client →
    client.useRpcVersion = ServiceVersion.v2.code → link.app.stage ≠ .giveUp →
    client.recvThread = true
  held : link.heldAck ≠ none →
    0 < link.acksRead ∧ ∃ client, link.channel.client = .live client ∧
      client.recvThreadStatus = .started ∧ client.recvThread = true
  fresh : ∀ client, link.channel.client = .live client →
    client.useRpcVersion = ServiceVersion.notInited.code →
    client.recvThreadStatus = .notInited ∧ client.recvThread = false
  resending : ∀ rest, link.app.stage = .resend rest → link.failed = false ∧
    ∀ client, link.channel.client = .live client → client.recvThreadStatus ≠ .finished
  restoring : ∀ tup, link.app.stage = .restore tup → ∀ client,
    link.channel.client = .live client → client.useRpcVersion = ServiceVersion.notInited.code

/-- What the ack thread and `Send` ask of a client. -/
def RpcClient.threading (client : RpcClient) : Int × Bool × RecvThreadStatus :=
  (client.useRpcVersion, client.recvThread, client.recvThreadStatus)

/-- What the ack thread has read from the current stream. -/
def Link.acks (link : Link) : Option Int × Nat := (link.heldAck, link.acksRead)

section

variable {link after : Link} {client new : RpcClient}

/-- A step from one stage to the next with the same client. -/
theorem Threaded.to (threaded : Threaded link) (live : link.channel.client = .live client)
    (now : after.channel.client = .live new) (same : new.threading = client.threading)
    (acks : after.acks = link.acks) (early : link.app.stage ≠ .giveUp)
    (resends : ∀ rest, after.app.stage = .resend rest →
      after.failed = link.failed ∧ ∃ more, link.app.stage = .resend more)
    (restores : ∀ tup, after.app.stage ≠ .restore tup) : Threaded after := by
  simp only [RpcClient.threading, Prod.mk.injEq] at same
  obtain ⟨version, thread, status⟩ := same
  simp only [Link.acks, Prod.mk.injEq] at acks
  obtain ⟨held, read⟩ := acks
  have only {other : RpcClient} (there : after.channel.client = .live other) : other = new := by
    rw [now] at there
    cases there
    rfl
  constructor
  · intro other there speaks _
    rw [only there] at speaks ⊢
    rw [thread]
    exact threaded.running client live (version ▸ speaks) early
  · intro holds
    rw [held] at holds
    obtain ⟨positive, other, there, started, runs⟩ := threaded.held holds
    rw [live] at there
    cases there
    exact ⟨read ▸ positive, new, now, status.trans started, thread.trans runs⟩
  · intro other there speaks
    rw [only there] at speaks ⊢
    rw [status, thread]
    exact threaded.fresh client live (version ▸ speaks)
  · intro rest stage
    obtain ⟨failed, more, before⟩ := resends rest stage
    obtain ⟨working, runs⟩ := threaded.resending more before
    refine ⟨failed.trans working, fun other there => ?_⟩
    rw [only there, status]
    exact runs client live
  · intro tup stage
    exact absurd stage (restores tup)

/-- A step that leaves the client and the stage alone. -/
theorem Threaded.around (threaded : Threaded link) (client : after.channel.client = link.channel.client)
    (acks : after.acks = link.acks) (failed : after.failed = link.failed)
    (stage : after.app.stage = link.app.stage) : Threaded after := by
  simp only [Link.acks, Prod.mk.injEq] at acks
  obtain ⟨held, read⟩ := acks
  constructor
  · rw [client, stage]
    exact threaded.running
  · rw [client, held, read]
    exact threaded.held
  · rw [client]
    exact threaded.fresh
  · rw [client, stage, failed]
    exact threaded.resending
  · rw [client, stage]
    exact threaded.restoring

/-- A new stream starts its ack thread. -/
theorem Threaded.opened (live : after.channel.client = .live new)
    (running : new.useRpcVersion = ServiceVersion.v2.code → new.recvThread = true)
    (spoken : new.useRpcVersion = ServiceVersion.notInited.code → new.recvThread = false)
    (status : new.recvThreadStatus = .notInited) (held : after.heldAck = none)
    (failed : after.failed = false) (restores : ∀ tup, after.app.stage ≠ .restore tup) :
    Threaded after := by
  have only {other : RpcClient} (there : after.channel.client = .live other) : other = new := by
    rw [live] at there
    cases there
    rfl
  constructor
  · intro other there speaks _
    rw [only there] at speaks ⊢
    exact running speaks
  · intro holds
    exact absurd held holds
  · intro other there speaks
    rw [only there] at speaks ⊢
    exact ⟨status, spoken speaks⟩
  · intro rest _
    refine ⟨failed, fun other there => ?_⟩
    rw [only there, status]
    exact fun same => by cases same
  · intro tup stage
    exact absurd stage (restores tup)

theorem RpcClient.initSender_threading (client : RpcClient) (idle : client.recvThread = false) :
    (client.initSender.useRpcVersion = ServiceVersion.v2.code → client.initSender.recvThread = true) ∧
      (client.initSender.useRpcVersion = ServiceVersion.notInited.code →
        client.initSender.recvThread = false) ∧
      client.initSender.recvThreadStatus = client.recvThreadStatus := by
  unfold RpcClient.initSender
  split
  · rename_i high
    refine ⟨fun _ => rfl, fun unspoken => ?_, rfl⟩
    exact absurd high (Int.not_le.mpr (ServiceVersion.code_lt unspoken (by simp)))
  · rename_i low
    exact ⟨fun second => absurd (ServiceVersion.code_ge second) low, fun _ => idle, rfl⟩

theorem endRound_stage (call : Call) (tries : Nat) (ret : Bool) (link : Link) :
    (link.endRound call tries ret).app.stage = .attempt ∧
      (link.endRound call tries ret).acks = link.acks := by
  unfold Link.endRound
  split
  · exact ⟨rfl, rfl⟩
  · cases call with
    | flush => exact ⟨rfl, rfl⟩
    | send message => cases ret <;> exact ⟨rfl, rfl⟩

theorem succeed_stage (call : Call) (link : Link) :
    (link.succeed call).app.stage = .attempt ∧ (link.succeed call).acks = link.acks ∧
      (link.succeed call).channel.client = link.channel.client := by
  cases call <;> exact ⟨rfl, rfl, rfl⟩

/-- A step to the head of a round or out of the call. -/
theorem Threaded.settle (threaded : Threaded link) (live : link.channel.client = .live client)
    (now : after.channel.client = .live new) (same : new.threading = client.threading)
    (acks : after.acks = link.acks) (early : link.app.stage ≠ .giveUp)
    (stage : after.app.stage = .attempt) : Threaded after :=
  threaded.to live now same acks early (fun rest there => by cases stage.symm.trans there)
    fun tup there => by cases stage.symm.trans there

theorem threaded_attempt (threaded : Threaded link) (app : link.app = .calling call tries .attempt)
    (live : link.channel.client = .live client)
    (moved : link.clientStep env call tries client .attempt = some after) : Threaded after := by
  have early : link.app.stage ≠ .giveUp := by rw [app]; exact Stage.noConfusion
  cases call with
  | send message =>
    simp only [Link.clientStep, Link.beginSend] at moved
    split at moved
    · rename_i unspoken
      unfold Link.negotiate at moved
      cases connected : client.connect env.versions with
      | none =>
        rw [connected] at moved
        cases moved
        exact threaded.settle live live rfl rfl early rfl
      | some current =>
        simp only [connected] at moved
        split at moved
        · cases moved
          unfold RpcClient.connect at connected
          split at connected
          · cases connected
          · split at connected
            · cases connected
            · cases connected
              rename_i version _ _ _
              obtain ⟨early, idle⟩ := threaded.fresh client live unspoken
              obtain ⟨running, spoken, status⟩ :=
                RpcClient.initSender_threading { client with useRpcVersion := version } idle
              exact .opened rfl running spoken (status.trans early) rfl rfl
                fun tup there => by
                  have stage : link.app.stage = .restore tup := there
                  rw [app] at stage
                  cases stage
        · cases moved
    · split at moved
      · cases moved
        exact threaded.to live live rfl rfl early (fun rest there => by cases there)
          fun tup there => by cases there
      · cases moved
        exact threaded.to live live rfl rfl early (fun rest there => by cases there)
          fun tup there => by cases there
  | flush =>
    cases moved
    unfold Link.poll
    repeat' split
    · exact threaded.settle live live rfl rfl early rfl
    · exact threaded.to live live rfl rfl early (fun rest there => by cases there)
        fun tup there => by cases there
    · exact threaded.to live live rfl rfl early (fun rest there => by cases there)
        fun tup there => by cases there
    · exact threaded.settle live live rfl rfl early rfl
    · exact threaded

theorem threaded_clientStep (threaded : Threaded link) (app : link.app = .calling call tries stage)
    (live : link.channel.client = .live client)
    (moved : link.clientStep env call tries client stage = some after) : Threaded after := by
  have place : link.app.stage = stage := by rw [app]; rfl
  cases stage with
  | attempt => exact threaded_attempt threaded app live moved
  | write packet =>
    have early : link.app.stage ≠ .giveUp := by rw [place]; exact Stage.noConfusion
    simp only [Link.clientStep, Link.tryWrite] at moved
    split at moved
    · cases moved
      exact threaded.settle live live rfl rfl early rfl
    · split at moved
      · obtain ⟨wrote, tried, rfl⟩ := Option.map_eq_some_iff.mp moved
        split at tried
        · cases tried
        · cases tried
          exact threaded.to live rfl rfl rfl early (fun rest there => by cases there)
            fun tup there => by cases there
      · cases moved
        exact threaded.to live live rfl rfl early (fun rest there => by cases there)
          fun tup there => by cases there
  | push packet =>
    have early : link.app.stage ≠ .giveUp := by rw [place]; exact Stage.noConfusion
    cases moved
    obtain ⟨stage, held, kept⟩ := succeed_stage call (link.setClient (client.pushNotack packet))
    exact threaded.settle live kept rfl held early stage
  | finish =>
    have early : link.app.stage ≠ .giveUp := by rw [place]; exact Stage.noConfusion
    simp only [Link.clientStep] at moved
    split at moved
    · cases moved
      exact threaded.settle live live rfl rfl early rfl
    · cases moved
      exact threaded.to live rfl rfl rfl early (fun rest there => by cases there)
        fun tup there => by cases there
  | join =>
    have early : link.app.stage ≠ .giveUp := by rw [place]; exact Stage.noConfusion
    simp only [Link.clientStep] at moved
    split at moved
    · cases moved
      exact threaded.to live live rfl rfl early (fun rest there => by cases there)
        fun tup there => by cases there
    · cases moved
    · rename_i finished
      cases moved
      refine ⟨fun _ _ _ there => absurd rfl there, fun holds => ?_, fun other there unspoken => ?_,
        (fun rest there => by cases there), fun tup there => by cases there⟩
      · obtain ⟨-, other, there, started, -⟩ := threaded.held holds
        rw [live] at there
        cases there
        rw [finished] at started
        cases started
      · cases there
        exact ⟨(threaded.fresh client live unspoken).1, rfl⟩
  | giveUp =>
    simp only [Link.clientStep] at moved
    split at moved
    · rename_i runs
      cases moved
      refine ⟨fun other there _ _ => ?_, threaded.held, threaded.fresh, (fun rest there => by cases there),
        fun tup there => by cases there⟩
      have same := live.symm.trans there
      cases same
      exact runs
    · rename_i joined
      cases moved
      refine ⟨(fun other there => by cases there), fun holds => ?_, (fun other there => by cases there),
        (fun rest there => by cases there), fun tup there => by cases there⟩
      obtain ⟨-, other, there, -, runs⟩ := threaded.held holds
      rw [live] at there
      cases there
      exact absurd runs joined
  | create tup => cases moved
  | restore tup =>
    cases moved
    have unspoken := threaded.restoring tup place client live
    obtain ⟨early, idle⟩ := threaded.fresh client live unspoken
    obtain ⟨running, spoken, status⟩ := RpcClient.initSender_threading { client with
      useRpcVersion := tup.useRpcVersion
      useRedisDataVersion := tup.useRedisDataVersion
      notackQueue := tup.notackQueue
      seq := tup.seq
      recvIdx := tup.recvIdx } idle
    exact .opened rfl running spoken (status.trans early) rfl rfl
      fun other there => by cases there
  | resend rest =>
    have early : link.app.stage ≠ .giveUp := by rw [place]; exact Stage.noConfusion
    cases rest with
    | nil =>
      cases moved
      obtain ⟨stage, held⟩ := endRound_stage call tries true link
      exact threaded.settle live ((endRound_client call tries true link).1.trans live) rfl held early
        stage
    | cons packet rest =>
      simp only [Link.clientStep, Link.tryWrite] at moved
      split at moved
      · cases moved
        exact threaded.settle live live rfl rfl early rfl
      · split at moved
        · obtain ⟨wrote, tried, rfl⟩ := Option.map_eq_some_iff.mp moved
          split at tried
          · cases tried
          · cases tried
            exact threaded.to live rfl rfl rfl early (fun rest there => ⟨rfl, _, place⟩)
              fun tup there => by cases there
        · cases moved
          obtain ⟨stage, held⟩ := endRound_stage call tries false { link with failed := true }
          exact threaded.settle live
            ((endRound_client call tries false { link with failed := true }).1.trans live) rfl held
            early stage

theorem threaded_create (threaded : Threaded link) (env : StepEnv) (tup : ContinueStatus)
    (gone : link.channel.client = .null) : Threaded (link.create env call tries tup) := by
  have released : link.heldAck = none := by
    refine Classical.byContradiction fun holds => ?_
    obtain ⟨-, client, live, -⟩ := threaded.held holds
    rw [gone] at live
    cases live
  unfold Link.create
  split
  · refine ⟨fun client there speaks _ => ?_, fun holds => absurd released holds,
      fun client there _ => ?_, (fun rest there => by cases there), fun other _ client there => ?_⟩
    all_goals cases there
    · cases speaks
    · exact ⟨rfl, rfl⟩
    · rfl
  · refine ⟨fun client there => ?_, fun holds => absurd released holds, fun client there => ?_,
      (fun rest there => by cases there), fun other there => by cases there⟩
    all_goals cases gone.symm.trans there

/-- A step of the ack thread: it runs, so its client is connected. -/
theorem Threaded.acking (threaded : Threaded link) (live : link.channel.client = .live client)
    (runs : client.recvThread = true) (now : after.channel.client = .live new)
    (version : new.useRpcVersion = client.useRpcVersion) (thread : new.recvThread = true)
    (held : after.heldAck ≠ none → 0 < after.acksRead ∧ new.recvThreadStatus = .started)
    (failed : after.failed = link.failed) (app : after.app = link.app)
    (ends : new.recvThreadStatus = .finished → link.locked = false ∨
      client.recvThreadStatus = .finished) : Threaded after := by
  have only {other : RpcClient} (there : after.channel.client = .live other) : other = new := by
    rw [now] at there
    cases there
    rfl
  constructor
  · intro other there _ _
    rw [only there]
    exact thread
  · intro holds
    obtain ⟨read, started⟩ := held holds
    exact ⟨read, new, now, started, thread⟩
  · intro other there unspoken
    rw [only there, version] at unspoken
    rw [(threaded.fresh client live unspoken).2] at runs
    cases runs
  · intro rest stage
    rw [app] at stage
    obtain ⟨working, going⟩ := threaded.resending rest stage
    refine ⟨failed.trans working, fun other there finished => ?_⟩
    rw [only there] at finished
    rcases ends finished with free | before
    · unfold Link.locked at free
      unfold App.stage at stage
      split at stage
      · rename_i same
        rw [same, stage] at free
        cases free
      · cases stage
    · exact going client live before
  · intro tup stage other there
    rw [app] at stage
    rw [only there, version]
    exact threaded.restoring tup stage client live

theorem threaded_ackStep (threaded : Threaded link) (moved : link.ackStep step = some after) :
    Threaded after := by
  unfold Link.ackStep at moved
  split at moved
  · rename_i client live
    split at moved
    · rename_i runs
      cases step with
      | start =>
        simp only [Link.ackClientStep] at moved
        split at moved
        · cases moved
          exact threaded.acking live runs rfl rfl runs (fun held => ⟨(threaded.held held).1, rfl⟩)
            rfl rfl fun ended => by cases ended
        · cases moved
      | read =>
        simp only [Link.ackClientStep, Link.readAck] at moved
        split at moved
        · rename_i started
          split at moved
          · cases moved
          · split at moved
            · obtain ⟨packet, -, rfl⟩ := Option.map_eq_some_iff.mp moved
              exact threaded.acking live runs live rfl runs (fun _ => ⟨Nat.succ_pos _, started.1⟩) rfl rfl .inr
            · cases moved
        · cases moved
      | pop =>
        simp only [Link.ackClientStep] at moved
        split at moved
        · cases moved
          exact threaded.acking live runs rfl rfl runs (fun held => absurd rfl held) rfl rfl .inr
        · cases moved
      | stop =>
        simp only [Link.ackClientStep] at moved
        split at moved
        · rename_i ready
          cases moved
          exact threaded.acking live runs rfl rfl runs (fun held => absurd ready.2.1 held) rfl rfl
            fun _ => .inl (by simpa using ready.2.2)
        · cases moved
    · cases moved
  · cases moved

/-- Without a client there is no thread. -/
theorem Threaded.crash (threaded : Threaded link)
    (absent : ∀ client, link.channel.client ≠ .live client) (fault : Fault) :
    Threaded (link.crash fault) := by
  refine ⟨fun client live => absurd live (absent client), fun holds => ?_,
    fun client live => absurd live (absent client), (fun rest there => by cases there),
    fun tup there => by cases there⟩
  obtain ⟨-, client, live, -⟩ := threaded.held holds
  exact absurd live (absent client)

theorem threaded_next (threaded : Threaded link)
    (gone : ∀ tup, link.app.stage = .create tup → link.channel.client = .null)
    (moved : Link.next label link = some after) : Threaded after := by
  cases label with
  | call flush =>
    simp only [Link.next, Link.call] at moved
    split at moved
    · rename_i idle
      have stage : link.app.stage = .attempt := by rw [idle]; rfl
      split at moved
      · cases moved
        exact threaded.around rfl rfl rfl stage.symm
      · split at moved
        · cases moved
        · cases moved
          exact threaded.around rfl rfl rfl stage.symm
    · cases moved
  | app env =>
    simp only [Link.next, Link.appStep] at moved
    split at moved
    · cases moved
    · cases moved
    · rename_i app
      cases moved
      exact threaded_create threaded env _ (gone _ (by rw [app]; rfl))
    · rename_i app
      split at moved
      · rename_i live
        exact threaded_clientStep threaded app live moved
      · rename_i absent
        cases moved
        exact threaded.crash (by simp [absent]) _
      · rename_i absent
        cases moved
        exact threaded.crash (by simp [absent]) _
  | ack step => exact threaded_ackStep threaded moved
  | receive =>
    simp only [Link.next, Link.receive] at moved
    repeat' split at moved
    · cases moved
    · obtain ⟨packet, -, rfl⟩ := Option.map_eq_some_iff.mp moved
      exact threaded.around rfl rfl rfl rfl
    · cases moved
  | append k =>
    simp only [Link.next, Link.append] at moved
    repeat' split at moved
    · cases moved
    · obtain ⟨packet, -, rfl⟩ := Option.map_eq_some_iff.mp moved
      exact threaded.around rfl rfl rfl rfl
    · cases moved
  | acknowledge k =>
    simp only [Link.next, Link.acknowledge] at moved
    repeat' split at moved
    · cases moved
    · cases moved
      exact threaded.around rfl rfl rfl rfl
    · cases moved
  | pop =>
    simp only [Link.next, Link.pop] at moved
    obtain ⟨frame, -, rfl⟩ := Option.map_eq_some_iff.mp moved
    split <;> exact threaded.around rfl rfl rfl rfl

end

theorem Implements.created {tup : ContinueStatus} (implements : Implements lossless link log)
    (stage : link.app.stage = .create tup) : link.channel.client = .null := by
  cases implements.sending with
  | connected live settled holds =>
    rw [stage] at settled
    cases settled
  | unconnected early live holds =>
    rw [stage] at early
    cases early
  | lost early gone => exact gone
  | deleted between gone holds => exact gone
  | created between live closed holds =>
    rw [stage] at between
    cases between

theorem start_threaded : Threaded (Link.start fromParty toParty taskid serverAddress metaMap
    redisTimeoutEnv messages) := by
  refine ⟨fun client live speaks => ?_, fun holds => absurd rfl holds, fun client live _ => ?_,
    (fun rest there => by cases there), fun tup there => by cases there⟩
  all_goals cases live
  · cases speaks
  · exact ⟨rfl, rfl⟩

/-- In all runs of a link. -/
theorem threaded_reaches (few : messages.length < 2 ^ 31)
    (reached : Reaches Link.next (Link.start fromParty toParty taskid serverAddress metaMap
      redisTimeoutEnv messages) link) : Threaded link := by
  induction reached with
  | refl => exact start_threaded
  | tail path moved ih =>
    obtain ⟨label, moved⟩ := moved
    obtain ⟨log, -, implements⟩ := run_implements (start_implements few False)
      (fun _ _ _ moved => ⟨moved, False.elim⟩) path
    exact threaded_next ih (fun tup stage => implements.created stage) moved

end GaiaNet.Grpc
