import GaiaNet.Grpc.LinkRecovery

/-! From which states of a link something is lost for good, and that these are all the
states that are not recoverable. -/

namespace GaiaNet.Grpc

open Lib Lib.Transition

/-- The process has crashed, has no client, is about to delete one with a running thread,
has used up the rounds of a `real_send`, or has given a message up. -/
inductive Doomed (total : Nat) (link : Link) : Prop where
  | crashed (app : link.app = .crashed fault)
  | gone (stage : link.app.stage = .attempt) (gone : link.channel.client = .null)
  | joinable (stage : link.app.stage = .giveUp) (live : link.channel.client = .live client)
    (runs : client.recvThread = true)
  | last (app : link.app = .calling (.send message) tries stage) (retries : link.retries = true)
    (spent : maxRetry ≤ tries + 1)
  | short (fewer : link.account.length < total)

section

variable {link after : Link} {client : RpcClient}

/-- What the steps outside the application leave of a client. -/
structure Remains (link after : Link) : Prop where
  app : after.app = link.app
  failed : after.failed = link.failed
  gone : link.channel.client = .null → after.channel.client = .null
  live : ∀ client, link.channel.client = .live client → ∃ new, after.channel.client = .live new ∧
    new.useRpcVersion = client.useRpcVersion ∧ new.recvThread = client.recvThread ∧
    (client.recvThreadStatus = .finished → new.recvThreadStatus = .finished)

theorem Remains.of_same (app : after.app = link.app) (failed : after.failed = link.failed)
    (channel : after.channel = link.channel) : Remains link after := by
  refine ⟨app, failed, ?_, ?_⟩
  · rw [channel]
    exact id
  · intro client live
    exact ⟨client, by rw [channel]; exact live, rfl, rfl, id⟩

theorem remains_ack (moved : link.ackStep step = some after) : Remains link after := by
  unfold Link.ackStep at moved
  split at moved
  · rename_i client live
    have only {other : RpcClient} (there : link.channel.client = .live other) : other = client := by
      rw [live] at there
      cases there
      rfl
    split at moved
    · cases step with
      | start =>
        simp only [Link.ackClientStep] at moved
        split at moved
        · rename_i early
          cases moved
          refine ⟨rfl, rfl, (fun gone => by cases live.symm.trans gone), fun other there => ?_⟩
          refine ⟨_, rfl, ?_⟩
          rw [only there]
          exact ⟨rfl, rfl, fun ended => by cases early.symm.trans ended⟩
        · cases moved
      | read =>
        simp only [Link.ackClientStep, Link.readAck] at moved
        split at moved
        · split at moved
          · cases moved
          · split at moved
            · obtain ⟨packet, -, rfl⟩ := Option.map_eq_some_iff.mp moved
              exact .of_same rfl rfl rfl
            · cases moved
        · cases moved
      | pop =>
        simp only [Link.ackClientStep] at moved
        split at moved
        · cases moved
          refine ⟨rfl, rfl, (fun gone => by cases live.symm.trans gone), fun other there => ?_⟩
          refine ⟨_, rfl, ?_⟩
          rw [only there]
          exact ⟨rfl, rfl, id⟩
        · cases moved
      | stop =>
        simp only [Link.ackClientStep] at moved
        split at moved
        · cases moved
          refine ⟨rfl, rfl, (fun gone => by cases live.symm.trans gone), fun other there => ?_⟩
          refine ⟨_, rfl, ?_⟩
          rw [only there]
          exact ⟨rfl, rfl, fun _ => rfl⟩
        · cases moved
    · cases moved
  · cases moved

/-- A stream that is to be replaced stays so. -/
theorem Remains.retries (remains : Remains link after) (retries : link.retries = true) :
    after.retries = true := by
  unfold Link.retries at retries ⊢
  rw [remains.app]
  split at retries
  · unfold Link.broken at retries ⊢
    split at retries
    · rename_i client live
      obtain ⟨new, now, version, -, ended⟩ := remains.live client live
      rw [now]
      simp only [decide_eq_true_eq] at retries ⊢
      refine ⟨version.trans retries.1, retries.2.imp ended ?_⟩
      rw [remains.failed]
      exact id
    · cases retries
  · rw [remains.failed]
    exact retries
  · cases retries
  · rfl
  · rfl

theorem Doomed.remains (doomed : Doomed total link) (remains : Remains link after)
    (account : after.account.Sublist link.account) : Doomed total after := by
  cases doomed with
  | crashed app => exact .crashed (remains.app.trans app)
  | gone stage gone => exact .gone (by rw [remains.app]; exact stage) (remains.gone gone)
  | joinable stage live runs =>
    obtain ⟨new, now, -, thread, -⟩ := remains.live _ live
    exact .joinable (by rw [remains.app]; exact stage) now (thread.trans runs)
  | last app retries spent => exact .last (remains.app.trans app) (remains.retries retries) spent
  | short fewer => exact .short (Nat.lt_of_le_of_lt account.length_le fewer)

theorem doomed_last (app : link.app = .calling (.send message) tries stage)
    (retries : link.retries = true) (spent : maxRetry ≤ tries + 1)
    (bound : link.account.length ≤ total) (live : link.channel.client = .live client)
    (kept : link.drops (.app env) = false)
    (moved : link.clientStep env (.send message) tries client stage = some after) :
    Doomed total after := by
  have place : link.app.stage = stage := by rw [app]; rfl
  have fails : (link.account).length = link.sent.length + 1 + link.pending.length := by
    unfold Link.account
    rw [app, List.length_append, List.length_append]
    rfl
  cases stage with
  | attempt =>
    rw [Link.retries, place] at retries
    unfold Link.broken at retries
    simp only [live, decide_eq_true_eq] at retries
    obtain ⟨version, dead⟩ := retries
    have spoken : client.useRpcVersion ≠ ServiceVersion.notInited.code :=
      ServiceVersion.code_ne version (by simp)
    simp only [Link.clientStep, Link.beginSend, if_neg spoken] at moved
    split at moved
    · cases moved
      exact .last rfl rfl spent
    · rename_i running
      cases moved
      exact .last rfl (dead.resolve_left running) spent
  | write packet =>
    rw [Link.retries, place] at retries
    simp only [Link.clientStep, Link.tryWrite, retries, if_true, Option.map_none] at moved
    split at moved
    · cases moved
      exact .crashed rfl
    · split at moved
      · cases moved
      · cases moved
        exact .last rfl rfl spent
  | push packet =>
    rw [Link.retries, place] at retries
    cases retries
  | finish =>
    simp only [Link.clientStep] at moved
    split at moved
    · cases moved
      exact .crashed rfl
    · cases moved
      exact .last rfl rfl spent
  | join =>
    simp only [Link.clientStep] at moved
    split at moved
    · cases moved
      exact .last rfl rfl spent
    · cases moved
    · cases moved
      exact .last rfl rfl spent
  | giveUp =>
    simp only [Link.clientStep] at moved
    split at moved
    · cases moved
      exact .crashed rfl
    · cases moved
      exact .last rfl rfl spent
  | create tup => cases moved
  | restore tup =>
    cases moved
    exact .last rfl rfl spent
  | resend rest =>
    cases rest with
    | nil =>
      have dropped : link.drops (.app env) = true := by simp [Link.drops, app, spent]
      rw [kept] at dropped
      cases dropped
    | cons packet rest =>
      simp only [Link.clientStep, Link.tryWrite] at moved
      split at moved
      · cases moved
        exact .crashed rfl
      · split at moved
        · obtain ⟨wrote, tried, rfl⟩ := Option.map_eq_some_iff.mp moved
          split at tried
          · cases tried
          · cases tried
            exact .last rfl rfl spent
        · cases moved
          refine .short ?_
          have failed : ({ link with failed := true }.endRound (.send message) tries false) =
              { link with failed := true }.fail := by
            unfold Link.endRound
            rw [if_neg (by omega)]
            rfl
          rw [failed]
          have rest : ({ link with failed := true }.fail).account = link.sent ++ [] ++ link.pending := rfl
          rw [rest]
          simp only [List.append_nil, List.length_append]
          omega

theorem doomed_app (bound : link.account.length ≤ total) (kept : link.drops (.app env) = false)
    (doomed : Doomed total link) (moved : link.appStep env = some after) :
    Doomed total after := by
  cases doomed with
  | short fewer => exact .short (Nat.lt_of_le_of_lt (account_appStep moved).length_le fewer)
  | crashed app => simp [Link.appStep, app] at moved
  | gone stage gone =>
    simp only [Link.appStep] at moved
    split at moved
    · cases moved
    · cases moved
    · rename_i app
      rw [app] at stage
      cases stage
    · rw [gone] at moved
      cases moved
      exact .crashed rfl
  | @joinable client stage live runs =>
    simp only [Link.appStep] at moved
    split at moved
    · rename_i app
      rw [app] at stage
      cases stage
    · rename_i app
      rw [app] at stage
      cases stage
    · rename_i app
      rw [app] at stage
      cases stage
    · rename_i app
      rw [app] at stage
      cases stage
      simp only [live, Link.clientStep, runs, if_true, Option.some.injEq] at moved
      subst moved
      exact .crashed rfl
  | @last message tries stage app retries spent =>
    simp only [Link.appStep, app] at moved
    split at moved
    · rename_i same
      cases same
    · rename_i same
      cases same
    · rename_i call tries tup same
      cases same
      cases moved
      unfold Link.create
      split
      · exact .last rfl rfl spent
      · refine .short ?_
        have less : link.fail.account = link.sent ++ [] ++ link.pending := rfl
        have more : link.account = link.sent ++ [message] ++ link.pending := by
          unfold Link.account
          rw [app]
          rfl
        rw [more] at bound
        rw [less]
        simp only [List.append_nil, List.length_append, List.length_singleton] at bound ⊢
        omega
    · rename_i same
      cases same
      split at moved
      · rename_i live
        exact doomed_last app retries spent bound live kept moved
      · cases moved
        exact .crashed rfl
      · cases moved
        exact .crashed rfl

/-- What is lost stays lost. -/
theorem doomed_next (bound : link.account.length ≤ total) (doomed : Doomed total link)
    (moved : Link.keeping label link = some after) : Doomed total after := by
  obtain ⟨stepped, kept⟩ := keeping_next moved
  have account := account_next stepped
  cases label with
  | app env => exact doomed_app bound kept doomed stepped
  | call flush =>
    simp only [Link.next, Link.call] at stepped
    cases doomed with
    | short fewer => exact .short (Nat.lt_of_le_of_lt account.length_le fewer)
    | crashed app => simp [app] at stepped
    | gone stage gone =>
      repeat' split at stepped
      · cases stepped
        exact .gone rfl gone
      · cases stepped
      · cases stepped
        exact .gone rfl gone
      · cases stepped
    | joinable stage live runs =>
      split at stepped
      · rename_i idle
        rw [idle] at stage
        cases stage
      · cases stepped
    | last app retries spent => simp [app] at stepped
  | ack step => exact doomed.remains (remains_ack stepped) account
  | receive =>
    refine doomed.remains ?_ account
    simp only [Link.next, Link.receive] at stepped
    repeat' split at stepped
    · cases stepped
    · obtain ⟨packet, -, rfl⟩ := Option.map_eq_some_iff.mp stepped
      exact .of_same rfl rfl rfl
    · cases stepped
  | append k =>
    refine doomed.remains ?_ account
    simp only [Link.next, Link.append] at stepped
    repeat' split at stepped
    · cases stepped
    · obtain ⟨packet, -, rfl⟩ := Option.map_eq_some_iff.mp stepped
      exact .of_same rfl rfl rfl
    · cases stepped
  | acknowledge k =>
    refine doomed.remains ?_ account
    simp only [Link.next, Link.acknowledge] at stepped
    repeat' split at stepped
    · cases stepped
    · cases stepped
      exact .of_same rfl rfl rfl
    · cases stepped
  | pop =>
    refine doomed.remains ?_ account
    simp only [Link.next, Link.pop] at stepped
    obtain ⟨frame, -, rfl⟩ := Option.map_eq_some_iff.mp stepped
    split <;> exact .of_same rfl rfl rfl

/-- A state is recoverable, or something is lost in it. -/
theorem Implements.recoverable_of_not_doomed (implements : Implements True link log)
    (safe : ¬ Doomed link.account.length link) : link.Recoverable where
  running fault app := safe (.crashed app)
  live := by
    cases implements.sending with
    | connected live settled holds => exact .inr ⟨_, live⟩
    | unconnected early live holds => exact .inr ⟨_, live⟩
    | lost early gone => exact absurd (.gone early gone) safe
    | deleted stage gone holds => exact .inl ⟨_, stage⟩
    | created stage live closed holds => exact .inr ⟨_, live⟩
  joined stage client live := by
    cases runs : client.recvThread with
    | false => rfl
    | true => exact absurd (.joinable stage live runs) safe
  rounds message tries stage app retries :=
    Nat.lt_of_not_le fun spent => safe (.last app retries spent)

/-- Nothing is lost in a settled state whose messages are all sent. -/
theorem Link.Settled.not_doomed (settled : link.Settled) (whole : link.sent.length = total) :
    ¬ Doomed total link := by
  obtain ⟨client, live, -⟩ := settled.acknowledged
  have place : link.app.stage = .attempt := by rw [settled.idle]; rfl
  rintro (app | ⟨stage, gone⟩ | ⟨stage, there, runs⟩ | ⟨app, retries, spent⟩ | fewer)
  · cases settled.idle.symm.trans app
  · cases live.symm.trans gone
  · cases place.symm.trans stage
  · cases settled.idle.symm.trans app
  · have all : link.account = link.sent ++ [] ++ [] := by
      unfold Link.account
      rw [settled.idle, settled.sent]
      rfl
    rw [all, List.append_nil, List.append_nil] at fewer
    omega

end

/-- In every state of every run in which no `real_send` has dropped its message, whatever has
failed before: all messages can still be sent, acknowledged and delivered, once and in order,
exactly if the process runs and has a client, no client with a running ack thread is about to
be deleted, and a `real_send` that has to reconnect is not in its last round. -/
theorem link_recovers_iff (fromParty toParty : UInt32) (taskid serverAddress : String)
    (metaMap : List (String × String)) (redisTimeoutEnv : Option Int) (messages : List Bytes)
    (link : Link) (few : messages.length < 2 ^ 31)
    (reached : Reaches Link.keeping (Link.start fromParty toParty taskid serverAddress metaMap
      redisTimeoutEnv messages) link) :
    (∃ final, Reaches Link.keeping link final ∧ final.Settled ∧ final.sent = link.account ∧
      final.delivered = link.account) ↔ link.Recoverable := by
  constructor
  · rintro ⟨final, path, settled, sent, -⟩
    obtain ⟨log, -, implements⟩ := run_implements (start_implements few True)
      (fun _ _ _ moved => ⟨(keeping_next moved).1, fun _ => (keeping_next moved).2⟩) reached
    refine implements.recoverable_of_not_doomed fun doomed => ?_
    have kept := path.invariant
      (fun state => state.account.length ≤ link.account.length ∧
        Doomed link.account.length state) ⟨Nat.le_refl _, doomed⟩ ?_
    · exact settled.not_doomed (by rw [sent]) kept.2
    · rintro label before after ⟨bound, doomed⟩ moved
      have fewer := (account_next (keeping_next moved).1).length_le
      exact ⟨Nat.le_trans fewer bound, doomed_next bound doomed moved⟩
  · exact recoverable_settles few reached

/-- The first message is at the server, none is in Redis, and the second `Write` fails. -/
def brokenRun : List Label :=
  [.call false, .app .works, .ack .start, .app .works, .app .works, .app .works, .receive,
    .call false, .app .works, .app .breaks]

/-- Every `Write` of a `real_send` is refused; it is in its last round. -/
def lastRoundRun : List Label :=
  [.call false, .app .works] ++ (List.replicate (maxRetry - 1) refusedRound).flatten ++
    [.app .works, .app .breaks]

/-- After a refused `Write` both messages can still be delivered; in the last round one is lost. -/
theorem link_recovers_broken :
    (∃ link final, run Link.keeping brokenRun Link.twoMessages = some link ∧
      Reaches Link.keeping link final ∧ final.Settled ∧ final.delivered = [[7], [8]]) ∧
    ∃ link, run Link.keeping lastRoundRun Link.twoMessages = some link ∧
      ¬ ∃ final, Reaches Link.keeping link final ∧ final.Settled ∧ final.sent = link.account ∧
        final.delivered = link.account := by
  refine ⟨?_, ?_⟩
  · have ran : (run Link.keeping brokenRun Link.twoMessages).map (fun link =>
        (link.account, link.app, link.broken)) =
        some ([[7], [8]], .calling (.send [8]) 0 .finish, true) := by
      decide +kernel
    obtain ⟨link, finished, seen⟩ := Option.map_eq_some_iff.mp ran
    simp only [Prod.mk.injEq] at seen
    obtain ⟨account, app, broken⟩ := seen
    have recoverable : link.Recoverable := by
      refine ⟨?_, ?_, ?_, ?_⟩
      · intro fault crashed
        cases app.symm.trans crashed
      · unfold Link.broken at broken
        split at broken
        · rename_i client live
          exact .inr ⟨client, live⟩
        · cases broken
      · intro giveUp
        rw [app] at giveUp
        cases giveUp
      · intro message round stage same _
        rw [app] at same
        cases same
        decide
    obtain ⟨final, path, settled, -, delivered⟩ := (link_recovers_iff 1 2 "task" "server" [] none
      [[7], [8]] link (by decide) (Reaches.ofRun _ finished)).mpr recoverable
    exact ⟨link, final, finished, path, settled, delivered.trans account⟩
  · have ran : (run Link.keeping lastRoundRun Link.twoMessages).map Link.app =
        some (.calling (.send [7]) (maxRetry - 1) .finish) := by
      decide +kernel
    obtain ⟨link, finished, app⟩ := Option.map_eq_some_iff.mp ran
    refine ⟨link, finished, fun recovers => ?_⟩
    have recoverable := (link_recovers_iff 1 2 "task" "server" [] none [[7], [8]] link (by decide)
      (Reaches.ofRun _ finished)).mp recovers
    have room := recoverable.rounds _ _ _ app (by rw [Link.retries, app]; rfl)
    exact absurd room (by decide)

end GaiaNet.Grpc
