import GaiaNet.Grpc.Frames
import GaiaNet.Grpc.RecvRounds

/-! Uninterrupted runs of a link are the calls of `RpcClient`: `Send`,
`set_continue_status` and `Recv`. -/

namespace GaiaNet.Grpc

open Lib.Transition Lib.Hoare

section

variable {link : Link} {client : RpcClient}

/-- A step of the application in a call that has a live client. -/
theorem next_app (app : link.app = .calling call tries stage) (between : ∀ tup, stage ≠ .create tup)
    (live : link.channel.client = .live client) (env : StepEnv) :
    Link.next (.app env) link = link.clientStep env call tries client stage := by
  simp only [Link.next, Link.appStep, app, live]

theorem run_app (app : link.app = .calling call tries stage) (between : ∀ tup, stage ≠ .create tup)
    (live : link.channel.client = .live client)
    (moved : link.clientStep env call tries client stage = some middle) (labels : List Label) :
    run Link.next (.app env :: labels) link = run Link.next labels middle := by
  have stepped := next_app app between live env
  rw [moved] at stepped
  simp [run, stepped]

theorem ackThread_none (client : RpcClient) : client.ackThread AckRun.none = client := by
  simp [RpcClient.ackThread, AckRun.none]

/-- `Send` on a connected v2 client, alone: the run leaves the same client and string. -/
theorem send_run (env : StepEnv) (sends : SendEnv)
    (app : link.app = .calling (.send message) tries .attempt)
    (live : link.channel.client = .live client)
    (second : client.useRpcVersion = ServiceVersion.v2.code)
    (opened : client.rwSender = some stream) (quiet : sends.thread = AckRun.none)
    (agree : env.ok = sends.write) (working : sends.write = true → link.failed = false) :
    ∃ ret inner count after,
      send link.channel.channelId sends ⟨client, link.content⟩ = .ok ret inner ∧
      run Link.next (List.replicate count (.app env)) link = some after ∧
      after.channel.client = .live inner.client ∧ after.content = inner.content ∧
      after.app = if ret then .idle else .calling (.send message) tries .finish := by
  have set : client.useRpcVersion ≠ ServiceVersion.notInited.code :=
    ServiceVersion.code_ne second (by simp)
  have high : client.useRpcVersion ≥ ServiceVersion.v2.code := ServiceVersion.code_ge second
  have target : client.target = some stream := by
    unfold RpcClient.target
    rw [if_pos high, opened]
  rw [send_connected _ _ _ _ set]
  simp only [quiet, ackThread_none]
  by_cases ended : client.recvThreadStatus = .finished
  · have refused : link.clientStep env (.send message) tries client .attempt =
        some (link.enter (.send message) tries .finish) := by
      simp only [Link.clientStep, Link.beginSend, if_neg set, if_pos ended]
    refine ⟨false, ⟨client, link.content⟩, 1, link.enter (.send message) tries .finish, if_pos ended,
      ?_, live, rfl, rfl⟩
    exact run_app app (by simp) live refused []
  · -- the packet is built in the first step and written in the second
    let packet := client.packet link.channel.channelId link.content
    let built := { link with content := [] }.enter (.send message) tries (.write packet)
    have begun : link.clientStep env (.send message) tries client .attempt = some built := by
      simp only [Link.clientStep, Link.beginSend, if_neg set, if_neg ended]
      rfl
    simp only [if_neg ended, target]
    cases written : sends.write with
    | false =>
      rw [written] at agree
      let broken := { built with failed := true, content := packet.body }.enter (.send message)
        tries .finish
      have refused : built.clientStep env (.send message) tries client (.write packet) =
          some broken := by
        simp [Link.clientStep, opened, agree, broken]
      refine ⟨false, ⟨client, link.content⟩, 2, broken, by simp, ?_, live, rfl, rfl⟩
      have writing : built.app = .calling (.send message) tries (.write packet) := rfl
      have last : run Link.next [.app env] built = some broken :=
        run_app writing (by simp) live refused []
      exact (run_app app (by simp) live begun [.app env]).trans last
    | true =>
      rw [written] at agree
      let current := { client with rwSender := some (stream.write packet) }
      let wrote := (built.setClient current).enter (.send message) tries (.push packet)
      have accepted : built.clientStep env (.send message) tries client (.write packet) =
          some wrote := by
        have free : built.failed = false := working written
        simp [Link.clientStep, opened, agree, Link.tryWrite, free, wrote, current]
      let returned := (wrote.setClient (current.pushNotack packet)).succeed (.send message)
      have pushed : wrote.clientStep env (.send message) tries current (.push packet) =
          some returned := rfl
      have same : client.accept stream packet = current.pushNotack packet := by
        unfold RpcClient.accept
        rw [if_pos high]
      refine ⟨true, ⟨client.accept stream packet, []⟩, 3, returned, by simp [packet], ?_, ?_, rfl, rfl⟩
      · have writing : built.app = .calling (.send message) tries (.write packet) := rfl
        have pushing : wrote.app = .calling (.send message) tries (.push packet) := rfl
        have last : run Link.next [.app env] wrote = some returned :=
          run_app pushing (by simp) rfl pushed []
        have rest : run Link.next [.app env, .app env] built = some returned :=
          (run_app writing (by simp) live accepted [.app env]).trans last
        exact (run_app app (by simp) live begun [.app env, .app env]).trans rest
      · rw [same]
        rfl

/-- The steps of `set_continue_status`: up to the first `Write` that returns false. -/
def resendLabels (env : Bool → StepEnv) (results : Nat → Bool) : Nat → List Packet → List Label
  | _, [] => [.app (env true)]
  | i, _ :: rest =>
    if results i then .app (env true) :: resendLabels env results (i + 1) rest
    else [.app (env false)]

theorem endRound_client (call : Call) (tries : Nat) (ret : Bool) (link : Link) :
    (link.endRound call tries ret).channel.client = link.channel.client ∧
      (link.endRound call tries ret).failed = link.failed := by
  unfold Link.endRound
  split
  · exact ⟨rfl, rfl⟩
  · cases call with
    | flush => exact ⟨rfl, rfl⟩
    | send message => cases ret <;> exact ⟨rfl, rfl⟩

/-- The loop over the queue, alone. -/
theorem resend_run (env : Bool → StepEnv) (answers : ∀ flag, (env flag).ok = flag)
    (results : Nat → Bool) (i : Nat) (queue : List Packet)
    (app : link.app = .calling call tries (.resend queue))
    (live : link.channel.client = .live client) (opened : client.rwSender = some stream)
    (working : link.failed = false) :
    ∃ after, run Link.next (resendLabels env results i queue) link = some after ∧
      after.channel.client =
        .live { client with rwSender := some (resend results i queue stream).2 } ∧
      after.failed = !(resend results i queue stream).1 := by
  induction queue generalizing link client stream i with
  | nil =>
    have moved : link.clientStep (env true) call tries client (.resend []) =
        some (link.endRound call tries true) := rfl
    have kept := endRound_client call tries true link
    refine ⟨_, run_app app (by simp) live moved [], ?_, kept.2.trans working⟩
    rw [kept.1, live]
    simp only [resend, ← opened]
  | cons packet rest ih =>
    cases written : results i with
    | true =>
      let current := { client with rwSender := some (stream.write packet) }
      let wrote := (link.setClient current).enter call tries (.resend rest)
      have moved : link.clientStep (env true) call tries client (.resend (packet :: rest)) =
          some wrote := by
        simp [Link.clientStep, opened, answers, Link.tryWrite, working, wrote, current]
      have going : wrote.app = .calling call tries (.resend rest) := rfl
      obtain ⟨after, ran, final, failed⟩ : ∃ after,
          run Link.next (resendLabels env results (i + 1) rest) wrote = some after ∧
          after.channel.client = .live { current with
            rwSender := some (resend results (i + 1) rest (stream.write packet)).2 } ∧
          after.failed = !(resend results (i + 1) rest (stream.write packet)).1 :=
        ih (i + 1) going rfl rfl working
      refine ⟨after, ?_, ?_, ?_⟩
      · simp only [resendLabels, written, if_true]
        exact (run_app app (by simp) live moved _).trans ran
      · simpa only [resend, written, if_true] using final
      · simpa only [resend, written, if_true] using failed
    | false =>
      let broken := { link with failed := true }
      have moved : link.clientStep (env false) call tries client (.resend (packet :: rest)) =
          some (broken.endRound call tries false) := by
        simp [Link.clientStep, opened, answers, broken]
      have kept := endRound_client call tries false broken
      refine ⟨broken.endRound call tries false, ?_, ?_, ?_⟩
      · simp only [resendLabels, written, Bool.false_eq_true, if_false]
        exact run_app app (by simp) live moved []
      · rw [kept.1]
        simp only [resend, written, Bool.false_eq_true, if_false, ← opened]
        exact live
      · rw [kept.2]
        simp [resend, written, broken]

/-- `set_continue_status`, alone: the run leaves the same client. -/
theorem restore_run (env : Bool → StepEnv) (answers : ∀ flag, (env flag).ok = flag)
    (results : Nat → Bool) (app : link.app = .calling call tries (.restore tup))
    (live : link.channel.client = .live client)
    (second : tup.useRpcVersion = ServiceVersion.v2.code) :
    ∃ after, run Link.next (.app (env true) :: resendLabels env results 0 tup.notackQueue) link =
        some after ∧
      after.channel.client = .live (client.setContinueStatus tup results).2 ∧
      after.failed = !(client.setContinueStatus tup results).1 := by
  have high : tup.useRpcVersion ≥ ServiceVersion.v2.code := ServiceVersion.code_ge second
  let opened := (link.opened (client.restored tup)).enter call tries (.resend tup.notackQueue)
  have moved : link.clientStep (env true) call tries client (.restore tup) = some opened := rfl
  have going : opened.app = .calling call tries (.resend tup.notackQueue) := rfl
  have stream : (client.restored tup).rwSender = some Stream.opened := by
    unfold RpcClient.restored RpcClient.initSender
    simp only [if_pos high]
  obtain ⟨after, ran, final, failed⟩ :=
    resend_run env answers results 0 tup.notackQueue going rfl stream rfl
  refine ⟨after, (run_app app (by simp) live moved _).trans ran, ?_, ?_⟩
  · rw [final]
    unfold RpcClient.setContinueStatus RpcClient.restored RpcClient.initSender
    simp only [if_pos high]
  · rw [failed]
    unfold RpcClient.setContinueStatus RpcClient.initSender
    simp only [if_pos high]

/-- A result with another string of the caller. -/
def withContent (other : Bytes) :
    EStateM.Result Abort ClientState Value → EStateM.Result Abort ClientState Value
  | .ok value inner => .ok value { inner with content := other }
  | .error abort inner => .error abort { inner with content := other }

theorem receiveFrame_content (frame : Bytes) (client : RpcClient) (content other : Bytes) :
    receiveFrame frame ⟨client, other⟩ =
      withContent other (receiveFrame frame ⟨client, content⟩) := by
  rw [receiveFrame_eq, receiveFrame_eq]
  generalize client.versioned frame = pair
  obtain ⟨current, body⟩ := pair
  simp only
  by_cases old : current.useRedisDataVersion ≠ .v2
  · simp only [if_pos old, withContent]
  · simp only [if_neg old]
    cases frameIndex body with
    | none => rfl
    | some idx =>
      simp only
      repeat' split
      all_goals rfl

theorem pop_frame {inner : ClientState} (arrived : link.redis[link.popped]? = some frame)
    (treated : receiveFrame frame ⟨link.receiver, content⟩ = .ok verdict inner) :
    Link.next .pop link = some { link with
      receiver := inner.client
      popped := link.popped + 1
      delivered := link.delivered ++ verdict.contents } := by
  have same := receiveFrame_content frame link.receiver content []
  rw [treated] at same
  simp only [Link.next, Link.pop, arrived, Option.map_some, same, withContent]
  cases verdict with
  | deliver body => rfl
  | control | repeated | gap => simp [Verdict.contents]

/-- `Recv` of a receiver without ack thread is so many pops of the list. -/
theorem recv_pops {inner : ClientState} (withResend : Bool) (i : Int) (polls : List Poll) (content : Bytes)
    (idle : link.receiver.recvThread = false)
    (arriving : Poll.frames polls <+: link.redis.drop link.popped)
    (ended : recvRedis withResend i polls ⟨link.receiver, content⟩ = .ok result inner) :
    ∃ count after, run Link.next (List.replicate count .pop) link = some after ∧
      after.receiver = inner.client ∧
      after.delivered = link.delivered ++ (if result.ret then [inner.content] else []) := by
  induction polls generalizing link i with
  | nil =>
    rw [recvRedis_nil] at ended
    split at ended
    · cases ended
    · cases ended
      exact ⟨0, link, rfl, rfl, by simp⟩
  | cons poll rest ih =>
    rw [recvRedis_cons] at ended
    split at ended
    · cases poll with
      | error => exact ih _ idle arriving ended
      | empty thread =>
        have same : link.receiver.ackThread thread = link.receiver := by
          simp [RpcClient.ackThread, idle]
        rw [recvBody_empty, same] at ended
        by_cases resend : link.receiver.recvThreadStatus = .finished ∧
            link.receiver.notackQueue ≠ [] ∧ withResend
        · simp only [if_pos resend] at ended
          cases ended
          exact ⟨0, link, rfl, rfl, by simp⟩
        · simp only [if_neg resend] at ended
          exact ih _ idle arriving ended
      | element frame =>
        rw [recvBody_element] at ended
        obtain ⟨tail, whole⟩ := arriving
        have arrived : link.redis[link.popped]? = some frame := by
          have first : (link.redis.drop link.popped)[0]? = link.redis[link.popped + 0]? :=
            List.getElem?_drop
          rw [← whole] at first
          simpa using first.symm
        have later : Poll.frames rest <+: link.redis.drop (link.popped + 1) := by
          rw [← List.drop_drop, ← whole]
          exact List.prefix_append _ _
        have kept := receiveFrame_ends frame link.receiver content
        cases treated : receiveFrame frame ⟨link.receiver, content⟩ with
        | error abort middle =>
          simp only [treated] at ended
          cases ended
        | ok verdict middle =>
          have moved := pop_frame arrived treated
          rw [treated] at kept ended
          -- a skipped element: the rest of the call is the rest of the run
          have skip (after : RpcClient) (heard : Heard link.receiver after) (j : Int)
              (skipped : Link.next .pop link = some { link with
                receiver := after, popped := link.popped + 1, delivered := link.delivered ++ [] })
              (rests : recvRedis withResend j rest ⟨after, content⟩ = .ok result inner) :
              ∃ count last, run Link.next (List.replicate count .pop) link = some last ∧
                last.receiver = inner.client ∧ last.delivered =
                  link.delivered ++ (if result.ret then [inner.content] else []) := by
            let next := { link with
              receiver := after, popped := link.popped + 1, delivered := link.delivered ++ [] }
            obtain ⟨count, last, ran, receiver, delivered⟩ :
                ∃ count last, run Link.next (List.replicate count .pop) next = some last ∧
                  last.receiver = inner.client ∧ last.delivered =
                    next.delivered ++ (if result.ret then [inner.content] else []) :=
              ih j (heard.recvThread.trans idle) later rests
            refine ⟨count + 1, last, ?_, receiver, by simpa [next] using delivered⟩
            rw [List.replicate_succ]
            simp only [run, skipped, Option.bind_some]
            exact ran
          cases kept with
          | delivered heard =>
            cases ended
            exact ⟨1, _, by simp only [List.replicate_one, run, moved]; rfl, rfl, rfl⟩
          | skipped heard kind =>
            cases verdict with
            | deliver body => exact absurd rfl (kind body)
            | control => exact skip _ heard _ moved ended
            | repeated => exact skip _ heard _ moved ended
            | gap =>
              cases ended
              exact ⟨1, _, by simp only [List.replicate_one, run, moved]; rfl, rfl, rfl⟩
    · cases ended
      exact ⟨0, link, rfl, rfl, by simp⟩

end

end GaiaNet.Grpc
