import GaiaNet.Grpc.LinkSteps

/-! The steps of `real_send` and `flush` on a link, as steps of its replay log. -/

namespace GaiaNet.Grpc

open Lib Lib.Transition

theorem resting {app : App} (rest : ∀ call tries stage, app ≠ .calling call tries stage) :
    app.stage = .attempt ∧ app.unsent = 0 := by
  cases app with
  | idle => exact ⟨rfl, rfl⟩
  | crashed fault => exact ⟨rfl, rfl⟩
  | calling call tries stage => exact absurd rfl (rest call tries stage)

/-- A step inside a call that pushes no packet; it may open a stream. -/
theorem Implements.within {next : PacketLog} (implements : Implements lossless link log)
    (items : next.items = log.items) (entries : next.log = log.log)
    (app : link.app = .calling call tries stage) (calm : stage.pushing = [])
    (moved : after.app = .calling call turn stop) (quiet : stop.pushing = [])
    (outside : after.outside = link.outside) (sent : after.sent = link.sent)
    (serves : Serves log.items after.handlers next.spans)
    (holds : stop.Holds call after.content log.items.length) (sending : Sending after next) :
    Implements lossless after next := by
  refine implements.moved items entries outside ?_ ?_ serves ?_ sending
  · unfold Link.promised
    rw [app, moved, sent]
    simp only [App.stage, calm, quiet]
  · rw [app, moved]
    simp only [App.unsent, calm, quiet, Nat.le_refl]
  · intro other turn place there
    rw [moved] at there
    cases there
    exact holds

/-- The end of a call, or of the process, at a stage that pushes no packet. -/
theorem Implements.ends (implements : Implements lossless link log)
    (calm : link.app.stage.pushing = [])
    (rest : ∀ call tries stage, after.app ≠ .calling call tries stage)
    (outside : after.outside = link.outside) (sent : after.sent = link.sent)
    (handlers : after.handlers = link.handlers) (sending : Sending after log) :
    Implements lossless after log := by
  obtain ⟨stage, unsent⟩ := resting rest
  refine implements.moved rfl rfl outside ?_ (by rw [unsent]; exact Nat.zero_le _)
    (by rw [handlers]; exact implements.serves) ?_ sending
  · unfold Link.promised
    rw [stage, sent, calm]
    rfl
  · intro call tries place there
    exact absurd there (rest call tries place)

/-- At the head of the loop a client is connected or before its first `Send`. -/
theorem Sending.attempt (sending : Sending link log) (stage : link.app.stage = .attempt)
    (live : link.channel.client = .live client) :
    Connected link log .attempt client ∨ Unconnected log client := by
  cases sending with
  | @connected other there settled holds =>
    rw [live] at there
    cases there
    rw [stage] at holds
    exact Or.inl holds
  | @unconnected other early there holds =>
    rw [live] at there
    cases there
    exact Or.inr holds
  | lost early gone =>
    rw [live] at gone
    cases gone
  | deleted between gone holds =>
    rw [stage] at between
    cases between
  | created between there closed holds =>
    rw [stage] at between
    cases between

/-- Inside a round the client is connected, but while it is being replaced. -/
theorem Sending.inside (sending : Sending link log) (stage : link.app.stage = stop)
    (settled : stop.between = false) (late : stop ≠ .attempt)
    (live : link.channel.client = .live client) : Connected link log stop client := by
  cases sending with
  | @connected other there between holds =>
    rw [live] at there
    cases there
    rw [stage] at holds
    exact holds
  | unconnected early there holds => exact absurd (stage.symm.trans early) late
  | lost early gone => exact absurd (stage.symm.trans early) late
  | deleted between gone holds =>
    rw [← stage, between] at settled
    cases settled
  | created between there closed holds =>
    rw [← stage, between] at settled
    cases settled

theorem Connected.opened {after : Link} {log : PacketLog} {new : RpcClient}
    (version : new.useRpcVersion = ServiceVersion.v2.code)
    (seq : new.seq = log.items.length) (queue : new.notackQueue = log.items.drop log.acked)
    (stream : new.rwSender = some Stream.opened) (calm : stage.pushing = [])
    (remaining : stage.remaining = log.items.drop log.acked)
    (wire : after.wire = (false, none, 0, Handler.opened :: handlers)) :
    Connected after { log with spans := ⟨log.acked, 0⟩ :: log.spans } stage new := by
  simp only [Link.wire, Prod.mk.injEq] at wire
  obtain ⟨failed, heldAck, acksRead, same⟩ := wire
  refine ⟨version, ?_, ?_, Stream.opened, _, _, _, _, stream, same, rfl, ?_⟩
  · rw [seq, calm]
    simp
  · rw [queue, calm, List.append_nil]
  · refine ⟨List.nil_prefix, List.nil_prefix, fun _ => ?_, ?_, ?_⟩
    · rw [remaining]
      rfl
    · rw [heldAck, acksRead]
      rfl
    · rw [acksRead]
      exact Nat.le_refl 0

theorem fail_follows (implements : Implements lossless link log)
    (app : link.app = .calling call tries .attempt) : Follows lossless log link.fail := by
  have early : link.app.stage = .attempt := by rw [app]; rfl
  apply Implements.follows
  refine implements.ends (by rw [early]; rfl) (by intro _ _ _ same; cases same) rfl rfl rfl ?_
  exact implements.sending.same early.symm rfl rfl

/-- A connected client goes on to `finish`. -/
theorem toFinish_follows (implements : Implements lossless link log)
    (app : link.app = .calling call tries .attempt) (live : link.channel.client = .live client)
    (connected : Connected link log .attempt client) :
    Follows lossless log (link.enter call tries .finish) := by
  have held : ∀ message, call = .send message → link.content = message :=
    implements.messages _ _ _ app
  apply Implements.follows
  exact implements.within rfl rfl app rfl rfl rfl rfl rfl implements.serves held
    (.connected live rfl (connected.at rfl rfl fun _ => rfl))

theorem poll_follows (implements : Implements lossless link log)
    (app : link.app = .calling .flush tries .attempt) (live : link.channel.client = .live client) :
    Follows lossless log (link.poll env .flush tries client) := by
  have early : link.app.stage = .attempt := by rw [app]; rfl
  unfold Link.poll
  split
  · apply Implements.follows
    refine implements.ends (by rw [early]; rfl) (by intro _ _ _ same; cases same) rfl rfl rfl ?_
    exact implements.sending.same early.symm rfl rfl
  · rename_i full
    rcases implements.sending.attempt early live with connected | unconnected
    · split
      · exact toFinish_follows implements app live connected
      · split
        · exact toFinish_follows implements app live connected
        · split
          · exact fail_follows implements app
          · exact implements.follows
    · exact absurd unconnected.queue full

theorem negotiate_follows (implements : Implements lossless link log)
    (app : link.app = .calling call tries .attempt) (unconnected : Unconnected log client)
    (moved : link.negotiate env client = some after) : Follows lossless log after := by
  unfold Link.negotiate at moved
  cases found : client.connect env.versions with
  | none =>
    rw [found] at moved
    cases moved
    exact fail_follows implements app
  | some current =>
    simp only [found] at moved
    split at moved
    · rename_i second
      cases moved
      have opened : current.rwSender = some Stream.opened := by
        unfold RpcClient.connect at found
        split at found
        · cases found
        · split at found
          · cases found
          · cases found
            unfold RpcClient.initSender at second ⊢
            split
            · rfl
            · rename_i version _ _ low
              rw [if_neg low] at second
              exact absurd (ServiceVersion.code_ge second) low
      obtain ⟨seq, queue, -⟩ := RpcClient.connect_some found
      have step : Replay.next .openStream log =
          some { log with spans := ⟨log.acked, 0⟩ :: log.spans } := rfl
      have items := unconnected.items
      have empty : log.items.drop log.acked = [] := by rw [items, List.drop_nil]
      have early : (link.opened current).app.stage = .attempt := by
        show link.app.stage = .attempt
        rw [app]
        rfl
      refine ⟨_, Or.inr ⟨_, step⟩, ?_⟩
      refine implements.within rfl rfl app rfl app rfl rfl rfl
        (implements.serves.openStream log.acked) (implements.messages _ _ _ app) ?_
      refine .connected rfl (by rw [early]; rfl) ?_
      rw [early]
      refine Connected.opened second ?_ ?_ opened rfl empty.symm rfl
      · rw [seq, unconnected.seq, items]
        rfl
      · rw [queue, unconnected.queue, empty]
    · cases moved

/-- The packet is built with the number of the next item and the caller's bytes. -/
theorem beginSend_follows (implements : Implements lossless link log)
    (app : link.app = .calling call tries .attempt) (sends : call = .send message)
    (live : link.channel.client = .live client)
    (moved : link.beginSend env call tries client = some after) : Follows lossless log after := by
  have early : link.app.stage = .attempt := by rw [app]; rfl
  unfold Link.beginSend at moved
  split at moved
  · rename_i fresh
    rcases implements.sending.attempt early live with connected | unconnected
    · rw [connected.version] at fresh
      cases fresh
    · exact negotiate_follows implements app unconnected moved
  · rename_i set
    rcases implements.sending.attempt early live with connected | unconnected
    · split at moved
      · cases moved
        exact toFinish_follows implements app live connected
      · cases moved
        have held : ∀ message, call = .send message → link.content = message :=
          implements.messages _ _ _ app
        have high : client.useRpcVersion ≥ ServiceVersion.v2.code := ServiceVersion.code_ge connected.version
        have numbered : client.seq = log.items.length := by
          have seq := connected.seq
          simpa [Stage.pushing] using seq
        apply Implements.follows
        refine implements.within rfl rfl app rfl rfl rfl rfl rfl implements.serves ⟨?_, ?_⟩
          (.connected live rfl (connected.at rfl rfl fun _ => rfl))
        · rw [sends, ← held message sends]
          rfl
        · unfold RpcClient.packet
          simp only [if_pos high]
          exact numbered
    · exact absurd unconnected.version set

theorem attempt_follows (implements : Implements lossless link log)
    (app : link.app = .calling call tries .attempt) (live : link.channel.client = .live client)
    (moved : link.clientStep env call tries client .attempt = some after) :
    Follows lossless log after := by
  cases call with
  | send message => exact beginSend_follows implements app rfl live moved
  | flush =>
    cases moved
    exact poll_follows implements app live

/-- A stage after the head of the loop in which the client is used. -/
structure Inside (link : Link) (log : PacketLog) (call : Call) (tries : Nat) (stage : Stage)
    (client : RpcClient) : Prop where
  app : link.app = .calling call tries stage
  live : link.channel.client = .live client
  connected : Connected link log stage client

/-- A packet goes onto the stream as a new item. -/
theorem Connected.accept {link : Link} {packet : Packet}
    (connected : Connected link log (.write packet) client) (sound : Replay.Sound log)
    (working : link.failed = false) (opened : client.rwSender = some stream) :
    Connected ((link.setClient { client with rwSender := some (stream.write packet) }).enter
        call tries (.push packet))
      { log with items := log.items ++ [packet] } (.push packet)
      { client with rwSender := some (stream.write packet) } := by
  obtain ⟨other, handler, handlers, span, spans, there, held, here, streaming⟩ := connected.streams
  rw [opened] at there
  cases there
  have seq := connected.seq
  have queue := connected.queue
  simp only [Stage.pushing, List.length_nil, List.append_nil] at seq queue
  have acked : log.acked ≤ log.items.length := Nat.le_trans sound.acked sound.items
  have first : span.first ≤ log.items.length := by
    have within := sound.spans span (by simp [here])
    have items := sound.items
    omega
  have longer : log.items.drop span.first ++ [packet] = (log.items ++ [packet]).drop span.first := by
    rw [List.drop_append_of_le_length first]
  have all : stream.written = log.items.drop span.first := by
    have whole := streaming.whole working
    rwa [show (Stage.write packet).remaining = [] from rfl, List.append_nil] at whole
  have now : stream.written ++ [packet] = (log.items ++ [packet]).drop span.first := by
    rw [all, longer]
  refine ⟨connected.version, ?_, ?_, _, handler, handlers, span, spans, rfl, held, here, ?_, ?_, ?_,
    streaming.read, streaming.acked⟩
  · simp only [Stage.pushing, List.length_append, List.length_singleton]
    omega
  · show client.notackQueue ++ [packet] = _
    rw [queue, List.drop_append_of_le_length acked]
  · exact streaming.received.trans (List.prefix_append _ _)
  · exact ⟨[], by rw [List.append_nil]; exact now⟩
  · intro _
    show (stream.written ++ [packet]) ++ [] = _
    rw [List.append_nil]
    exact now

theorem write_follows (implements : Implements lossless link log) (sound : Replay.Sound log)
    (inside : Inside link log call tries (.write packet) client)
    (moved : link.clientStep env call tries client (.write packet) = some after) :
    Follows lossless log after := by
  obtain ⟨app, live, connected⟩ := inside
  obtain ⟨sends, numbered⟩ : call = .send packet.body ∧ packet.header.seq = log.items.length :=
    implements.messages _ _ _ app
  obtain ⟨stream, handler, handlers, span, spans, opened, held, here, streaming⟩ :=
    connected.streams
  unfold Link.clientStep at moved
  simp only [opened] at moved
  split at moved
  · -- the packet is on the stream: the log accepts it
    rw [Option.map_eq_some_iff] at moved
    obtain ⟨written, wrote, rfl⟩ := moved
    unfold Link.tryWrite at wrote
    split at wrote
    · cases wrote
    · rename_i working
      cases wrote
      subst sends
      have step : Replay.next (.accept packet) log =
          some { log with items := log.items ++ [packet] } := rfl
      have stage : link.app.stage = .write packet := by rw [app]; rfl
      have bounded := implements.bounded
      have kept := implements.kept
      have whole := implements.whole
      unfold Link.promised at kept whole
      rw [stage] at kept whole
      simp only [Stage.pushing, List.map_nil, List.append_nil] at kept whole
      rw [app] at bounded
      refine ⟨_, Or.inr ⟨_, step⟩, implements.numbered.snoc numbered, ?_,
        implements.serves.grow [packet], implements.listed.accept packet,
        implements.reads.accept sound packet, .connected rfl rfl ?_, ?_, ?_, ?_⟩
      · simp only [List.length_append, List.length_singleton]
        simp only [App.unsent, Call.messages, Stage.pushing, List.length_nil] at bounded
        show log.items.length + 1 + 0 + link.pending.length < _
        omega
      · exact connected.accept sound (by simpa using working) opened
      · intro call turn place there
        cases there
        rfl
      · show List.Sublist _ (link.sent ++ [packet.body])
        rw [List.map_append]
        exact kept.append (List.Sublist.refl _)
      · intro lossless
        show _ = link.sent ++ [packet.body]
        rw [List.map_append, whole lossless]
        rfl
  · cases moved
    apply Implements.follows
    refine implements.within rfl rfl app rfl rfl rfl rfl rfl implements.serves ?_
      (.connected live rfl (connected.failed rfl rfl))
    intro message same
    rw [sends] at same
    cases same
    rfl

/-- The queue takes the packet and `real_send` returns. -/
theorem push_follows (implements : Implements lossless link log)
    (inside : Inside link log call tries (.push packet) client) :
    Follows lossless log ((link.setClient (client.pushNotack packet)).succeed call) := by
  obtain ⟨app, live, connected⟩ := inside
  have sends : call = .send packet.body := implements.messages _ _ _ app
  subst sends
  obtain ⟨stream, handler, handlers, span, spans, opened, held, here, streaming⟩ :=
    connected.streams
  have seq := connected.seq
  have queue := connected.queue
  have bounded := implements.bounded
  simp only [Stage.pushing, List.length_singleton] at seq queue
  have counted : addInt client.seq 1 = log.items.length := by
    have before : client.seq = (log.items.length : Int) - 1 := by omega
    rw [before]
    exact addInt_one (by omega)
  apply Implements.follows
  refine implements.moved rfl rfl rfl ?_ (Nat.zero_le _) implements.serves
    (by intro _ _ _ same; cases same) ?_
  · unfold Link.promised
    rw [app]
    simp [Link.succeed, Link.setClient, App.stage, Stage.pushing]
  · refine .connected rfl rfl ⟨connected.version, ?_, ?_, stream, handler, handlers, span, spans,
      opened, held, here, streaming.same rfl rfl fun _ => rfl⟩
    · show addInt client.seq 1 + 0 = _
      rw [Int.add_zero]
      exact counted
    · show (client.notackQueue ++ [packet]) ++ [] = _
      rw [List.append_nil]
      exact queue

theorem finish_follows (implements : Implements lossless link log)
    (inside : Inside link log call tries .finish client)
    (moved : link.clientStep env call tries client .finish = some after) :
    Follows lossless log after := by
  obtain ⟨app, live, connected⟩ := inside
  have content : ∀ message, call = .send message → link.content = message :=
    implements.messages _ _ _ app
  obtain ⟨stream, handler, handlers, span, spans, opened, held, here, streaming⟩ :=
    connected.streams
  unfold Link.clientStep at moved
  simp only [opened, Option.some.injEq] at moved
  subst moved
  apply Implements.follows
  refine implements.within rfl rfl app rfl rfl rfl rfl rfl implements.serves content
    (.connected rfl rfl (connected.same rfl rfl (fun _ => rfl) rfl rfl rfl ?_))
  intro other same
  rw [opened] at same
  cases same
  exact ⟨stream.finish, rfl, rfl⟩

theorem join_follows (implements : Implements lossless link log)
    (inside : Inside link log call tries .join client)
    (moved : link.clientStep env call tries client .join = some after) :
    Follows lossless log after := by
  obtain ⟨app, live, connected⟩ := inside
  have content : ∀ message, call = .send message → link.content = message :=
    implements.messages _ _ _ app
  unfold Link.clientStep at moved
  cases status : client.recvThreadStatus with
  | notInited =>
    simp only [status, Option.some.injEq] at moved
    subst moved
    apply Implements.follows
    exact implements.within rfl rfl app rfl rfl rfl rfl rfl implements.serves content
      (.connected live rfl (connected.at rfl rfl fun _ => rfl))
  | started => simp [status] at moved
  | finished =>
    simp only [status, Option.some.injEq] at moved
    subst moved
    apply Implements.follows
    exact implements.within rfl rfl app rfl rfl rfl rfl rfl implements.serves content
      (.connected rfl rfl (connected.same rfl rfl (fun _ => rfl) rfl rfl rfl fun stream opened =>
        ⟨stream, opened, rfl⟩))

theorem giveUp_follows (implements : Implements lossless link log)
    (inside : Inside link log call tries .giveUp client)
    (moved : link.clientStep env call tries client .giveUp = some after) :
    Follows lossless log after := by
  obtain ⟨app, live, connected⟩ := inside
  have content : ∀ message, call = .send message → link.content = message :=
    implements.messages _ _ _ app
  have stage : link.app.stage = .giveUp := by rw [app]; rfl
  simp only [Link.clientStep] at moved
  split at moved
  · cases moved
    apply Implements.follows
    refine implements.ends (by rw [stage]; rfl) (by intro _ _ _ same; cases same) rfl rfl rfl ?_
    exact .connected live rfl (connected.at rfl rfl fun _ => rfl)
  · cases moved
    have high : client.useRpcVersion ≥ ServiceVersion.v2.code := ServiceVersion.code_ge connected.version
    have seq := connected.seq
    have queue := connected.queue
    simp only [Stage.pushing, List.length_nil, List.append_nil] at seq queue
    have carries : Carries log client.getContinueStatus.1 := by
      unfold RpcClient.getContinueStatus
      rw [if_pos high]
      exact ⟨connected.version, by simpa using seq, queue⟩
    apply Implements.follows
    exact implements.within rfl rfl app rfl rfl rfl rfl rfl implements.serves content
      (.deleted rfl rfl carries)

theorem create_follows (implements : Implements lossless link log)
    (app : link.app = .calling call tries (.create tup)) :
    Follows lossless log (link.create env call tries tup) := by
  have content : ∀ message, call = .send message → link.content = message :=
    implements.messages _ _ _ app
  have stage : link.app.stage = .create tup := by rw [app]; rfl
  obtain ⟨gone, carries⟩ : link.channel.client = .null ∧ Carries log tup := by
    cases implements.sending with
    | connected live settled holds =>
      rw [stage] at settled
      cases settled
    | unconnected early live holds =>
      rw [stage] at early
      cases early
    | lost early gone =>
      rw [stage] at early
      cases early
    | deleted between gone holds =>
      rw [stage] at between
      cases between
      exact ⟨gone, holds⟩
    | created between live closed holds =>
      rw [stage] at between
      cases between
  unfold Link.create
  split
  · apply Implements.follows
    exact implements.within rfl rfl app rfl rfl rfl rfl rfl implements.serves content
      (.created rfl rfl ⟨rfl, rfl⟩ carries)
  · apply Implements.follows
    exact implements.ends (by rw [stage]; rfl) (by intro _ _ _ same; cases same) rfl rfl rfl
      (.lost rfl gone)

/-- The new client opens its stream at the oldest packet that is not acknowledged. -/
theorem restore_follows (implements : Implements lossless link log)
    (app : link.app = .calling call tries (.restore tup)) (client : RpcClient) :
    Follows lossless log
      ((link.opened (client.restored tup)).enter call tries (.resend tup.notackQueue)) := by
  have content : ∀ message, call = .send message → link.content = message :=
    implements.messages _ _ _ app
  have stage : link.app.stage = .restore tup := by rw [app]; rfl
  have carries : Carries log tup := by
    cases implements.sending with
    | connected live settled holds =>
      rw [stage] at settled
      cases settled
    | unconnected early live holds =>
      rw [stage] at early
      cases early
    | lost early gone =>
      rw [stage] at early
      cases early
    | deleted between gone holds =>
      rw [stage] at between
      cases between
    | created between live closed holds =>
      rw [stage] at between
      cases between
      exact holds
  have high : tup.useRpcVersion ≥ ServiceVersion.v2.code := ServiceVersion.code_ge carries.version
  have step : Replay.next .openStream log =
      some { log with spans := ⟨log.acked, 0⟩ :: log.spans } := rfl
  refine ⟨_, Or.inr ⟨_, step⟩, ?_⟩
  refine implements.within rfl rfl app rfl rfl rfl rfl rfl
    (implements.serves.openStream log.acked) content (.connected rfl rfl ?_)
  have restored : client.restored tup = { client with
      useRpcVersion := tup.useRpcVersion
      useRedisDataVersion := tup.useRedisDataVersion
      notackQueue := tup.notackQueue
      seq := tup.seq
      recvIdx := tup.recvIdx
      rwSender := some Stream.opened
      recvThread := true } := by
    unfold RpcClient.restored RpcClient.initSender
    exact if_pos high
  rw [restored]
  exact Connected.opened carries.version carries.seq carries.queue rfl rfl carries.queue rfl

/-- Whether the next step of the application returns from a `real_send` whose 120 calls of
`Send` were all refused, because the last `set_continue_status` returned true. -/
def Link.drops (label : Label) (link : Link) : Bool :=
  match label, link.app with
  | .app _, .calling (.send _) tries (.resend []) => decide (maxRetry ≤ tries + 1)
  | _, _ => false

/-- The end of a round at a stage where nothing is left to write, or a `Write` has failed. -/
theorem endRound_implements {link : Link} (implements : Implements lossless link log)
    (inside : Inside link log call tries stage client) (calm : stage.pushing = [])
    (settled : link.failed = false → stage.remaining = [])
    (content : ∀ message, call = .send message → link.content = message)
    (keeps : lossless → ∀ message, call = .send message → ret = true → tries + 1 < maxRetry) :
    Implements lossless (link.endRound call tries ret) log := by
  obtain ⟨app, live, connected⟩ := inside
  have place : link.app.stage = stage := by rw [app]; rfl
  have attempting {after : Link} (wire : after.wire = link.wire) :
      Connected after log .attempt client :=
    connected.at wire calm.symm fun working => (settled working).symm
  unfold Link.endRound
  split
  · exact implements.within rfl rfl app calm rfl rfl rfl rfl implements.serves content
      (.connected live rfl (attempting rfl))
  · rename_i last
    cases call with
    | flush =>
      exact implements.ends (by rw [place, calm]) (by intro _ _ _ same; cases same) rfl rfl rfl
        (.connected live rfl (attempting rfl))
    | send message =>
      cases ret with
      | false =>
        exact implements.ends (by rw [place, calm]) (by intro _ _ _ same; cases same) rfl rfl rfl
          (.connected live rfl (attempting rfl))
      | true =>
        -- the message is dropped: it is promised and no item of the log
        have kept := implements.kept
        have bounded := implements.bounded
        unfold Link.promised at kept
        rw [place, calm] at kept
        simp only [List.map_nil, List.append_nil] at kept
        refine ⟨implements.numbered, ?_, implements.serves, implements.listed, implements.reads,
          .connected live rfl (attempting rfl), (by intro _ _ _ same; cases same), ?_, ?_⟩
        · show log.items.length + 0 + link.pending.length < _
          omega
        · show List.Sublist _ ((link.sent ++ [message]) ++ [])
          rw [List.append_nil]
          exact kept.trans (List.sublist_append_left _ _)
        · intro lossless
          exact absurd (keeps lossless message rfl rfl) last

/-- A packet of the queue goes onto the new stream. -/
theorem Connected.resent {link : Link} {packet : Packet} {rest : List Packet}
    (connected : Connected link log (.resend (packet :: rest)) client)
    (working : link.failed = false) (opened : client.rwSender = some stream) :
    Connected ((link.setClient { client with rwSender := some (stream.write packet) }).enter
        call tries (.resend rest)) log (.resend rest)
      { client with rwSender := some (stream.write packet) } := by
  obtain ⟨other, handler, handlers, span, spans, there, held, here, streaming⟩ := connected.streams
  rw [opened] at there
  cases there
  have whole : stream.written ++ packet :: rest = log.items.drop span.first :=
    streaming.whole working
  have now : (stream.written ++ [packet]) ++ rest = log.items.drop span.first := by
    rw [List.append_assoc]
    exact whole
  refine ⟨connected.version, connected.seq, connected.queue, _, handler, handlers, span, spans, rfl,
    held, here, streaming.received.trans (List.prefix_append _ _), ⟨rest, now⟩, fun _ => now,
    streaming.read, streaming.acked⟩

theorem resend_follows (implements : Implements lossless link log)
    (inside : Inside link log call tries (.resend rest) client)
    (keeps : lossless → link.drops (.app env) = false)
    (moved : link.clientStep env call tries client (.resend rest) = some after) :
    Follows lossless log after := by
  have app := inside.app
  have content : ∀ message, call = .send message → link.content = message :=
    implements.messages _ _ _ app
  cases rest with
  | nil =>
    cases moved
    apply Implements.follows
    refine endRound_implements implements inside rfl (fun _ => rfl) content ?_
    intro safe message sends _
    have kept := keeps safe
    unfold Link.drops at kept
    rw [app, sends] at kept
    simpa using kept
  | cons packet rest =>
    obtain ⟨stream, handler, handlers, span, spans, opened, held, here, streaming⟩ :=
      inside.connected.streams
    simp only [Link.clientStep, opened] at moved
    split at moved
    · rw [Option.map_eq_some_iff] at moved
      obtain ⟨written, wrote, rfl⟩ := moved
      unfold Link.tryWrite at wrote
      split at wrote
      · cases wrote
      · rename_i working
        cases wrote
        apply Implements.follows
        exact implements.within rfl rfl app rfl rfl rfl rfl rfl implements.serves content
          (.connected rfl rfl (inside.connected.resent (by simpa using working) opened))
    · cases moved
      have broken : Implements lossless { link with failed := true } log := by
        refine implements.around rfl rfl rfl rfl rfl (.connected inside.live ?_ ?_)
        · show link.app.stage.between = false
          rw [app]
          rfl
        · show Connected { link with failed := true } log link.app.stage client
          rw [app]
          exact inside.connected.failed rfl rfl
      apply Implements.follows
      exact endRound_implements broken
        ⟨app, inside.live, inside.connected.failed rfl rfl⟩ rfl (fun working => by cases working)
        content (fun _ _ _ same => by cases same)

theorem clientStep_follows (implements : Implements lossless link log) (sound : Replay.Sound log)
    (app : link.app = .calling call tries stage) (between : ∀ tup, stage ≠ .create tup)
    (live : link.channel.client = .live client) (keeps : lossless → link.drops (.app env) = false)
    (moved : link.clientStep env call tries client stage = some after) :
    Follows lossless log after := by
  have place : link.app.stage = stage := by rw [app]; rfl
  have inside (settled : stage.between = false) (late : stage ≠ .attempt) :
      Inside link log call tries stage client :=
    ⟨app, live, implements.sending.inside place settled late live⟩
  cases stage with
  | attempt => exact attempt_follows implements app live moved
  | write packet => exact write_follows implements sound (inside rfl (by simp)) moved
  | push packet =>
    cases moved
    exact push_follows implements (inside rfl (by simp))
  | finish => exact finish_follows implements (inside rfl (by simp)) moved
  | join => exact join_follows implements (inside rfl (by simp)) moved
  | giveUp => exact giveUp_follows implements (inside rfl (by simp)) moved
  | create tup => exact absurd rfl (between tup)
  | restore tup =>
    cases moved
    exact restore_follows implements app client
  | resend rest => exact resend_follows implements (inside rfl (by simp)) keeps moved

/-- Without a client the process ends at the head of the loop. -/
theorem crash_follows (implements : Implements lossless link log)
    (app : link.app = .calling call tries stage) (between : ∀ tup, stage ≠ .create tup)
    (absent : ∀ client, link.channel.client ≠ .live client) (fault : Fault) :
    Follows lossless log (link.crash fault) := by
  have place : link.app.stage = stage := by rw [app]; rfl
  apply Implements.follows
  cases implements.sending with
  | connected live settled holds => exact absurd live (absent _)
  | unconnected early live holds => exact absurd live (absent _)
  | lost early gone =>
    exact implements.ends (by rw [early]; rfl) (by intro _ _ _ same; cases same) rfl rfl rfl
      (.lost rfl gone)
  | deleted stage gone holds => exact absurd (place.symm.trans stage) (between _)
  | created stage live closed holds => exact absurd live (absent _)

theorem appStep_follows (implements : Implements lossless link log) (sound : Replay.Sound log)
    (keeps : lossless → link.drops (.app env) = false) (moved : link.appStep env = some after) :
    Follows lossless log after := by
  unfold Link.appStep at moved
  split at moved
  · cases moved
  · cases moved
  · rename_i call tries tup app
    cases moved
    exact create_follows implements app
  · rename_i call tries stage between app
    split at moved
    · rename_i client live
      exact clientStep_follows implements sound app between live keeps moved
    · rename_i gone
      cases moved
      exact crash_follows implements app between (by simp [gone]) _
    · rename_i gone
      cases moved
      exact crash_follows implements app between (by simp [gone]) _

/-- The application starts a call. -/
theorem call_follows (implements : Implements lossless link log)
    (moved : link.call flushes = some after) : Follows lossless log after := by
  unfold Link.call at moved
  split at moved
  · rename_i idle
    have early : link.app.stage = .attempt := by rw [idle]; rfl
    split at moved
    · cases moved
      apply Implements.follows
      refine implements.moved rfl rfl rfl ?_ (Nat.zero_le _) implements.serves ?_
        (implements.sending.same early.symm rfl rfl)
      · unfold Link.promised
        rw [early]
        rfl
      · intro call tries stage there
        cases there
        intro message same
        cases same
    · split at moved
      · cases moved
      · rename_i message rest pending
        cases moved
        have bounded := implements.bounded
        have kept := implements.kept
        have whole := implements.whole
        unfold Link.promised at kept whole
        rw [early] at kept whole
        refine Implements.follows ⟨implements.numbered, ?_, implements.serves, implements.listed,
          implements.reads, implements.sending.same early.symm rfl rfl, ?_, kept, whole⟩
        · rw [idle, pending] at bounded
          simp only [App.unsent, List.length_cons] at bounded
          show log.items.length + 1 + rest.length < _
          omega
        · intro call tries stage there
          cases there
          intro other same
          cases same
          rfl
  · cases moved

theorem next_follows (implements : Implements lossless link log) (sound : Replay.Sound log)
    (keeps : lossless → link.drops label = false) (moved : Link.next label link = some after) :
    Follows lossless log after := by
  cases label with
  | call flush => exact call_follows implements moved
  | app env => exact appStep_follows implements sound keeps moved
  | ack step => exact ackStep_follows implements moved
  | receive => exact receive_follows implements moved
  | append k => exact append_follows implements moved
  | acknowledge k => exact acknowledge_follows implements moved
  | pop => exact pop_follows implements sound moved

end GaiaNet.Grpc
