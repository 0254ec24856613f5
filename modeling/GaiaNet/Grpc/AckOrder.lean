import GaiaNet.Grpc.AckState

/-! The ack thread pops the packet it has an ack for: over every interleaving with the
caller and every hand-over the queue, the streams and the acks stay in step. -/

namespace GaiaNet.Grpc

open Lib.Transition

theorem Owner.holder (owner : Owner line accepted popped) (live : line.client = some client)
    (whole : line.stage.whole = true) :
    Speaks line accepted popped client ∧ client.notackQueue = accepted.drop popped ∨
      client.Unused ∧ line.heldAck = none ∧ accepted = [] := by
  cases owner with
  | @speaking other there _ speaks queue =>
    rw [live] at there
    cases there
    exact Or.inl ⟨speaks, queue⟩
  | @unused other there stage fresh silent none =>
    rw [live] at there
    cases there
    exact Or.inr ⟨fresh, silent, none⟩
  | given there stage holder carried =>
    rw [stage] at whole
    cases whole
  | deleted dead stage silent carried =>
    rw [live] at dead
    cases dead
  | created there stage fresh silent carried =>
    rw [stage] at whole
    cases whole
  | gone dead stage =>
    rw [live] at dead
    cases dead

theorem Speaks.not_unused (speaks : Speaks line accepted popped client) : ¬ client.Unused := by
  intro fresh
  have version := speaks.version
  rw [fresh.version] at version
  cases version

/-- The caller goes on with the same client. -/
theorem Line.Sound.enter {line : Line} {client : RpcClient} (sound : line.Sound accepted popped)
    (live : line.client = some client) (whole : line.stage.whole = true) (stage : LineStage)
    (stays : stage.whole = true) (pushing : stage.pushing = line.stage.pushing)
    (remaining : stage.remaining = line.stage.remaining)
    (ready : stage.Ready accepted.length)
    (quiet : stage.retired = true → line.heldAck = none)
    (early : client.Unused →
      stage = .outside ∨ stage = .take ∨ ∃ content, stage = .attempt content) :
    (line.enter stage).Sound accepted popped := by
  refine sound.moved rfl rfl rfl pushing ready ?_
  rcases sound.owner.holder live whole with ⟨speaks, queue⟩ | ⟨fresh, silent, none⟩
  · exact .speaking live stays (speaks.moved rfl pushing (fun _ => remaining) rfl rfl speaks.idle
      speaks.thread quiet fun stream opened => ⟨stream, opened, rfl⟩) queue
  · exact .unused live (early fresh) fresh silent none

theorem send_kept {line after : Line} (sound : line.Sound accepted popped)
    (moved : line.send content = some after) : after.Kept := by
  unfold Line.send at moved
  split at moved
  · rename_i client stage live
    cases moved
    have whole : line.stage.whole = true := by rw [stage]; rfl
    refine ⟨_, _, sound.enter live whole (.attempt content) rfl ?_ ?_ trivial
      (fun same => by cases same) fun _ => Or.inr (Or.inr ⟨content, rfl⟩)⟩
    · rw [stage]
      rfl
    · rw [stage]
      rfl
  · cases moved

/-- `finish` begins: nothing to end before the first `Send`, else the stream. -/
theorem reconnect_kept {line after : Line} (sound : line.Sound accepted popped)
    (moved : line.reconnect = some after) : after.Kept := by
  unfold Line.reconnect at moved
  split at moved
  · rename_i client stage live
    have whole : line.stage.whole = true := by rw [stage]; rfl
    have pushing : line.stage.pushing = [] := by rw [stage]; rfl
    have remaining : line.stage.remaining = [] := by rw [stage]; rfl
    rcases sound.owner.holder live whole with ⟨speaks, queue⟩ | ⟨fresh, silent, none⟩
    · rw [if_neg (ServiceVersion.code_ne speaks.version (by simp))] at moved
      split at moved
      · cases moved
        exact ⟨_, _, sound.crash⟩
      · rename_i stream opened
        cases moved
        refine ⟨_, _, sound.moved rfl rfl rfl pushing.symm trivial (.speaking rfl rfl ?_ queue)⟩
        refine speaks.moved rfl pushing.symm (fun _ => remaining.symm) rfl rfl speaks.idle
          speaks.thread (fun same => by cases same) ?_
        intro other found
        rw [opened] at found
        cases found
        exact ⟨_, rfl, rfl⟩
    · rw [if_pos fresh.version] at moved
      cases moved
      exact ⟨_, _, sound.enter live whole .take rfl pushing.symm remaining.symm trivial
        (fun _ => silent) fun _ => Or.inr (Or.inl rfl)⟩
  · cases moved

/-- The client that a version 2 server leaves. -/
theorem RpcClient.connect_second {client : RpcClient}
    (connected : client.connect versions = some current)
    (second : current.useRpcVersion = ServiceVersion.v2.code) :
    current = { client with
      useRpcVersion := ServiceVersion.v2.code
      rwSender := some Stream.opened
      recvThread := true } := by
  unfold RpcClient.connect at connected
  split at connected
  · cases connected
  · rename_i version _
    split at connected
    · cases connected
    · cases connected
      have same : version = ServiceVersion.v2.code := by
        unfold RpcClient.initSender at second
        split at second <;> exact second
      subst same
      rfl

/-- A stream opened for a client with this queue starts at its oldest packet. -/
theorem Speaks.opened {line : Line} {client : RpcClient}
    (numbered : Numbered accepted) (within : popped ≤ accepted.length)
    (version : client.useRpcVersion = ServiceVersion.v2.code) (seq : client.seq = accepted.length)
    (queue : client.notackQueue = accepted.drop popped)
    (opened : client.rwSender = some Stream.opened) (thread : client.recvThread = true)
    (pushing : line.stage.pushing = []) (remaining : line.stage.remaining = accepted.drop popped)
    (line_eq : line.wire = (false, none, 0, 0, client.oldest)) :
    Speaks line accepted popped client := by
  simp only [Line.wire, Prod.mk.injEq] at line_eq
  obtain ⟨failed, heldAck, acksRead, acked, oldest⟩ := line_eq
  have start : client.oldest = popped := by
    unfold RpcClient.oldest
    rw [queue]
    cases rest : accepted.drop popped with
    | nil =>
      have past := List.drop_eq_nil_iff.mp rest
      simp only [seq]
      omega
    | cons packet tail =>
      have front : accepted[popped]? = some packet := by
        rw [← Nat.add_zero popped, ← List.getElem?_drop, rest]
        rfl
      exact numbered popped packet front
  refine ⟨version, seq, fun _ => heldAck, fun _ => thread, fun _ => heldAck, Stream.opened, popped,
    opened, Nat.le_refl _, List.nil_prefix, ?_, ?_, ?_, ?_, ?_, ?_⟩
  · intro _
    rw [remaining, pushing, List.append_nil]
    rfl
  · rw [acked]
    exact Nat.zero_le _
  · rw [heldAck, acksRead]
    rfl
  · rw [acksRead]
    exact Nat.zero_le _
  · intro ack held
    rw [heldAck] at held
    cases held
  · rw [oldest, start]

theorem beginSend_kept {line after : Line} (sound : line.Sound accepted popped)
    (live : line.client = some client) (stage : line.stage = .attempt content)
    (moved : line.beginSend versions content client = some after) : after.Kept := by
  have whole : line.stage.whole = true := by rw [stage]; rfl
  have pushing : line.stage.pushing = [] := by rw [stage]; rfl
  have remaining : line.stage.remaining = [] := by rw [stage]; rfl
  have back := sound.enter live whole .outside rfl pushing.symm remaining.symm trivial
    (fun same => by cases same) fun _ => Or.inl rfl
  unfold Line.beginSend at moved
  rcases sound.owner.holder live whole with ⟨speaks, queue⟩ | ⟨fresh, silent, none⟩
  · rw [if_neg (ServiceVersion.code_ne speaks.version (by simp))] at moved
    split at moved
    · cases moved
      exact ⟨_, _, back⟩
    · cases moved
      refine ⟨_, _, sound.enter live whole _ rfl pushing.symm remaining.symm ?_
        (fun same => by cases same) fun fresh => absurd fresh speaks.not_unused⟩
      simp only [LineStage.Ready, RpcClient.packet, if_pos (ServiceVersion.code_ge speaks.version)]
      exact speaks.seq
  · rw [if_pos fresh.version] at moved
    split at moved
    · cases moved
      exact ⟨_, _, back⟩
    · rename_i current connected
      split at moved
      · rename_i second
        cases moved
        have same := RpcClient.connect_second connected second
        have start : popped = 0 := by
          have within := sound.within
          rw [none] at within
          exact Nat.le_zero.mp within
        subst none start
        refine ⟨_, _, sound.moved rfl rfl rfl rfl sound.ready (.speaking rfl whole ?_ ?_)⟩
        · refine Speaks.opened (fun i packet found => by cases found) (Nat.le_refl 0) second
            ?_ ?_ ?_ ?_ pushing remaining rfl
          · rw [same]
            exact fresh.seq
          · rw [same]
            exact fresh.queue
          · rw [same]
          · rw [same]
        · rw [same]
          exact fresh.queue
      · cases moved

/-- A `Write` returned true: the stream has one packet more. -/
theorem Speaks.written {line : Line} {client : RpcClient} {stream : Stream} {stage : LineStage}
    {packet : Packet}
    (speaks : Speaks line accepted popped client) (opened : client.rwSender = some stream)
    (whole : ∀ first, first ≤ popped →
      stream.written ++ line.stage.remaining = (accepted ++ line.stage.pushing).drop first →
      stream.written ++ packet :: stage.remaining = (accepted ++ stage.pushing).drop first)
    (working : line.failed = false) (running : stage.retired = false) :
    Speaks { line with
      client := some { client with rwSender := some (stream.write packet) }, stage := stage }
      accepted popped { client with rwSender := some (stream.write packet) } := by
  obtain ⟨other, first, found, tracks⟩ := speaks.stream
  rw [opened] at found
  cases found
  have longer : (stream.write packet).written ++ stage.remaining =
      (accepted ++ stage.pushing).drop first := by
    rw [← whole first tracks.early (tracks.whole working)]
    simp [Stream.write]
  refine ⟨speaks.version, speaks.seq, speaks.idle, speaks.thread, ?_, _, first, rfl, tracks.early,
    ?_, ?_, ?_, tracks.read, tracks.readServed, tracks.held, tracks.oldest⟩
  · intro retired
    rw [running] at retired
    cases retired
  · exact ⟨stage.remaining, longer⟩
  · exact fun _ => longer
  · have served := tracks.served
    simp only [Stream.write, List.length_append, List.length_singleton]
    omega

/-- A `Write` returned false: nothing arrives on this stream any more. -/
theorem Speaks.broken {line : Line} {client : RpcClient}
    (speaks : Speaks line accepted popped client) (pushing : line.stage.pushing = []) :
    Speaks { line with failed := true, stage := .outside } accepted popped client := by
  obtain ⟨stream, first, opened, tracks⟩ := speaks.stream
  refine ⟨speaks.version, speaks.seq, speaks.idle, speaks.thread, (fun same => by cases same), stream, first, opened,
    tracks.early, ?_,
    (fun same => by cases same), tracks.served, tracks.read, tracks.readServed, tracks.held, tracks.oldest⟩
  have written := tracks.written
  rw [pushing] at written
  exact written

theorem tryWrite_kept {line after : Line} {client : RpcClient} {packet : Packet}
    (stage : LineStage) (sound : line.Sound accepted popped) (live : line.client = some client)
    (whole : line.stage.whole = true) (pushing : line.stage.pushing = [])
    (used : ¬ client.Unused) (stays : stage.whole = true) (running : stage.retired = false)
    (numbered : Numbered (accepted ++ stage.pushing))
    (ready : stage.Ready accepted.length)
    (grows : ∀ (stream : Stream) first, first ≤ popped →
      stream.written ++ line.stage.remaining = (accepted ++ line.stage.pushing).drop first →
      stream.written ++ packet :: stage.remaining = (accepted ++ stage.pushing).drop first)
    (moved : line.tryWrite ok packet client stage = some after) : after.Kept := by
  rcases sound.owner.holder live whole with ⟨speaks, queue⟩ | ⟨fresh, -⟩
  · unfold Line.tryWrite at moved
    split at moved
    · cases moved
      exact ⟨_, _, sound.crash⟩
    · rename_i stream opened
      split at moved
      · split at moved
        · cases moved
        · rename_i working
          cases moved
          refine ⟨accepted, popped, sound.packets, numbered, sound.within, ready, sound.past,
            sound.fresh, .speaking rfl stays ?_ queue⟩
          exact speaks.written opened (grows stream) (by simpa using working) running
      · cases moved
        refine ⟨_, _, sound.moved rfl rfl rfl pushing.symm trivial (.speaking live rfl ?_ queue)⟩
        exact speaks.broken pushing
  · exact absurd fresh used

theorem Line.Sound.used {line : Line} {client : RpcClient} (sound : line.Sound accepted popped)
    (live : line.client = some client) (stage : line.stage ≠ .outside)
    (notTake : line.stage ≠ .take) (notAttempt : ∀ content, line.stage ≠ .attempt content)
    (whole : line.stage.whole = true) : ¬ client.Unused := by
  intro fresh
  cases sound.owner with
  | @speaking other there _ speaks queue =>
    rw [live] at there
    cases there
    exact speaks.not_unused fresh
  | unused there early =>
    rcases early with same | same | ⟨content, same⟩
    · exact stage same
    · exact notTake same
    · exact notAttempt content same
  | given there stage holder carried =>
    rw [stage] at whole
    cases whole
  | deleted dead stage silent carried =>
    rw [live] at dead
    cases dead
  | created there stage fresh silent carried =>
    rw [stage] at whole
    cases whole
  | gone dead stage =>
    rw [live] at dead
    cases dead

theorem write_kept {line after : Line} (sound : line.Sound accepted popped)
    (live : line.client = some client) (stage : line.stage = .write packet)
    (moved : line.tryWrite ok packet client (.push packet) = some after) : after.Kept := by
  have pushing : line.stage.pushing = [] := by rw [stage]; rfl
  have remaining : line.stage.remaining = [] := by rw [stage]; rfl
  have whole : line.stage.whole = true := by rw [stage]; rfl
  have used := sound.used live (by simp [stage]) (by simp [stage]) (by simp [stage]) whole
  have numbered : Numbered accepted := by
    have all := sound.numbered
    rwa [pushing, List.append_nil] at all
  have ready : packet.header.seq = accepted.length := by
    have ready := sound.ready
    rw [stage] at ready
    exact ready
  refine tryWrite_kept (.push packet) sound live whole pushing used rfl rfl
    (numbered.snoc ready) trivial ?_ moved
  intro stream first early written
  rw [pushing, remaining, List.append_nil, List.append_nil] at written
  rw [written]
  exact (List.drop_append_of_le_length (Nat.le_trans early sound.within)).symm

theorem resend_kept {line after : Line} (sound : line.Sound accepted popped)
    (live : line.client = some client) (stage : line.stage = .resend (packet :: rest))
    (moved : line.tryWrite ok packet client (.resend rest) = some after) : after.Kept := by
  have pushing : line.stage.pushing = [] := by rw [stage]; rfl
  have remaining : line.stage.remaining = packet :: rest := by rw [stage]; rfl
  have whole : line.stage.whole = true := by rw [stage]; rfl
  have used := sound.used live (by simp [stage]) (by simp [stage]) (by simp [stage]) whole
  have numbered := sound.numbered
  rw [pushing] at numbered
  refine tryWrite_kept (.resend rest) sound live whole pushing used rfl rfl numbered trivial ?_ moved
  intro stream first _ written
  rw [pushing, remaining] at written
  exact written

/-- The packet enters the queue, and an ack that came before it can be popped for. -/
theorem push_kept {line : Line} {client : RpcClient} {packet : Packet}
    (sound : line.Sound accepted popped) (live : line.client = some client)
    (stage : line.stage = .push packet) (few : line.packets + 1 < 2 ^ 31) :
    Line.Kept { line with
      client := some (client.pushNotack packet)
      stage := .outside
      packets := line.packets + 1 } := by
  have pushing : line.stage.pushing = [packet] := by rw [stage]; rfl
  have remaining : line.stage.remaining = [] := by rw [stage]; rfl
  have whole : line.stage.whole = true := by rw [stage]; rfl
  have used := sound.used live (by simp [stage]) (by simp [stage]) (by simp [stage]) whole
  have packets := sound.packets
  rcases sound.owner.holder live whole with ⟨speaks, queue⟩ | ⟨fresh, -⟩
  · have counted : (client.pushNotack packet).seq = (accepted ++ [packet]).length := by
      have fits : accepted.length + 1 < 2 ^ 31 := by omega
      simp only [RpcClient.pushNotack, speaks.seq, addInt, List.length_append,
        List.length_singleton]
      rw [← bmod_nat fits]
      rfl
    refine ⟨accepted ++ [packet], popped, ?_, ?_, ?_, trivial, sound.past, sound.fresh,
      .speaking rfl rfl ?_ ?_⟩
    · simp [packets]
    · have numbered := sound.numbered
      rw [pushing] at numbered
      simpa [LineStage.pushing] using numbered
    · have within := sound.within
      simp only [List.length_append]
      omega
    · obtain ⟨stream, first, opened, tracks⟩ := speaks.stream
      have written := tracks.written
      have all := tracks.whole
      rw [pushing] at written
      rw [pushing, remaining] at all
      exact ⟨speaks.version, counted, speaks.idle, speaks.thread, (fun same => by cases same), stream, first, opened,
        tracks.early,
        by simpa [LineStage.pushing] using written,
        fun working => by simpa [LineStage.pushing, LineStage.remaining] using all working,
        tracks.served, tracks.read, tracks.readServed, tracks.held, tracks.oldest⟩
    · simp only [RpcClient.pushNotack, queue]
      exact (List.drop_append_of_le_length sound.within).symm
  · exact absurd fresh used

/-- `finish` has returned from `Finish` and can join the thread, or found none to join. -/
theorem joining_kept {line after : Line} {client : RpcClient} (sound : line.Sound accepted popped)
    (live : line.client = some client) (stage : line.stage = .joining)
    (moved : line.callerStep versions ok = some after) : after.Kept := by
  have pushing : line.stage.pushing = [] := by rw [stage]; rfl
  have remaining : line.stage.remaining = [] := by rw [stage]; rfl
  have whole : line.stage.whole = true := by rw [stage]; rfl
  have used := sound.used live (by simp [stage]) (by simp [stage]) (by simp [stage]) whole
  simp only [Line.callerStep, stage, live] at moved
  rcases sound.owner.holder live whole with ⟨speaks, queue⟩ | ⟨fresh, -⟩
  · split at moved
    · rename_i status
      cases moved
      exact ⟨_, _, sound.enter live whole .take rfl pushing.symm remaining.symm trivial
        (fun _ => speaks.idle (by simp [status])) fun fresh => absurd fresh used⟩
    · cases moved
    · rename_i status
      cases moved
      have silent := speaks.idle (by simp [status])
      refine ⟨_, _, sound.moved rfl rfl rfl pushing.symm trivial (.speaking rfl rfl ?_ queue)⟩
      exact speaks.moved rfl pushing.symm (fun _ => remaining.symm) rfl rfl (fun _ => silent)
        (fun same => by simp [status] at same) (fun _ => silent)
        fun stream opened => ⟨stream, opened, rfl⟩
  · exact absurd fresh used

/-- `get_continue_status` takes the queue out of the client. -/
theorem take_kept {line : Line} {client : RpcClient} (sound : line.Sound accepted popped)
    (live : line.client = some client) (stage : line.stage = .take) :
    Line.Kept { line with
      client := some client.getContinueStatus.2, stage := .delete client.getContinueStatus.1 } := by
  have pushing : line.stage.pushing = [] := by rw [stage]; rfl
  have remaining : line.stage.remaining = [] := by rw [stage]; rfl
  have whole : line.stage.whole = true := by rw [stage]; rfl
  refine ⟨_, _, sound.moved rfl rfl rfl pushing.symm trivial ?_⟩
  rcases sound.owner.holder live whole with ⟨speaks, queue⟩ | ⟨fresh, silent, none⟩
  · have silent := speaks.quiet (by rw [stage]; rfl)
    rw [RpcClient.getContinueStatus, if_pos (ServiceVersion.code_ge speaks.version)]
    refine .given rfl rfl (Or.inl ⟨?_, rfl⟩) (.full speaks.version speaks.seq queue)
    exact speaks.moved rfl pushing.symm (fun _ => remaining.symm) rfl rfl speaks.idle
      speaks.thread (fun _ => silent) fun stream opened => ⟨stream, opened, rfl⟩
  · have below : ¬ client.useRpcVersion ≥ ServiceVersion.v2.code := by
      rw [fresh.version]
      simp [ServiceVersion.code]
    rw [RpcClient.getContinueStatus, if_neg below]
    exact .given rfl rfl (Or.inr ⟨fresh, silent⟩) (.blank fresh.version none)

/-- The stream of a deleted client ends where it stands. -/
theorem delete_kept {line : Line} {client : RpcClient} (sound : line.Sound accepted popped)
    (live : line.client = some client) (stage : line.stage = .delete tup) :
    Line.Kept { line with client := none, stage := .create tup, past := line.record client } := by
  have pushing : line.stage.pushing = [] := by rw [stage]; rfl
  have numbered := sound.numbered
  cases sound.owner with
  | @given other held there deleting holder carried =>
    rw [live] at there
    rw [stage] at deleting
    cases there
    cases deleting
    have silent : line.heldAck = none := by
      rcases holder with ⟨speaks, -⟩ | ⟨-, silent⟩
      · exact speaks.quiet (by rw [stage]; rfl)
      · exact silent
    refine ⟨accepted, popped, sound.packets, ?_, sound.within, trivial, ?_, sound.fresh,
      .deleted rfl rfl silent carried⟩
    · rw [pushing] at numbered
      exact numbered
    · rcases holder with ⟨speaks, -⟩ | ⟨fresh, -⟩
      · obtain ⟨stream, first, opened, tracks⟩ := speaks.stream
        simp only [Line.record, opened]
        intro written there
        rcases List.mem_cons.mp there with rfl | old
        · rw [tracks.oldest]
          exact numbered.consecutive tracks.written
        · exact sound.past written old
      · simp only [Line.record, fresh.rwSender]
        exact sound.past
  | speaking there whole speaks queue =>
    rw [stage] at whole
    cases whole
  | unused there early fresh silent none =>
    rw [stage] at early
    simp at early
  | deleted dead creating silent carried =>
    rw [live] at dead
    cases dead
  | created there restoring fresh silent carried =>
    rw [stage] at restoring
    cases restoring
  | gone dead ended =>
    rw [live] at dead
    cases dead

theorem create_kept {line after : Line} (sound : line.Sound accepted popped)
    (dead : line.client = none) (stage : line.stage = .create tup)
    (moved : line.callerStep versions ok = some after) : after.Kept := by
  have pushing : line.stage.pushing = [] := by rw [stage]; rfl
  simp only [Line.callerStep, stage, dead] at moved
  cases sound.owner with
  | deleted _ creating silent carried =>
    rw [stage] at creating
    cases creating
    split at moved
    · cases moved
      exact ⟨_, _, sound.moved rfl rfl rfl pushing.symm trivial
        (.created rfl rfl sound.fresh silent carried)⟩
    · cases moved
      exact ⟨_, _, sound.moved rfl rfl rfl pushing.symm trivial (.gone dead (Or.inl rfl))⟩
  | speaking live whole speaks queue =>
    rw [dead] at live
    cases live
  | unused live early fresh silent none =>
    rw [dead] at live
    cases live
  | given live deleting holder carried =>
    rw [dead] at live
    cases live
  | created live restoring fresh silent carried =>
    rw [dead] at live
    cases live
  | gone _ ended =>
    rw [stage] at ended
    simp at ended

/-- The next client opens a stream for the queue it is given and resends it from the front. -/
theorem restore_kept {line after : Line} {client : RpcClient} (sound : line.Sound accepted popped)
    (live : line.client = some client) (stage : line.stage = .restore tup)
    (moved : line.callerStep versions ok = some after) : after.Kept := by
  have pushing : line.stage.pushing = [] := by rw [stage]; rfl
  have numbered := sound.numbered
  rw [pushing, List.append_nil] at numbered
  simp only [Line.callerStep, stage, live] at moved
  cases sound.owner with
  | @created other held there restoring fresh silent carried =>
    rw [live] at there
    rw [stage] at restoring
    cases there
    cases restoring
    cases carried with
    | full version seq queue =>
      have second := ServiceVersion.code_ge version
      rw [if_pos second] at moved
      cases moved
      have restored : client.restored tup = { client with
          useRpcVersion := tup.useRpcVersion, useRedisDataVersion := tup.useRedisDataVersion
          notackQueue := tup.notackQueue, seq := tup.seq, recvIdx := tup.recvIdx
          rwSender := some Stream.opened, recvThread := true } := by
        rw [RpcClient.restored, RpcClient.initSender, if_pos second]
      refine ⟨_, _, sound.moved rfl rfl rfl pushing.symm trivial (.speaking rfl rfl ?_ ?_)⟩
      · refine Speaks.opened numbered sound.within ?_ ?_ ?_ ?_ ?_ rfl queue rfl
        all_goals rw [restored]
        · exact version
        · exact seq
        · exact queue
      · rw [restored]
        exact queue
    | blank version none =>
      have below : ¬ tup.useRpcVersion ≥ ServiceVersion.v2.code := by
        rw [version]
        simp [ServiceVersion.code]
      rw [if_neg below] at moved
      cases moved
      exact ⟨_, _, sound.moved rfl rfl rfl pushing.symm trivial (.unused rfl (Or.inl rfl)
        ⟨version, fresh.seq, fresh.queue, fresh.rwSender, fresh.recvThread, fresh.status⟩ silent
        none)⟩
  | speaking there whole speaks queue =>
    rw [stage] at whole
    cases whole
  | unused there early fresh silent none =>
    rw [stage] at early
    simp at early
  | given there deleting holder carried =>
    rw [stage] at deleting
    cases deleting
  | deleted dead creating silent carried =>
    rw [live] at dead
    cases dead
  | gone dead ended =>
    rw [live] at dead
    cases dead

/-- One lemma for each stage of the caller. -/
theorem callerStep_kept {line after : Line} (sound : line.Sound accepted popped)
    (few : after.packets < 2 ^ 31) (moved : line.callerStep versions ok = some after) :
    after.Kept := by
  cases live : line.client with
  | none =>
    cases stage : line.stage with
    | create tup => exact create_kept sound live stage moved
    | _ => simp [Line.callerStep, stage, live] at moved
  | some client =>
    cases stage : line.stage with
    | attempt content =>
      simp only [Line.callerStep, stage, live] at moved
      exact beginSend_kept sound live stage moved
    | write packet =>
      simp only [Line.callerStep, stage, live] at moved
      exact write_kept sound live stage moved
    | push packet =>
      simp only [Line.callerStep, stage, live] at moved
      cases moved
      exact push_kept sound live stage few
    | finishing =>
      have whole : line.stage.whole = true := by rw [stage]; rfl
      have used := sound.used live (by simp [stage]) (by simp [stage]) (by simp [stage]) whole
      simp only [Line.callerStep, stage, live] at moved
      cases moved
      exact ⟨_, _, sound.enter live whole .joining rfl (by rw [stage]; rfl) (by rw [stage]; rfl)
        trivial (fun same => by cases same) fun fresh => absurd fresh used⟩
    | joining => exact joining_kept sound live stage moved
    | take =>
      simp only [Line.callerStep, stage, live] at moved
      cases moved
      exact take_kept sound live stage
    | delete tup =>
      simp only [Line.callerStep, stage, live] at moved
      split at moved
      · cases moved
        exact ⟨_, _, sound.crash⟩
      · cases moved
        exact delete_kept sound live stage
    | restore tup => exact restore_kept sound live stage moved
    | lock rest =>
      have whole : line.stage.whole = true := by rw [stage]; rfl
      have used := sound.used live (by simp [stage]) (by simp [stage]) (by simp [stage]) whole
      simp only [Line.callerStep, stage, live] at moved
      cases moved
      exact ⟨_, _, sound.enter live whole (.resend rest) rfl (by rw [stage]; rfl)
        (by rw [stage]; rfl) trivial (fun same => by cases same) fun fresh => absurd fresh used⟩
    | resend rest =>
      cases rest with
      | nil =>
        have whole : line.stage.whole = true := by rw [stage]; rfl
        simp only [Line.callerStep, stage, live] at moved
        cases moved
        exact ⟨_, _, sound.enter live whole .outside rfl (by rw [stage]; rfl) (by rw [stage]; rfl)
          trivial (fun same => by cases same) fun _ => Or.inl rfl⟩
      | cons packet rest =>
        simp only [Line.callerStep, stage, live] at moved
        exact resend_kept sound live stage moved
    | _ => simp [Line.callerStep, stage, live] at moved

theorem next_kept {line after : Line} (sound : line.Sound accepted popped)
    (few : after.packets < 2 ^ 31) (moved : Line.next label line = some after) : after.Kept := by
  cases label with
  | send content => exact send_kept sound moved
  | reconnect => exact reconnect_kept sound moved
  | caller versions ok => exact callerStep_kept sound few moved
  | ack step => exact ackStep_kept sound moved
  | serve => exact ⟨_, _, serve_sound sound moved⟩

theorem start_sound :
    (Line.start taskid partyid toPartyid useRedis redisTimeoutEnv).Sound [] 0 := by
  have fresh : (RpcClient.init partyid toPartyid useRedis redisTimeoutEnv).Unused :=
    ⟨rfl, rfl, rfl, rfl, rfl, rfl⟩
  exact ⟨rfl, (fun i packet found => by cases found), Nat.le_refl 0, trivial,
    (fun written old => by cases old), fresh,
    .unused rfl (Or.inl rfl) fresh rfl rfl⟩

/-! The number of `Send` calls that have pushed does not go back. -/

theorem tryWrite_packets {line after : Line}
    (moved : line.tryWrite ok packet client stage = some after) : after.packets = line.packets := by
  grind [Line.tryWrite, Line.crash]

theorem beginSend_packets {line after : Line}
    (moved : line.beginSend versions content client = some after) :
    after.packets = line.packets := by
  grind [Line.beginSend, Line.enter, Line.opened]

theorem readAck_packets {line after : Line} (moved : line.readAck client = some after) :
    after.packets = line.packets := by
  grind [Line.readAck]

theorem next_packets {line after : Line} (moved : Line.next label line = some after) :
    line.packets ≤ after.packets := by
  cases label with
  | send content => grind [Line.next, Line.send, Line.enter]
  | reconnect => grind [Line.next, Line.reconnect, Line.enter, Line.crash]
  | caller versions ok =>
    grind [Line.next, Line.callerStep, Line.enter, Line.crash, Line.opened, tryWrite_packets,
      beginSend_packets]
  | ack step =>
    cases step <;> grind [Line.next, Line.ackStep, Line.ackClientStep, readAck_packets]
  | serve => grind [Line.next, Line.serve]

theorem reaches_kept {line : Line}
    (path : Reaches Line.next (Line.start taskid partyid toPartyid useRedis redisTimeoutEnv) line)
    (few : line.packets < 2 ^ 31) : line.Kept := by
  refine path.invariant (fun line => line.packets < 2 ^ 31 → line.Kept)
    (fun _ => ⟨[], 0, start_sound⟩) ?_ few
  intro label before after kept moved few
  obtain ⟨accepted, popped, sound⟩ := kept (Nat.lt_of_le_of_lt (next_packets moved) few)
  exact next_kept sound few moved

/-! What the invariant says of a line. -/

/-- The queue of a client: empty while its status is elsewhere. -/
theorem Line.Sound.queue {line : Line} {client : RpcClient} (sound : line.Sound accepted popped)
    (live : line.client = some client) :
    client.notackQueue = [] ∨
      Speaks line accepted popped client ∧ client.notackQueue = accepted.drop popped := by
  by_cases fresh : client.Unused
  · exact Or.inl fresh.queue
  · rcases sound.owner.open live fresh with ⟨speaks, ⟨-, queue⟩ | ⟨tup, -, empty, -⟩⟩
    · exact Or.inr ⟨speaks, queue⟩
    · exact Or.inl empty

theorem Line.Sound.accepted_numbered {line : Line} (sound : line.Sound accepted popped) :
    Numbered accepted := by
  intro i packet found
  apply sound.numbered i packet
  rw [List.getElem?_append_left (List.getElem?_eq_some_iff.mp found).1]
  exact found

theorem Line.Sound.consecutive {line : Line} {client : RpcClient}
    (sound : line.Sound accepted popped) (live : line.client = some client) :
    Consecutive (client.seq - client.notackQueue.length) client.notackQueue := by
  rcases sound.queue live with empty | ⟨speaks, queue⟩
  · rw [empty]
    exact Consecutive.nil _
  · have within := sound.within
    have start : client.seq - client.notackQueue.length = popped := by
      rw [speaks.seq, queue, List.length_drop]
      omega
    rw [start, queue]
    exact sound.accepted_numbered.consecutive (List.prefix_refl _)

theorem Line.Sound.stream {line : Line} {client : RpcClient} {stream : Stream}
    (sound : line.Sound accepted popped) (live : line.client = some client)
    (opened : client.rwSender = some stream) : Consecutive line.oldest stream.written := by
  have used : ¬ client.Unused := by
    intro fresh
    rw [fresh.rwSender] at opened
    cases opened
  obtain ⟨other, first, found, tracks⟩ := (sound.owner.open live used).1.stream
  rw [opened] at found
  cases found
  rw [tracks.oldest]
  exact sound.numbered.consecutive tracks.written

/-- The ack that is held is for the front. -/
theorem Line.Sound.front {line : Line} {client : RpcClient} {ack : Int} {packet : Packet}
    (sound : line.Sound accepted popped) (live : line.client = some client)
    (held : line.heldAck = some ack) (queue : client.notackQueue = packet :: rest) :
    packet.header.seq = ack := by
  rcases sound.queue live with empty | ⟨speaks, whole⟩
  · rw [empty] at queue
    cases queue
  · obtain ⟨stream, first, -, tracks⟩ := speaks.stream
    have there : accepted[popped]? = some packet := by
      rw [← Nat.add_zero popped, ← List.getElem?_drop, ← whole, queue]
      rfl
    rw [sound.accepted_numbered popped packet there, tracks.held ack held]

/-- Outside `Send` a packet that is acknowledged and not popped is in the queue. -/
theorem Tracks.behind {line : Line} {stream : Stream}
    (tracks : Tracks line accepted popped first stream) (outside : line.stage.pushing = [])
    (held : line.heldAck ≠ none) : popped < accepted.length := by
  obtain ⟨ack, holds⟩ := Option.ne_none_iff_exists'.mp held
  have read := tracks.read
  rw [holds] at read
  simp only [Option.toList_some, List.length_singleton] at read
  have written := tracks.written.length_le
  rw [outside, List.append_nil, List.length_drop] at written
  have early := tracks.early
  have served := tracks.served
  have readServed := tracks.readServed
  omega

theorem Line.Sound.free {line : Line} {client : RpcClient} (sound : line.Sound accepted popped)
    (live : line.client = some client) (outside : line.stage.pushing = [])
    (held : line.heldAck ≠ none) : client.notackQueue ≠ [] := by
  cases sound.owner with
  | @speaking other there whole speaks queue =>
    rw [live] at there
    cases there
    obtain ⟨stream, first, -, tracks⟩ := speaks.stream
    have behind := tracks.behind outside held
    intro empty
    rw [queue, List.drop_eq_nil_iff] at empty
    omega
  | unused there early fresh silent none => exact absurd silent held
  | given there stage holder carried =>
    rcases holder with ⟨speaks, -⟩ | ⟨-, silent⟩
    · exact absurd (speaks.quiet (by rw [stage]; rfl)) held
    · exact absurd silent held
  | deleted dead stage silent carried => exact absurd silent held
  | created there stage fresh silent carried => exact absurd silent held
  | gone dead stage =>
    rw [live] at dead
    cases dead

/-- Without an ack to pop for, the ack thread ends and `finish` joins it. -/
theorem joins_silent {line : Line} {client : RpcClient} (versions : Nat → VersionReply)
    (live : line.client = some client) (stage : line.stage = .joining)
    (thread : client.recvThreadStatus = .started → client.recvThread = true)
    (silent : line.heldAck = none) :
    ∃ labels after, run Line.next labels line = some after ∧ after.stage = .take := by
  cases status : client.recvThreadStatus with
  | notInited =>
    refine ⟨[.caller versions true], line.enter .take, ?_, rfl⟩
    simp [run, Line.next, Line.callerStep, stage, live, status]
  | finished =>
    refine ⟨[.caller versions true], { line with
      client := some { client with recvThread := false }, stage := .take }, ?_, rfl⟩
    simp [run, Line.next, Line.callerStep, stage, live, status]
  | started =>
    refine ⟨[.ack .stop, .caller versions true], { line with
      client := some { client with recvThreadStatus := .finished, recvThread := false }
      stage := .take }, ?_, rfl⟩
    simp [run, Line.next, Line.callerStep, Line.ackStep, Line.ackClientStep, LineStage.locked,
      stage, live, status, thread status, silent]

theorem Line.Sound.present {line : Line} (sound : line.Sound accepted popped)
    (stage : line.stage = .joining) : ∃ client, line.client = some client := by
  cases sound.owner with
  | speaking live whole speaks queue => exact ⟨_, live⟩
  | unused live early fresh silent none => exact ⟨_, live⟩
  | given live deleting holder carried => exact ⟨_, live⟩
  | deleted dead creating silent carried =>
    rw [stage] at creating
    cases creating
  | created live restoring fresh silent carried => exact ⟨_, live⟩
  | gone dead ended =>
    rw [stage] at ended
    simp at ended

/-- With one it pops first. -/
theorem Line.Sound.joins {line : Line} (sound : line.Sound accepted popped)
    (stage : line.stage = .joining) :
    ∃ labels after, run Line.next labels line = some after ∧ after.stage = .take := by
  have whole : line.stage.whole = true := by rw [stage]; rfl
  have outside : line.stage.pushing = [] := by rw [stage]; rfl
  obtain ⟨client, live⟩ := sound.present stage
  have used := sound.used live (by simp [stage]) (by simp [stage]) (by simp [stage]) whole
  have speaks := (sound.owner.open live used).1
  by_cases silent : line.heldAck = none
  · exact joins_silent (fun _ => .failed) live stage speaks.thread silent
  · have full := sound.free live outside silent
    have started : client.recvThreadStatus = .started := by
      refine Decidable.byContradiction fun other => ?_
      exact silent (speaks.idle other)
    let rest : RpcClient := { client with notackQueue := client.notackQueue.tail }
    let shorter : Line := { line with client := some rest, heldAck := none }
    have pops : Line.next (.ack .pop) line = some shorter := by
      simp [shorter, rest, Line.next, Line.ackStep, Line.ackClientStep, LineStage.locked, live,
        stage, speaks.thread started, silent, full]
    have there : shorter.client = some rest := rfl
    obtain ⟨labels, after, ran, taken⟩ :=
      joins_silent (fun _ => .failed) there stage speaks.thread rfl
    refine ⟨.ack .pop :: labels, after, ?_, taken⟩
    simp only [run, pops]
    exact ran

theorem Line.Sound.acksMatch {line : Line} (sound : line.Sound accepted popped) :
    AcksMatch line where
  queue := fun client live => sound.consecutive live
  stream := fun client stream live opened => sound.stream live opened
  past := sound.past
  front := fun client ack packet rest live held queue => sound.front live held queue
  free := by
    intro client live idle held
    refine sound.free live ?_ held
    cases stage : line.stage <;> simp [stage, LineStage.sends, LineStage.pushing] at idle ⊢
  joins := sound.joins

/-- In every run of a client and its successors the acks match the unacknowledged packets. -/
theorem acks_match
    (path : Reaches Line.next (Line.start taskid partyid toPartyid useRedis redisTimeoutEnv) line)
    (few : line.packets < 2 ^ 31) : AcksMatch line := by
  obtain ⟨accepted, popped, sound⟩ := reaches_kept path few
  exact sound.acksMatch

/-- A step of the caller at which the server speaks version 2. -/
def LineLabel.works : LineLabel := .caller (fun _ => .ok 2) true

def LineLabel.breaks : LineLabel := .caller (fun _ => .ok 2) false

/-- The ack of the first packet is read before the packet is in the queue, and the hand-over of
the next two stops after the first of them. -/
def halfResent : List LineLabel :=
  [.send [7], .works, .works, .works, .serve, .ack .start, .ack .read, .works, .ack .pop,
    .send [8], .works, .works, .works, .send [9], .works, .works, .works,
    .reconnect, .works, .ack .stop, .works, .works, .works, .works, .works, .works,
    .works, .ack .start, .serve, .ack .read, .breaks]

theorem acks_match_halfResent :
    ∃ line, run Line.next halfResent (Line.start "task" 1 2 false none) = some line ∧
      line.packets = 3 ∧ line.heldAck = some 1 ∧ AcksMatch line := by
  have ran : (run Line.next halfResent (Line.start "task" 1 2 false none)).map
      (fun line => (line.packets, line.heldAck)) = some (3, some 1) := by
    decide +kernel
  obtain ⟨line, finished, same⟩ := Option.map_eq_some_iff.mp ran
  have packets : line.packets = 3 := (Prod.mk.inj same).1
  have few : line.packets < 2 ^ 31 := by
    rw [packets]
    decide
  exact ⟨line, finished, packets, (Prod.mk.inj same).2, acks_match (Reaches.ofRun _ finished) few⟩

end GaiaNet.Grpc
