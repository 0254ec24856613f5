import GaiaNet.Grpc.Delivery

/-! One `real_send` on a link, over all its rounds: the packets with which it calls `Write`. -/

namespace GaiaNet.Grpc

open Lib.Transition

/-- The `Write` of a step of the application thread for its message, and its answer. -/
def Link.write? (label : Label) (link : Link) : Option (Packet × Bool) :=
  match label, link.app, link.channel.client with
  | .app env, .calling _ _ (.write packet), .live client =>
    client.rwSender.map fun _ => (packet, env.ok)
  | _, _, _ => none

theorem Link.write?_eq {link : Link} (writes : link.write? label = some write) :
    ∃ call tries, link.app = .calling call tries (.write write.1) := by
  unfold Link.write? at writes
  split at writes
  · rename_i call tries packet client app live
    obtain ⟨stream, -, rfl⟩ := Option.map_eq_some_iff.mp writes
    exact ⟨call, tries, app⟩
  · cases writes

/-- A link during one call, with the `Write` calls for its message so far. -/
structure OneSend where
  link : Link
  writes : List (Packet × Bool)

/-- A step of the link, or a stream on which a `Write` returned false takes packets again. -/
inductive SendLabel where
  | step (label : Label)
  | recover

/-- The steps until the application begins its next call. -/
def OneSend.next : SendLabel → OneSend → Option OneSend
  | .step (.call _), _ => none
  | .step label, run =>
    (Link.next label run.link).map fun after => ⟨after, run.writes ++ (run.link.write? label).toList⟩
  | .recover, run => some { run with link := { run.link with failed := false } }

/-- What a `real_send` has begun with: its message, `m_seq`, the queue, and what had been sent. -/
structure Begun where
  message : Bytes
  seq : Int
  queue : List Packet
  sent : List Bytes

namespace Begun

/-- A client with the numbers of the beginning whose queue has only lost packets. -/
structure Client (begun : Begun) (client : RpcClient) : Prop where
  seq : client.seq = begun.seq
  queue : client.notackQueue <:+ begun.queue

/-- The client that the call uses speaks v2. -/
def Live (begun : Begun) (link : Link) : Prop :=
  ∀ client, link.channel.client = .live client →
    begun.Client client ∧ client.useRpcVersion = ServiceVersion.v2.code

/-- A status on its way from one client to the next. -/
structure Carried (begun : Begun) (tup : ContinueStatus) : Prop where
  version : tup.useRpcVersion = ServiceVersion.v2.code
  seq : tup.seq = begun.seq
  queue : tup.notackQueue <:+ begun.queue

/-- Where the message is at each stage, and who has the queue. -/
def At (begun : Begun) (link : Link) : Stage → Prop
  | .attempt => link.content = begun.message ∧ ∀ client, link.channel.client = .live client →
    begun.Client client ∧ (client.useRpcVersion = ServiceVersion.v2.code ∨
      client.useRpcVersion = ServiceVersion.notInited.code)
  | .write packet | .push packet =>
    (packet.body = begun.message ∧ packet.header.seq = begun.seq) ∧ begun.Live link
  | .finish | .join | .giveUp | .resend _ => link.content = begun.message ∧ begun.Live link
  | .create tup => (link.content = begun.message ∧ begun.Carried tup) ∧
    ∀ client, link.channel.client ≠ .live client
  | .restore tup => link.content = begun.message ∧ begun.Carried tup

/-- How many `Write` calls have been accepted. -/
def accepted (writes : List (Packet × Bool)) : Nat := writes.countP (·.2)

/-- A link in the call, or after it; a call that throws has sent nothing more. -/
def During (begun : Begun) (link : Link) (count : Nat) : Prop :=
  match link.app with
  | .calling call _ stage => call = .send begun.message ∧ link.sent = begun.sent ∧
    begun.At link stage ∧ count = stage.pushing.length
  | .idle => count ≤ 1 ∧ (link.sent = begun.sent → link.content = begun.message ∧
    ∀ client, link.channel.client = .live client → client.notackQueue <:+ begun.queue)
  | .crashed _ => count ≤ 1

/-- A step that leaves the call alone; the ack thread may have popped packets. -/
structure Calm (link after : Link) : Prop where
  app : after.app = link.app
  content : after.content = link.content
  sent : after.sent = link.sent
  client : ∀ client, after.channel.client = .live client → ∃ old,
    link.channel.client = .live old ∧ client.seq = old.seq ∧
      client.useRpcVersion = old.useRpcVersion ∧ client.notackQueue <:+ old.notackQueue

theorem Calm.same {link after : Link} (app : after.app = link.app)
    (content : after.content = link.content) (sent : after.sent = link.sent)
    (channel : after.channel = link.channel) : Calm link after :=
  ⟨app, content, sent, fun client live =>
    ⟨client, channel ▸ live, rfl, rfl, List.suffix_refl _⟩⟩

theorem Client.popped {begun : Begun} {old client : RpcClient} (holds : begun.Client old)
    (seq : client.seq = old.seq) (queue : client.notackQueue <:+ old.notackQueue) :
    begun.Client client :=
  ⟨seq.trans holds.seq, queue.trans holds.queue⟩

theorem Live.calm {begun : Begun} {link after : Link} (live : begun.Live link)
    (calm : Calm link after) : begun.Live after := by
  intro client found
  obtain ⟨old, there, seq, version, queue⟩ := calm.client client found
  obtain ⟨holds, second⟩ := live old there
  exact ⟨holds.popped seq queue, version.trans second⟩

theorem At.calm {begun : Begun} {link after : Link} {stage : Stage} (at_ : begun.At link stage)
    (calm : Calm link after) : begun.At after stage := by
  have content := calm.content
  cases stage with
  | attempt =>
    refine ⟨content.trans at_.1, fun client found => ?_⟩
    obtain ⟨old, there, seq, version, queue⟩ := calm.client client found
    obtain ⟨holds, speaks⟩ := at_.2 old there
    rw [version]
    exact ⟨holds.popped seq queue, speaks⟩
  | write packet | push packet => exact ⟨at_.1, Live.calm at_.2 calm⟩
  | finish | join | giveUp | resend rest => exact ⟨content.trans at_.1, Live.calm at_.2 calm⟩
  | create tup =>
    refine ⟨⟨content.trans at_.1.1, at_.1.2⟩, fun client found => ?_⟩
    obtain ⟨old, there, -⟩ := calm.client client found
    exact at_.2 old there
  | restore tup => exact ⟨content.trans at_.1, at_.2⟩

theorem During.calm {begun : Begun} {link after : Link} (during : begun.During link count)
    (calm : Calm link after) : begun.During after count := by
  unfold During at during ⊢
  rw [calm.app]
  cases app : link.app with
  | crashed fault =>
    rw [app] at during
    exact during
  | calling call tries stage =>
    rw [app] at during
    obtain ⟨sends, sent, at_, counted⟩ := during
    exact ⟨sends, calm.sent.trans sent, at_.calm calm, counted⟩
  | idle =>
    rw [app] at during
    refine ⟨during.1, fun same => ?_⟩
    obtain ⟨content, queue⟩ := during.2 (calm.sent.symm.trans same)
    refine ⟨calm.content.trans content, fun client found => ?_⟩
    obtain ⟨old, there, -, -, popped⟩ := calm.client client found
    exact popped.trans (queue old there)

/-- The ack thread sets its status, reads an ack or pops the front of the queue. -/
theorem calm_ackStep {link after : Link} (moved : link.ackStep step = some after) :
    Calm link after := by
  unfold Link.ackStep at moved
  split at moved
  · rename_i client live
    have set (new : RpcClient) (seq : new.seq = client.seq)
        (version : new.useRpcVersion = client.useRpcVersion)
        (queue : new.notackQueue <:+ client.notackQueue) : Calm link (link.setClient new) := by
      refine ⟨rfl, rfl, rfl, fun other found => ?_⟩
      cases found
      exact ⟨client, live, seq, version, queue⟩
    split at moved
    · cases step with
      | start =>
        simp only [Link.ackClientStep, Option.ite_none_right_eq_some, Option.some.injEq] at moved
        obtain ⟨-, rfl⟩ := moved
        exact set _ rfl rfl (List.suffix_refl _)
      | read =>
        simp only [Link.ackClientStep, Option.ite_none_right_eq_some, Link.readAck] at moved
        obtain ⟨-, moved⟩ := moved
        split at moved
        · cases moved
        · simp only [Option.ite_none_right_eq_some, Option.map_eq_some_iff] at moved
          obtain ⟨-, packet, -, rfl⟩ := moved
          exact .same rfl rfl rfl rfl
      | pop =>
        simp only [Link.ackClientStep, Option.ite_none_right_eq_some, Option.some.injEq] at moved
        obtain ⟨-, rfl⟩ := moved
        have calm := set { client with notackQueue := client.notackQueue.tail } rfl rfl
          (List.tail_suffix _)
        exact ⟨calm.app, calm.content, calm.sent, calm.client⟩
      | stop =>
        simp only [Link.ackClientStep, Option.ite_none_right_eq_some, Option.some.injEq] at moved
        obtain ⟨-, rfl⟩ := moved
        exact set _ rfl rfl (List.suffix_refl _)
    · cases moved
  · cases moved

/-- The server and the receiver leave the call alone. -/
theorem calm_next {link after : Link} (moved : Link.next label link = some after)
    (app : ∀ env, label ≠ .app env) (call : ∀ flush, label ≠ .call flush) : Calm link after := by
  cases label with
  | call flush => exact absurd rfl (call flush)
  | app env => exact absurd rfl (app env)
  | ack step => exact calm_ackStep moved
  | receive =>
    simp only [Link.next, Link.receive] at moved
    repeat' split at moved
    · cases moved
    · rw [Option.map_eq_some_iff] at moved
      obtain ⟨packet, -, rfl⟩ := moved
      exact .same rfl rfl rfl rfl
    · cases moved
  | append k =>
    simp only [Link.next, Link.append] at moved
    repeat' split at moved
    · cases moved
    · rw [Option.map_eq_some_iff] at moved
      obtain ⟨packet, -, rfl⟩ := moved
      exact .same rfl rfl rfl rfl
    · cases moved
  | acknowledge k =>
    simp only [Link.next, Link.acknowledge] at moved
    repeat' split at moved
    · cases moved
    · cases moved
      exact .same rfl rfl rfl rfl
    · cases moved
  | pop =>
    simp only [Link.next, Link.pop, Option.map_eq_some_iff] at moved
    obtain ⟨frame, -, rfl⟩ := moved
    split <;> exact .same rfl rfl rfl rfl

section

variable {begun : Begun} {link after : Link} {client : RpcClient}

theorem Live.attempt (live : begun.Live link) (content : link.content = begun.message) :
    begun.At link .attempt :=
  ⟨content, fun client found => ⟨(live client found).1, Or.inl (live client found).2⟩⟩

theorem Live.set (holds : begun.Client client) (second : client.useRpcVersion = ServiceVersion.v2.code) :
    begun.Live (link.setClient client) := by
  intro other found
  cases found
  exact ⟨holds, second⟩

/-- The call goes on at a stage. -/
theorem During.enter {tries : Nat} {stage : Stage} (sent : after.sent = begun.sent)
    (at_ : begun.At (after.enter (.send begun.message) tries stage) stage) :
    begun.During (after.enter (.send begun.message) tries stage) stage.pushing.length :=
  ⟨rfl, sent, at_, rfl⟩

theorem During.fail (content : link.content = begun.message)
    (queue : ∀ client, link.channel.client = .live client → begun.Client client) :
    begun.During link.fail 0 :=
  ⟨Nat.zero_le 1, fun _ => ⟨content, fun client found => (queue client found).queue⟩⟩

theorem During.succeed (sent : link.sent = begun.sent) (few : count ≤ 1) :
    begun.During (link.succeed (.send begun.message)) count := by
  refine ⟨few, fun same => ?_⟩
  have longer : (link.sent ++ [begun.message]).length = begun.sent.length := congrArg List.length same
  rw [sent, List.length_append] at longer
  exact absurd longer (by simp)

theorem During.crash (fault : Fault) (few : count ≤ 1) : begun.During (link.crash fault) count :=
  few

theorem During.endRound (link : Link) (sent : link.sent = begun.sent) (content : link.content = begun.message)
    (live : begun.Live link) {tries : Nat} {ret : Bool} :
    begun.During (link.endRound (.send begun.message) tries ret) 0 := by
  unfold Link.endRound
  split
  · exact During.enter sent (live.attempt content)
  · cases ret with
    | true => exact During.succeed sent (Nat.zero_le 1)
    | false => exact During.fail content fun client found => (live client found).1

/-- `Send` up to its `Write`: the packet is made of the caller's bytes and `m_seq`. -/
theorem During.beginSend (sent : link.sent = begun.sent) (at_ : begun.At link .attempt)
    (live : link.channel.client = .live client) (tries : Nat)
    (app : link.app = .calling (.send begun.message) tries .attempt)
    (moved : link.beginSend env (.send begun.message) tries client = some after) :
    begun.During after 0 := by
  obtain ⟨content, clients⟩ := at_
  obtain ⟨holds, speaks⟩ := clients client live
  unfold Link.beginSend at moved
  split at moved
  · unfold Link.negotiate at moved
    cases found : client.connect env.versions with
    | none =>
      rw [found] at moved
      cases moved
      exact During.fail content fun client found => (clients client found).1
    | some current =>
      simp only [found, Option.ite_none_right_eq_some, Option.some.injEq] at moved
      obtain ⟨second, rfl⟩ := moved
      obtain ⟨seq, queue, -⟩ := RpcClient.connect_some found
      have opened : begun.Client current :=
        holds.popped seq (queue ▸ List.suffix_refl _)
      unfold During
      rw [show (link.opened current).app = _ from app]
      refine ⟨rfl, sent, ⟨content, fun other found => ?_⟩, rfl⟩
      cases found
      exact ⟨opened, Or.inl second⟩
  · rename_i set
    have second := speaks.resolve_right set
    have all : begun.Live link := by
      intro other found
      rw [live] at found
      cases found
      exact ⟨holds, second⟩
    split at moved
    · cases moved
      exact During.enter sent ⟨content, all⟩
    · cases moved
      refine ⟨rfl, sent, ⟨⟨content, ?_⟩, all⟩, rfl⟩
      unfold RpcClient.packet
      simp only [if_pos (ServiceVersion.code_ge second)]
      exact holds.seq

theorem restored_client (tup : ContinueStatus) (client : RpcClient) :
    (client.restored tup).seq = tup.seq ∧ (client.restored tup).notackQueue = tup.notackQueue ∧
      (client.restored tup).useRpcVersion = tup.useRpcVersion := by
  unfold RpcClient.restored RpcClient.initSender
  split <;> exact ⟨rfl, rfl, rfl⟩

/-- A `Write` on the stream of a v2 client leaves what the call has to keep. -/
theorem Live.write (live : begun.Live link) (found : link.channel.client = .live client)
    (stream : Stream) : begun.Live (link.setClient { client with rwSender := some stream }) := by
  obtain ⟨holds, second⟩ := live client found
  exact Live.set ⟨holds.seq, holds.queue⟩ second

theorem During.write (sent : link.sent = begun.sent) (at_ : begun.At link (.write packet))
    (live : link.channel.client = .live client) (tries : Nat)
    (app : link.app = .calling (.send begun.message) tries (.write packet))
    (moved : link.clientStep env (.send begun.message) tries client (.write packet) = some after) :
    begun.During after (accepted (link.write? (.app env)).toList) := by
  obtain ⟨same, all⟩ := at_
  unfold Link.write?
  simp only [app, live]
  simp only [Link.clientStep] at moved
  cases opened : client.rwSender with
  | none =>
    simp only [opened, Option.some.injEq] at moved
    subst moved
    exact During.crash _ (Nat.zero_le 1)
  | some stream =>
    simp only [opened] at moved
    cases ok : env.ok with
    | true =>
      simp only [ok, if_true, Option.map_eq_some_iff, Link.tryWrite] at moved
      obtain ⟨written, wrote, rfl⟩ := moved
      simp only [Option.ite_none_left_eq_some, Option.some.injEq] at wrote
      obtain ⟨-, rfl⟩ := wrote
      exact During.enter sent ⟨same, all.write live _⟩
    | false =>
      simp only [ok, Bool.false_eq_true, if_false, Option.some.injEq] at moved
      subst moved
      exact During.enter sent ⟨same.1, fun client found => all client found⟩

/-- The stages after the `Write` of a round. -/
theorem During.clientStep {stage : Stage} (sent : link.sent = begun.sent) (at_ : begun.At link stage)
    (live : link.channel.client = .live client) (tries : Nat)
    (app : link.app = .calling (.send begun.message) tries stage)
    (moved : link.clientStep env (.send begun.message) tries client stage = some after) :
    begun.During after (stage.pushing.length + accepted (link.write? (.app env)).toList) := by
  have unwritten (calm : ∀ packet, stage ≠ .write packet) :
      accepted (link.write? (.app env)).toList = 0 := by
    unfold Link.write?
    rw [app, live]
    cases stage with
    | write packet => exact absurd rfl (calm packet)
    | _ => rfl
  cases stage with
  | attempt =>
    rw [unwritten (by simp)]
    exact During.beginSend sent at_ live tries app moved
  | write packet =>
    rw [show (Stage.write packet).pushing.length = 0 from rfl, Nat.zero_add]
    exact During.write sent at_ live tries app moved
  | push packet =>
    rw [unwritten (by simp)]
    cases moved
    exact During.succeed sent (Nat.le_refl 1)
  | finish =>
    rw [unwritten (by simp)]
    obtain ⟨content, all⟩ := at_
    simp only [Link.clientStep] at moved
    split at moved
    · cases moved
      exact During.crash _ (Nat.zero_le 1)
    · cases moved
      exact During.enter sent ⟨content, all.write live _⟩
  | join =>
    rw [unwritten (by simp)]
    obtain ⟨content, all⟩ := at_
    obtain ⟨holds, second⟩ := all client live
    simp only [Link.clientStep] at moved
    split at moved
    · cases moved
      exact During.enter sent ⟨content, all⟩
    · cases moved
    · cases moved
      exact During.enter sent ⟨content, Live.set ⟨holds.seq, holds.queue⟩ second⟩
  | giveUp =>
    rw [unwritten (by simp)]
    obtain ⟨content, all⟩ := at_
    obtain ⟨holds, second⟩ := all client live
    have high := ServiceVersion.code_ge second
    simp only [Link.clientStep] at moved
    split at moved
    · cases moved
      exact During.crash _ (Nat.zero_le 1)
    · cases moved
      unfold RpcClient.getContinueStatus
      rw [if_pos high]
      exact During.enter sent ⟨⟨content, second, holds.seq, holds.queue⟩, by simp [Link.enter]⟩
  | create tup => cases moved
  | restore tup =>
    rw [unwritten (by simp)]
    obtain ⟨content, ⟨second, seq, queue⟩⟩ := at_
    obtain ⟨sameSeq, sameQueue, version⟩ := restored_client tup client
    cases moved
    refine During.enter sent ⟨content, fun other found => ?_⟩
    cases found
    exact ⟨⟨sameSeq.trans seq, sameQueue ▸ queue⟩, version.trans second⟩
  | resend rest =>
    rw [unwritten (by simp)]
    obtain ⟨content, all⟩ := at_
    cases rest with
    | nil =>
      cases moved
      exact During.endRound link sent content all
    | cons packet rest =>
      simp only [Link.clientStep] at moved
      split at moved
      · cases moved
        exact During.crash _ (Nat.zero_le 1)
      · split at moved
        · simp only [Option.map_eq_some_iff, Link.tryWrite, Option.ite_none_left_eq_some,
            Option.some.injEq] at moved
          obtain ⟨written, ⟨-, rfl⟩, rfl⟩ := moved
          exact During.enter sent ⟨content, all.write live _⟩
        · cases moved
          exact During.endRound { link with failed := true } sent content all

theorem During.appStep (during : begun.During link count) (moved : link.appStep env = some after) :
    begun.During after (count + accepted (link.write? (.app env)).toList) := by
  unfold Link.appStep at moved
  unfold During at during
  split at moved
  · cases moved
  · cases moved
  · rename_i call tries tup app
    rw [app] at during
    obtain ⟨rfl, sent, ⟨⟨content, carried⟩, gone⟩, rfl⟩ := during
    have silent : link.write? (.app env) = none := by
      unfold Link.write?
      rw [app]
    rw [silent]
    cases moved
    unfold Link.create
    split
    · exact During.enter sent ⟨content, carried⟩
    · exact During.fail content fun client found => absurd found (gone client)
  · rename_i call tries stage between app
    rw [app] at during
    obtain ⟨rfl, sent, at_, rfl⟩ := during
    have silent (gone : ∀ client, link.channel.client ≠ .live client) :
        link.write? (.app env) = none := by
      unfold Link.write?
      split
      · rename_i live
        exact absurd live (gone _)
      · rfl
    have few : stage.pushing.length ≤ 1 := by
      cases stage <;> simp [Stage.pushing]
    split at moved
    · rename_i client live
      exact During.clientStep sent at_ live tries app moved
    · rename_i gone
      cases moved
      rw [silent (by simp [gone])]
      exact During.crash _ few
    · rename_i gone
      cases moved
      rw [silent (by simp [gone])]
      exact During.crash _ few

end

/-- What holds during and after the call: its `Write` calls, and where the message is. -/
structure Keeps (begun : Begun) (run : OneSend) : Prop where
  same : ∀ write ∈ run.writes, write.1.body = begun.message ∧ write.1.header.seq = begun.seq
  during : begun.During run.link (accepted run.writes)

theorem Keeps.step {begun : Begun} {run after : OneSend} (keeps : begun.Keeps run)
    (moved : OneSend.next label run = some after) : begun.Keeps after := by
  cases label with
  | recover =>
    cases moved
    exact ⟨keeps.same, keeps.during.calm (.same rfl rfl rfl rfl)⟩
  | step label =>
    have stepped : (∀ flush, label ≠ .call flush) ∧ ∃ link, Link.next label run.link = some link ∧
        after = ⟨link, run.writes ++ (run.link.write? label).toList⟩ := by
      cases label with
      | call flush => cases moved
      | _ =>
        obtain ⟨link, stepped, rfl⟩ := Option.map_eq_some_iff.mp moved
        exact ⟨by simp, link, stepped, rfl⟩
    obtain ⟨inside, link, stepped, rfl⟩ := stepped
    refine ⟨fun write member => ?_, ?_⟩
    · rcases List.mem_append.mp member with old | new
      · exact keeps.same write old
      · obtain ⟨call, tries, app⟩ := Link.write?_eq (Option.mem_toList.mp new)
        have during := keeps.during
        unfold During at during
        rw [app] at during
        exact during.2.2.1.1
    · have counted : accepted (run.writes ++ (run.link.write? label).toList) =
          accepted run.writes + accepted (run.link.write? label).toList := List.countP_append
      rw [counted]
      cases label with
      | app env => exact keeps.during.appStep stepped
      | call flush => exact absurd rfl (inside flush)
      | _ => exact keeps.during.calm (calm_next stepped (by simp) (by simp))

end Begun

/-- Every retry carries the same packet: the `Write` calls of the call have its message and the
`m_seq` of its beginning, at most one of them is accepted, and a call that throws has given the
message back and left no packet in the queue. -/
structure SamePacket (message : Bytes) (seq : Int) (queue : List Packet) (sent : List Bytes)
    (run : OneSend) : Prop where
  same : ∀ write ∈ run.writes, write.1.body = message ∧ write.1.header.seq = seq
  once : (run.writes.filter (·.2)).length ≤ 1
  thrown : run.link.app = .idle → run.link.sent = sent → run.link.content = message ∧
    ∀ client, run.link.channel.client = .live client → client.notackQueue <:+ queue

theorem Begun.Keeps.samePacket {begun : Begun} {run : OneSend} (keeps : begun.Keeps run) :
    SamePacket begun.message begun.seq begun.queue begun.sent run := by
  have during := keeps.during
  unfold Begun.During Begun.accepted at during
  refine ⟨keeps.same, ?_, fun idle => ?_⟩
  · rw [← List.countP_eq_length_filter]
    split at during
    · rw [during.2.2.2]
      rename_i stage _
      cases stage <;> simp [Stage.pushing]
    · exact during.1
    · exact during
  · rw [idle] at during
    exact during.2

/-- From the beginning of a `real_send` of a v2 client to the next call of the application. -/
theorem real_send_same_packet {idle begun : Link} {run : OneSend} (client : RpcClient)
    (live : idle.channel.client = .live client)
    (speaks : client.useRpcVersion = ServiceVersion.v2.code ∨
      client.useRpcVersion = ServiceVersion.notInited.code)
    (pending : idle.pending = message :: rest) (called : idle.call false = some begun)
    (path : Reaches OneSend.next ⟨begun, []⟩ run) :
    SamePacket message client.seq client.notackQueue begun.sent run := by
  have app : begun.app = .calling (.send message) 0 .attempt ∧ begun.content = message ∧
      begun.channel = idle.channel := by
    unfold Link.call at called
    split at called
    · rw [pending] at called
      cases called
      exact ⟨rfl, rfl, rfl⟩
    · cases called
  obtain ⟨app, content, channel⟩ := app
  have initial : Begun.Keeps ⟨message, client.seq, client.notackQueue, begun.sent⟩ ⟨begun, []⟩ := by
    refine ⟨by simp, ?_⟩
    unfold Begun.During
    rw [app]
    refine ⟨rfl, rfl, ⟨content, fun other found => ?_⟩, rfl⟩
    rw [channel, live] at found
    cases found
    exact ⟨⟨rfl, List.suffix_refl _⟩, speaks⟩
  have keeps := path.invariant (Begun.Keeps ⟨message, client.seq, client.notackQueue, begun.sent⟩)
    initial fun _ _ _ before moved => before.step moved
  exact keeps.samePacket

/-- The first `Write` of the first message fails and the second is accepted. -/
def retryRun : List SendLabel :=
  [Label.app .works, .app .works, .app .breaks, .ack .start, .app .works, .ack .stop, .app .works,
    .app .works, .app .works, .app .works, .app .works, .app .works, .app .works,
    .app .works].map SendLabel.step

theorem real_send_same_packet_retry :
    ∃ begun run, Link.twoMessages.call false = some begun ∧
      run.writes.map (fun write => (write.1.body, write.1.header.seq, write.2)) =
        [([7], 0, false), ([7], 0, true)] ∧ SamePacket [7] 0 [] [] run := by
  have ran : (Link.twoMessages.call false).bind (fun begun =>
      (Lib.Transition.run OneSend.next retryRun ⟨begun, []⟩).map fun run =>
        (run.writes.map fun write => (write.1.body, write.1.header.seq, write.2), begun.sent)) =
      some ([([7], 0, false), ([7], 0, true)], []) := by
    decide +kernel
  obtain ⟨begun, called, ran⟩ := Option.bind_eq_some_iff.mp ran
  obtain ⟨run, finished, writes⟩ := Option.map_eq_some_iff.mp ran
  obtain ⟨same, sent⟩ := Prod.mk.inj writes
  have keeps := real_send_same_packet Link.twoMessages.channel.newClient rfl (Or.inr rfl)
    rfl called (Reaches.ofRun _ finished)
  rw [sent] at keeps
  exact ⟨begun, run, called, same, keeps⟩

end GaiaNet.Grpc
