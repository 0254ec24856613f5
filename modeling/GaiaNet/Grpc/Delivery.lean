import GaiaNet.Grpc.Account
import GaiaNet.Grpc.LinkCalls

/-! Over every run of a link the receiver is given the promised messages in order, each
once, unless a `real_send` drops its message. -/

namespace GaiaNet.Grpc

open Lib Lib.Transition

/-- The steps of runs in which no `real_send` drops its message. -/
def Link.keeping (label : Label) (link : Link) : Option Link :=
  if link.drops label then none else Link.next label link

theorem start_implements (few : messages.length < 2 ^ 31) (lossless : Prop) :
    Implements lossless (Link.start fromParty toParty taskid serverAddress metaMap redisTimeoutEnv
      messages) Replay.State.empty where
  numbered := by
    intro i packet found
    cases found
  bounded := by
    show 0 + 0 + messages.length < _
    omega
  serves := ⟨rfl, fun k handler span held => by cases held⟩
  listed := ⟨rfl, fun n i found => by cases found⟩
  reads := ⟨Nat.le_refl 0, ⟨rfl, rfl⟩, rfl⟩
  sending := .unconnected rfl rfl ⟨rfl, ⟨rfl, rfl⟩, rfl, rfl, rfl, rfl⟩
  messages := by
    intro call round stage there
    cases there
  kept := List.Sublist.refl _
  whole := fun _ => rfl

/-- A run of the link follows a run of the replay log. -/
theorem run_implements {next : Label → Link → Option Link}
    (implements : Implements lossless start Replay.State.empty)
    (allowed : ∀ label before after, next label before = some after →
      Link.next label before = some after ∧ (lossless → before.drops label = false))
    (reached : Reaches next start link) :
    ∃ log, Reaches Replay.next Replay.State.empty log ∧ Implements lossless link log := by
  refine reached.related (Implements lossless) implements ?_
  intro label before after old path holds moved
  obtain ⟨step, keeps⟩ := allowed label before after moved
  exact next_follows holds (Replay.reaches_sound path) keeps step

/-- What the receiver has is the beginning of what the log has accepted. -/
theorem Implements.delivered_prefix (implements : Implements lossless link log) :
    link.delivered <+: log.items.map Packet.body := by
  rw [implements.reads.contents]
  exact (Replay.State.taken_prefix link.popped log).map Packet.body

/-- The application is between two calls, its client has no packet to be acknowledged, and the
receiver has popped the whole list. -/
structure Link.Drained (link : Link) : Prop where
  idle : link.app = .idle
  queue : ∃ client, link.channel.client = .live client ∧ client.notackQueue = []
  popped : link.popped = link.redis.length

/-- All accepted packets are acknowledged once the queue is empty. -/
theorem Implements.acked_all (implements : Implements lossless link log) (drained : link.Drained) :
    log.items.length ≤ log.acked := by
  obtain ⟨client, live, empty⟩ := drained.queue
  have idle := drained.idle
  cases implements.sending with
  | connected same settled holds =>
    cases live.symm.trans same
    have queue := holds.queue
    rw [idle, empty] at queue
    exact List.drop_eq_nil_iff.mp queue.symm
  | unconnected early same holds =>
    rw [holds.items]
    exact Nat.zero_le _
  | lost early gone | deleted stage gone => cases live.symm.trans gone
  | created stage =>
    rw [idle] at stage
    cases stage

theorem Implements.delivered_all (implements : Implements lossless link log)
    (sound : Replay.Sound log) (drained : link.Drained) :
    link.delivered = log.items.map Packet.body := by
  have whole : link.popped = log.log.length := drained.popped.trans implements.listed.length
  have enough : log.items.length ≤ Replay.wanted log.log :=
    Nat.le_trans (implements.acked_all drained) sound.acked
  rw [implements.reads.contents, whole]
  unfold Replay.State.taken
  rw [List.take_length, List.take_of_length_le enough]

/-- A packet that is being pushed carries the message of the running `real_send`. -/
theorem Implements.promised_account (implements : Implements lossless link log) :
    link.promised <+: link.account := by
  have empty (calm : link.app.stage.pushing = []) : link.promised <+: link.account := by
    unfold Link.promised Link.account
    rw [calm, List.map_nil, List.append_nil, List.append_assoc]
    exact List.prefix_append _ _
  cases app : link.app with
  | idle | crashed fault => exact empty (by rw [app]; rfl)
  | calling call round stage =>
    cases stage with
    | push packet =>
      have sends : call = .send packet.body := implements.messages _ _ _ app
      unfold Link.promised Link.account
      rw [app, sends]
      exact List.prefix_append _ _
    | _ => exact empty (by rw [app]; rfl)

/-- In all runs the receiver gets messages that were sent, each at most once, in order. -/
theorem delivered_sublist (few : messages.length < 2 ^ 31)
    (reached : Reaches Link.next (Link.start fromParty toParty taskid serverAddress metaMap
      redisTimeoutEnv messages) link) : link.delivered.Sublist link.promised := by
  obtain ⟨log, -, implements⟩ := run_implements (start_implements few False)
    (fun _ _ _ moved => ⟨moved, False.elim⟩) reached
  exact implements.delivered_prefix.sublist.trans implements.kept

theorem keeping_next (moved : Link.keeping label link = some after) :
    Link.next label link = some after ∧ link.drops label = false := by
  unfold Link.keeping at moved
  split at moved
  · cases moved
  · rename_i keeps
    exact ⟨moved, by simpa using keeps⟩

/-- In every run in which no `real_send` drops its message, what the receiver has is a
prefix of the messages whose `real_send` has returned, followed by the one whose packet is
written; these are messages of the application in their order; and once the queue of the client
and the list are drained the receiver has them all. -/
theorem delivered_in_order (fromParty toParty : UInt32) (taskid serverAddress : String)
    (metaMap : List (String × String)) (redisTimeoutEnv : Option Int) (messages : List Bytes)
    (link : Link) (few : messages.length < 2 ^ 31)
    (reached : Reaches Link.keeping (Link.start fromParty toParty taskid serverAddress metaMap
      redisTimeoutEnv messages) link) :
    link.delivered <+: link.promised ∧ link.promised.Sublist messages ∧
      (link.Drained → link.delivered = link.promised) := by
  obtain ⟨log, path, implements⟩ := run_implements (start_implements few True)
    (fun _ _ _ moved => ⟨(keeping_next moved).1, fun _ => (keeping_next moved).2⟩) reached
  refine ⟨?_, ?_, fun drained => ?_⟩
  · rw [← implements.whole trivial]
    exact implements.delivered_prefix
  · have accounted : link.account.Sublist messages :=
      reached.invariant (fun link => link.account.Sublist messages) (List.Sublist.refl _)
        fun _ _ _ before moved => (account_next (keeping_next moved).1).trans before
    exact implements.promised_account.sublist.trans accounted
  · rw [← implements.whole trivial]
    exact implements.delivered_all (Replay.reaches_sound path) drained

/-- The answers with which every step of the application goes through. -/
def StepEnv.works : StepEnv := ⟨fun _ => .ok 2, true, true, false⟩

def StepEnv.breaks : StepEnv := { StepEnv.works with ok := false }

def Link.twoMessages : Link := Link.start 1 2 "task" "server" [] none [[7], [8]]

/-- The first message is at the server when the second `Write` fails; the packet sent again
is appended after that of the broken stream. -/
def reconnectRun : List Label :=
  [.call false, .app .works, .ack .start, .app .works, .app .works, .app .works, .receive,
    .call false, .app .works, .app .breaks, .app .works, .ack .stop, .app .works, .app .works,
    .app .works, .app .works, .append 1, .app .works, .app .works, .receive, .append 0, .pop, .pop,
    .app .works, .app .works, .app .works, .acknowledge 0, .receive, .append 0, .pop]

theorem delivered_in_order_reconnect :
    ∃ link, run Link.keeping reconnectRun Link.twoMessages = some link ∧
      link.delivered = [[7], [8]] ∧ link.delivered <+: link.promised ∧
      link.promised.Sublist [[7], [8]] ∧ (link.Drained → link.delivered = link.promised) := by
  have ran : (run Link.keeping reconnectRun Link.twoMessages).map Link.delivered =
      some [[7], [8]] := by
    decide +kernel
  obtain ⟨link, finished, delivered⟩ := Option.map_eq_some_iff.mp ran
  exact ⟨link, finished, delivered, delivered_in_order 1 2 "task" "server" [] none [[7], [8]] link
    (by decide) (Reaches.ofRun _ finished)⟩

/-- A round in which the `Write` fails and the reconnect succeeds with an empty queue. -/
def refusedRound : List Label :=
  [.app .works, .app .breaks, .ack .start, .app .works, .ack .stop, .app .works, .app .works,
    .app .works, .app .works, .app .works]

/-- All rounds of the first `real_send` are refused; the second message goes through. -/
def droppedRun : List Label :=
  [.call false, .app .works] ++ (List.replicate maxRetry refusedRound).flatten ++
    [.call false, .app .works, .app .works, .app .works, .receive, .append 0, .pop]

/-- The receiver is given the second message in place of the first. -/
theorem delivered_out_of_order :
    ¬ ∀ link, Reaches Link.next Link.twoMessages link → link.delivered <+: link.promised := by
  intro ordered
  have ran : (run Link.next droppedRun Link.twoMessages).map
      (fun link => (link.delivered, link.promised)) = some ([[8]], [[7], [8]]) := by
    decide +kernel
  obtain ⟨link, finished, same⟩ := Option.map_eq_some_iff.mp ran
  have begins := ordered link (Reaches.ofRun _ finished)
  rw [(Prod.mk.inj same).1, (Prod.mk.inj same).2] at begins
  exact absurd begins (by decide)

end GaiaNet.Grpc
