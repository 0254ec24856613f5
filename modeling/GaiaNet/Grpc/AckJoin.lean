import GaiaNet.Grpc.AckLife

/-! Whether the ack thread is joined: the join test reads the status that the thread itself sets
with its first step. -/

namespace GaiaNet.Grpc

open Lib.Transition

/-- The client speaks a known version, and has a thread only with version 2. -/
structure RpcClient.Threaded (client : RpcClient) : Prop where
  known : client.useRpcVersion ≤ ServiceVersion.v2.code
  thread : client.recvThread = true → client.useRpcVersion = ServiceVersion.v2.code

namespace AckLife

structure Sound (life : AckLife) : Prop where
  fresh : life.fresh.Threaded ∧ life.fresh.recvThread = false
  client : ∀ client, life.client = some client → client.Threaded
  restores : ∀ tup, life.stage = .restore tup → ∀ client, life.client = some client →
    client.recvThread = false
  carried : ∀ tup, life.stage.carries = some tup → tup.useRpcVersion ≤ ServiceVersion.v2.code

/-- The thread of every client deleted after `finish` has been joined. -/
def AllJoined (life : AckLife) : Prop := ∀ client ∈ life.deleted, client.recvThread = false

/-- `finish` has returned without the join. -/
def skipped (life : AckLife) : Bool :=
  life.stage.retired && life.client.any RpcClient.recvThread

/-- At the join test a thread that was spawned has taken its first step. -/
def Started : Label → AckLife → Prop
  | .caller _ _, life => ∀ handsOver client, life.stage = .joining handsOver →
    life.client = some client → client.recvThread = true → client.recvThreadStatus ≠ .notInited
  | _, _ => True

/-- What a step does to the client's thread and to what is still to be deleted. -/
inductive Change (label : Label) (life after : AckLife) : Prop where
  | works (before : life.stage.retired = false) (stage : after.stage.retired = false)
    (carries : after.stage.carries = none)
    (client : ∀ client, after.client = some client → client.Threaded)
    (kept : after.fresh = life.fresh ∧ after.deleted = life.deleted) (started : Started label life)
  | steps {client new : RpcClient} (stage : after.stage = life.stage) (live : life.client = some client)
    (moved : after.client = some new) (version : new.useRpcVersion = client.useRpcVersion)
    (thread : new.recvThread = client.recvThread)
    (kept : after.fresh = life.fresh ∧ after.deleted = life.deleted) (started : Started label life)
  | leaves {client : RpcClient} (before : life.stage.retired = false)
    (stage : after.stage = .take ∨ after.stage = .delete none)
    (live : after.client = some client) (threaded : client.Threaded)
    (kept : after.fresh = life.fresh ∧ after.deleted = life.deleted)
    (started : Started label life ↔ client.recvThread = false)
  | takes {client new : RpcClient} (before : life.stage = .take)
    (live : life.client = some client)
    (stage : after.stage = .delete (some tup)) (moved : after.client = some new)
    (version : new.useRpcVersion = client.useRpcVersion)
    (thread : new.recvThread = client.recvThread)
    (gives : tup.useRpcVersion = client.useRpcVersion)
    (kept : after.fresh = life.fresh ∧ after.deleted = life.deleted) (started : Started label life)
  | deletes {client : RpcClient} (before : life.stage = .delete tup)
    (live : life.client = some client)
    (dead : after.client = none) (stage : after.stage.retired = false)
    (carries : ∀ given, after.stage.carries = some given → tup = some given)
    (fresh : after.fresh = life.fresh) (deleted : after.deleted = client :: life.deleted)
    (started : Started label life)
  | creates (before : life.stage = .create tup) (stage : after.stage = .restore tup)
    (moved : after.client = some life.fresh)
    (kept : after.fresh = life.fresh ∧ after.deleted = life.deleted) (started : Started label life)

variable {life after : AckLife} {client : RpcClient} {label : Label}

theorem started_of_stage (outside : ∀ handsOver, life.stage ≠ .joining handsOver)
    (label : Label) : Started label life := by
  cases label with
  | caller versions ok => exact fun handsOver client at_ => absurd at_ (outside handsOver)
  | send | finish | thread => exact trivial

theorem versionLoop_le {replies : Nat → VersionReply} (i remaining : Nat)
    (found : versionLoop replies i remaining = some version) :
    version ≤ ServiceVersion.v2.code := by
  induction remaining generalizing i with
  | zero => cases found
  | succ remaining ih =>
    unfold versionLoop at found
    split at found
    · cases found
      exact Int.min_le_right _ _
    · cases found
      decide
    · exact ih (i + 1) found

end AckLife

theorem RpcClient.Threaded.same {client new : RpcClient} (threaded : client.Threaded)
    (version : new.useRpcVersion = client.useRpcVersion)
    (thread : new.recvThread = client.recvThread) : new.Threaded := by
  constructor
  · rw [version]
    exact threaded.known
  · rw [version, thread]
    exact threaded.thread

theorem RpcClient.Threaded.no_thread {client : RpcClient} (threaded : client.Threaded)
    (other : client.useRpcVersion ≠ ServiceVersion.v2.code) : client.recvThread = false := by
  cases thread : client.recvThread with
  | false => rfl
  | true => exact absurd (threaded.thread thread) other

theorem RpcClient.Threaded.initSender {client : RpcClient}
    (known : client.useRpcVersion ≤ ServiceVersion.v2.code)
    (threadless : client.recvThread = false) : client.initSender.Threaded := by
  unfold RpcClient.initSender
  split
  · rename_i second
    exact ⟨known, fun _ => Int.le_antisymm known second⟩
  · exact ⟨known, fun thread => absurd thread (by simp [threadless])⟩

theorem RpcClient.Threaded.connect {client : RpcClient} {versions : Nat → VersionReply}
    (threaded : client.Threaded)
    (fresh : client.useRpcVersion = ServiceVersion.notInited.code)
    (connected : client.connect versions = some new) : new.Threaded := by
  unfold RpcClient.connect at connected
  cases found : versionLoop versions 0 20 with
  | none => simp [found] at connected
  | some version =>
    simp only [found] at connected
    split at connected
    · cases connected
    · cases connected
      have threadless := threaded.no_thread (by simp [fresh, ServiceVersion.code])
      exact RpcClient.Threaded.initSender (AckLife.versionLoop_le 0 20 found) threadless

namespace AckLife

variable {life after : AckLife} {client : RpcClient} {label : Label}

/-- A `Write` changes a stream of the client at most. -/
theorem tryWrite_works (sound : life.Sound) (live : life.client = some client)
    (before : life.stage.retired = false) (done : LifeStage)
    (inside : done.retired = false ∧ done.carries = none) (started : Started label life)
    (ok : Bool) (packet : Packet) : Change label life (life.tryWrite ok packet client done) := by
  have threaded := sound.client client live
  unfold tryWrite
  split
  · exact .works before rfl rfl sound.client ⟨rfl, rfl⟩ started
  · split
    · split
      · refine .works before inside.1 inside.2 (fun new same => ?_) ⟨rfl, rfl⟩ started
        cases same
        exact threaded.same rfl rfl
      · refine .works before rfl rfl (fun new same => ?_) ⟨rfl, rfl⟩ started
        cases same
        exact threaded.same rfl rfl
    · exact .works before rfl rfl sound.client ⟨rfl, rfl⟩ started

theorem leave_stage (handsOver : Bool) (life : AckLife) :
    (life.leave handsOver).stage = .take ∨ (life.leave handsOver).stage = .delete none := by
  cases handsOver with
  | true => exact Or.inl rfl
  | false => exact Or.inr rfl

/-- `finish` without a join test: the client has no thread. -/
theorem beginFinish_change (sound : life.Sound) (live : life.client = some client)
    (outside : life.stage = .outside) (started : Started label life) (handsOver : Bool) :
    Change label life (life.beginFinish handsOver client) := by
  have threaded := sound.client client live
  have before : life.stage.retired = false := by rw [outside]; rfl
  unfold beginFinish
  split
  · rename_i fresh
    have threadless := threaded.no_thread (by simp [fresh, ServiceVersion.code])
    exact .leaves before (leave_stage handsOver life) live threaded ⟨rfl, rfl⟩
      (iff_of_true started threadless)
  · split
    · rename_i first
      have threadless := threaded.no_thread (by simp [first, ServiceVersion.code])
      split
      · exact .works before rfl rfl sound.client ⟨rfl, rfl⟩ started
      · exact .leaves before (leave_stage handsOver _) rfl (threaded.same rfl rfl) ⟨rfl, rfl⟩
          (iff_of_true started threadless)
    · split
      · split
        · exact .works before rfl rfl sound.client ⟨rfl, rfl⟩ started
        · refine .works before rfl rfl (fun new same => ?_) ⟨rfl, rfl⟩ started
          cases same
          exact threaded.same rfl rfl
      · rename_i other
        exact .leaves before (leave_stage handsOver life) live threaded ⟨rfl, rfl⟩
          (iff_of_true started (threaded.no_thread other))

/-- The join is skipped exactly when the thread has not taken its first step. -/
theorem join_change (sound : life.Sound) (live : life.client = some client)
    (at_ : life.stage = .joining handsOver) (joined : life.join handsOver client = some after)
    (versions : Nat → VersionReply) (ok : Bool) : Change (.caller versions ok) life after := by
  have threaded := sound.client client live
  have before : life.stage.retired = false := by rw [at_]; rfl
  unfold join at joined
  split at joined
  · rename_i silent
    cases joined
    refine .leaves before (leave_stage handsOver life) live threaded ⟨rfl, rfl⟩
      ⟨fun started => ?_, fun threadless => ?_⟩
    · cases thread : client.recvThread with
      | false => rfl
      | true => exact absurd silent (started handsOver client at_ live thread)
    · intro _ other _ same thread
      rw [live] at same
      cases same
      rw [threadless] at thread
      cases thread
  · cases joined
  · rename_i ended
    cases joined
    refine .leaves before (leave_stage handsOver _) rfl ⟨threaded.known, fun thread => ?_⟩ ⟨rfl, rfl⟩
      (iff_of_true ?_ rfl)
    · cases thread
    · intro _ other _ same _
      rw [live] at same
      cases same
      rw [ended]
      decide

theorem take_change (live : life.client = some client) (at_ : life.stage = .take)
    (started : Started label life) :
    Change label life { life with
      client := some client.getContinueStatus.2
      stage := .delete (some client.getContinueStatus.1) } := by
  refine .takes at_ live rfl rfl ?_ ?_ ?_ ⟨rfl, rfl⟩ started
  all_goals
    unfold RpcClient.getContinueStatus
    split <;> rfl

theorem delete_change {tup : Option ContinueStatus} (live : life.client = some client)
    (at_ : life.stage = .delete tup) (started : Started label life) :
    Change label life (life.delete tup client) := by
  refine .deletes at_ live rfl ?_ (fun given => ?_) rfl rfl started
  all_goals
    unfold delete
    simp only
    split
  · rfl
  · cases tup <;> rfl
  · intro carried
    cases carried
  · cases tup with
    | none =>
      intro carried
      cases carried
    | some tup => exact id

/-- The new client spawns its thread, or stays without one. -/
theorem restored_threaded {tup : ContinueStatus} (known : tup.useRpcVersion ≤ ServiceVersion.v2.code)
    (threadless : client.recvThread = false) : (client.restored tup).Threaded :=
  RpcClient.Threaded.initSender known threadless

theorem callerStep_change (sound : life.Sound) (versions : Nat → VersionReply) (ok : Bool)
    (moved : life.callerStep versions ok = some after) :
    Change (.caller versions ok) life after := by
  have started (elsewhere : ∀ handsOver, life.stage ≠ .joining handsOver) :
      Started (.caller versions ok) life := started_of_stage elsewhere _
  unfold callerStep at moved
  split at moved
  case h_1 content client at_ live =>
    cases moved
    have before : life.stage.retired = false := by rw [at_]; rfl
    have elsewhere := started (by simp [at_])
    unfold beginSend
    split
    · rename_i fresh
      split
      · exact .works before rfl rfl sound.client ⟨rfl, rfl⟩ elsewhere
      · rename_i current connected
        refine .works before before (by rw [at_]; rfl) (fun new same => ?_) ⟨rfl, rfl⟩ elsewhere
        cases same
        exact (sound.client client live).connect fresh connected
    · split
      · exact .works before rfl rfl sound.client ⟨rfl, rfl⟩ elsewhere
      · exact .works before rfl rfl sound.client ⟨rfl, rfl⟩ elsewhere
  case h_2 packet client at_ live =>
    cases moved
    exact tryWrite_works sound live (by rw [at_]; rfl) _ ⟨rfl, rfl⟩ (started (by simp [at_])) ok packet
  case h_3 packet client at_ live =>
    cases moved
    refine .works (by rw [at_]; rfl) rfl rfl (fun new same => ?_) ⟨rfl, rfl⟩ (started (by simp [at_]))
    cases same
    exact (sound.client client live).same rfl rfl
  case h_4 handsOver client at_ live => exact join_change sound live at_ moved versions ok
  case h_5 client at_ live =>
    cases moved
    exact take_change live at_ (started (by simp [at_]))
  case h_6 tup client at_ live =>
    cases moved
    exact delete_change live at_ (started (by simp [at_]))
  case h_7 tup at_ _ =>
    have elsewhere := started (by simp [at_])
    split at moved
    · cases moved
      exact .creates at_ rfl rfl ⟨rfl, rfl⟩ elsewhere
    · cases moved
      exact .works (by rw [at_]; rfl) rfl rfl sound.client ⟨rfl, rfl⟩ elsewhere
  case h_8 tup client at_ live =>
    have before : life.stage.retired = false := by rw [at_]; rfl
    have elsewhere := started (by simp [at_])
    have threadless := sound.restores tup at_ client live
    have known := sound.carried tup (by rw [at_]; rfl)
    split at moved
    · cases moved
      refine .works before rfl rfl (fun new same => ?_) ⟨rfl, rfl⟩ elsewhere
      cases same
      exact restored_threaded known threadless
    · cases moved
      refine .works before rfl rfl (fun new same => ?_) ⟨rfl, rfl⟩ elsewhere
      cases same
      exact ⟨known, fun thread => absurd thread (by simp [threadless])⟩
  case h_9 rest client at_ live =>
    cases moved
    exact .works (by rw [at_]; rfl) rfl rfl sound.client ⟨rfl, rfl⟩ (started (by simp [at_]))
  case h_10 client at_ live =>
    cases moved
    exact .works (by rw [at_]; rfl) rfl rfl sound.client ⟨rfl, rfl⟩ (started (by simp [at_]))
  case h_11 packet rest client at_ live =>
    cases moved
    exact tryWrite_works sound live (by rw [at_]; rfl) _ ⟨rfl, rfl⟩ (started (by simp [at_])) ok packet
  case h_12 => cases moved

/-- A step of the thread leaves it as joinable as it was. -/
theorem threadStep_change {step : AckStep} (live : life.client = some client)
    (moved : life.threadStep client step = some after) : Change (.thread step) life after := by
  cases step with
  | start | stop =>
    simp only [threadStep, Option.ite_none_right_eq_some, Option.some.injEq] at moved
    obtain ⟨-, rfl⟩ := moved
    exact .steps rfl live rfl rfl rfl ⟨rfl, rfl⟩ trivial
  | read =>
    simp only [threadStep, Option.ite_none_right_eq_some, Option.some.injEq] at moved
    obtain ⟨-, rfl⟩ := moved
    exact .steps rfl live live rfl rfl ⟨rfl, rfl⟩ trivial
  | pop =>
    simp only [threadStep, Option.ite_none_right_eq_some, Option.some.injEq] at moved
    obtain ⟨-, rfl⟩ := moved
    exact .steps rfl live rfl rfl rfl ⟨rfl, rfl⟩ trivial

theorem Change.of_next (sound : life.Sound) (moved : next label life = some after) :
    Change label life after := by
  cases label with
  | send content =>
    simp only [next] at moved
    split at moved
    · rename_i at_ _
      cases moved
      exact .works (by rw [at_]; rfl) rfl rfl sound.client ⟨rfl, rfl⟩ trivial
    · cases moved
  | finish handsOver =>
    simp only [next] at moved
    split at moved
    · rename_i at_ live
      have started : Started (.finish handsOver) life := trivial
      cases moved
      exact beginFinish_change sound live at_ started handsOver
    · cases moved
  | caller versions ok => exact callerStep_change sound versions ok moved
  | thread step =>
    simp only [next] at moved
    split at moved
    · rename_i live
      split at moved
      · exact threadStep_change live moved
      · cases moved
    · cases moved

theorem Sound.step (sound : life.Sound) (moved : next label life = some after) : after.Sound := by
  cases Change.of_next sound moved with
  | works _ stage carries client kept =>
    refine ⟨kept.1 ▸ sound.fresh, client, fun tup at_ => ?_, fun tup carried => ?_⟩
    · rw [at_] at carries
      cases carries
    · rw [carries] at carried
      cases carried
  | steps stage live now version thread kept =>
    refine ⟨kept.1 ▸ sound.fresh, fun new same => ?_, fun tup at_ new same => ?_, ?_⟩
    · rw [now] at same
      cases same
      exact (sound.client _ live).same version thread
    · rw [now] at same
      cases same
      rw [stage] at at_
      exact thread.trans (sound.restores tup at_ _ live)
    · rw [stage]
      exact sound.carried
  | leaves _ stage live threaded kept =>
    refine ⟨kept.1 ▸ sound.fresh, fun new same => ?_, fun tup at_ => ?_, fun tup carried => ?_⟩
    · rw [live] at same
      cases same
      exact threaded
    · rcases stage with taken | deleted
      · rw [taken] at at_
        cases at_
      · rw [deleted] at at_
        cases at_
    · rcases stage with taken | deleted
      · rw [taken] at carried
        cases carried
      · rw [deleted] at carried
        cases carried
  | takes _ live stage now version thread gives kept =>
    refine ⟨kept.1 ▸ sound.fresh, fun new same => ?_, fun tup at_ => ?_, fun tup carried => ?_⟩
    · rw [now] at same
      cases same
      exact (sound.client _ live).same version thread
    · rw [stage] at at_
      cases at_
    · rw [stage] at carried
      cases carried
      rw [gives]
      exact (sound.client _ live).known
  | deletes at_ _ dead _ carries fresh =>
    refine ⟨fresh ▸ sound.fresh, fun new same => ?_, fun tup _ new same => ?_, fun tup carried => ?_⟩
    · rw [dead] at same
      cases same
    · rw [dead] at same
      cases same
    · apply sound.carried tup
      rw [at_]
      exact carries tup carried
  | creates at_ stage now kept =>
    refine ⟨kept.1 ▸ sound.fresh, fun new same => ?_, fun tup _ new same => ?_, fun tup carried => ?_⟩
    · rw [now] at same
      cases same
      exact sound.fresh.1
    · rw [now] at same
      cases same
      exact sound.fresh.2
    · apply sound.carried tup
      rw [at_]
      rw [stage] at carried
      exact carried

/-- No join has been skipped so far. -/
def NoneSkipped (life : AckLife) : Prop := life.AllJoined ∧ life.skipped = false

/-- Only a join test skips a join, and the join that was skipped is not made up for. -/
theorem NoneSkipped.step (sound : life.Sound) (moved : next label life = some after) :
    after.NoneSkipped ↔ life.NoneSkipped ∧ Started label life := by
  unfold NoneSkipped AllJoined skipped
  cases Change.of_next sound moved with
  | works before stage _ _ kept started => simp [before, stage, kept.2, started]
  | steps stage live now _ thread kept started =>
    simp [stage, live, now, thread, kept.2, started]
  | leaves before stage live _ kept started =>
    have retired : after.stage.retired = true := by
      rcases stage with taken | deleted
      · rw [taken]; rfl
      · rw [deleted]; rfl
    simp [before, retired, live, kept.2, started]
  | takes at_ live stage now _ thread _ kept started =>
    simp [at_, live, stage, now, thread, kept.2, started, LifeStage.retired]
  | deletes at_ live dead stage _ _ deleted started =>
    simp [at_, live, dead, deleted, started, LifeStage.retired, and_comm]
  | creates at_ stage _ kept started =>
    simp [at_, stage, kept.2, started, LifeStage.retired]

theorem start_sound (taskid : String) (partyid toPartyid : UInt32) (useRedis : Bool)
    (redisTimeoutEnv : Option Int) :
    (start taskid partyid toPartyid useRedis redisTimeoutEnv).Sound := by
  have fresh : (RpcClient.init partyid toPartyid useRedis redisTimeoutEnv).Threaded :=
    ⟨(by decide : ServiceVersion.notInited.code ≤ ServiceVersion.v2.code),
      fun thread => by cases thread⟩
  refine ⟨⟨fresh, rfl⟩, fun new same => ?_, fun tup at_ => ?_, fun tup carried => ?_⟩
  · cases same
    exact fresh
  · cases at_
  · cases carried

/-- Where each join test finds the thread started, every client that is deleted has had its
thread joined; and a run that does not end on the way from a `finish` to the end of the client
joins them all in no other case. -/
theorem ack_thread_joined {final : AckLife} (taskid : String) (partyid toPartyid : UInt32)
    (useRedis : Bool) (redisTimeoutEnv : Option Int) (labels : List Label)
    (finished : run next labels (start taskid partyid toPartyid useRedis redisTimeoutEnv) =
      some final) :
    let meets := Meets next Started labels (start taskid partyid toPartyid useRedis redisTimeoutEnv)
    (meets → final.AllJoined) ∧ (final.stage.retired = false → final.AllJoined → meets) := by
  have whole := Meets.iff_of_run AckLife.Sound NoneSkipped
    (fun _ _ _ sound moved => sound.step moved) (fun _ _ _ sound moved => NoneSkipped.step sound moved)
    labels (start_sound _ _ _ _ _) finished
  have none : (start taskid partyid toPartyid useRedis redisTimeoutEnv).NoneSkipped := by
    refine ⟨fun client old => ?_, rfl⟩
    cases old
  refine ⟨fun meets => (whole.mpr ⟨none, meets⟩).1, fun complete joined => ?_⟩
  exact (whole.mp ⟨joined, by simp [skipped, complete]⟩).2

/-- Each outcome is good, and the server speaks version 2. -/
def go : Label := .caller (fun _ => .ok 2) true

/-- One message is sent, and acknowledged if the thread gets to run; then the channel ends. -/
def oneMessage (thread : List AckStep) (last : List AckStep) : List Label :=
  .send [7] :: go :: go :: go :: go :: thread.map .thread ++ .finish false :: last.map .thread ++
    [go, go]

theorem ack_thread_joined_once :
    ∃ final, run next (oneMessage [.start, .read, .pop] [.stop]) (start "task" 1 2 true none) =
        some final ∧ final.stage = .gone ∧
      Meets next Started (oneMessage [.start, .read, .pop] [.stop]) (start "task" 1 2 true none) := by
  have ran : (run next (oneMessage [.start, .read, .pop] [.stop]) (start "task" 1 2 true none)).map
      (fun final => (final.stage, final.deleted.map RpcClient.recvThread)) =
        some (.gone, [false]) := by
    decide +kernel
  obtain ⟨final, finished, same⟩ := Option.map_eq_some_iff.mp ran
  simp only [Prod.mk.injEq] at same
  obtain ⟨gone, joined⟩ := same
  have complete : final.stage.retired = false := by rw [gone]; rfl
  refine ⟨final, finished, gone, (ack_thread_joined "task" 1 2 true none _ finished).2 complete ?_⟩
  intro client old
  have mapped := List.mem_map_of_mem (f := RpcClient.recvThread) old
  rw [joined] at mapped
  exact List.mem_singleton.mp mapped

/-- The thread does not get to run before `finish`: its client is deleted with a joinable thread,
which ends the process. -/
theorem ack_thread_not_joined :
    ∃ final, run next (oneMessage [] []) (start "task" 1 2 true none) = some final ∧
      ¬ final.AllJoined ∧ final.stage = .crashed := by
  have ran : (run next (oneMessage [] []) (start "task" 1 2 true none)).map
      (fun final => (final.stage, final.deleted.map RpcClient.recvThread)) =
        some (.crashed, [true]) := by
    decide +kernel
  obtain ⟨final, finished, same⟩ := Option.map_eq_some_iff.mp ran
  simp only [Prod.mk.injEq] at same
  obtain ⟨crashed, joinable⟩ := same
  refine ⟨final, finished, fun joined => ?_, crashed⟩
  have mapped : true ∈ final.deleted.map RpcClient.recvThread := by
    rw [joinable]
    exact List.mem_singleton.mpr rfl
  obtain ⟨client, old, thread⟩ := List.mem_map.mp mapped
  rw [joined client old] at thread
  cases thread

end AckLife

end GaiaNet.Grpc
