import GaiaNet.Grpc.Reconnect

/-! What a channel still holds after `create_channel` has thrown in a reconnect. -/

namespace GaiaNet.Grpc

open Lib.Hoare Lib.Retry

/-- The three callers of a reconnect. -/
inductive Caller where
  | realSend (rounds : Nat → SendRound)
  | realRecv (pulls : List RecvEnv) (rounds : Nat → RecvRound)
  | flush (rounds : Nat → FlushRound)

def Caller.run : Caller → CallM Unit
  | .realSend rounds => Grpc.realSend rounds
  | .realRecv pulls rounds => Grpc.realRecv pulls rounds
  | .flush rounds => do
    let _ ← Grpc.flush rounds

def Caller.attempt : Caller → Nat → CallM (Option Bool)
  | .realSend rounds => sendAttempt rounds
  | .realRecv _ rounds => recvAttempt rounds
  | .flush rounds => flushAttempt rounds

def Caller.reconnects : Caller → Nat → ReconnectEnv
  | .realSend rounds => fun i => (rounds i).reconnect
  | .realRecv _ rounds => fun i => (rounds i).reconnect
  | .flush rounds => fun i => (rounds i).reconnect

/-- The caller goes through its retry loop; `real_recv` only with Redis. -/
def Caller.Loops (start : CallState) : Caller → Prop
  | .realRecv _ _ => start.channel.useRedis = true
  | _ => True

/-- The channel can go on from where it was: what is unacknowledged, `m_seq` and `m_recv_idx`. -/
def Continues (before after : CallState) : Prop :=
  ∃ old new, before.channel.client = .live old ∧ after.channel.client = .live new ∧
    new.notackQueue <:+ old.notackQueue ∧ new.seq = old.seq ∧ new.recvIdx = old.recvIdx

/-- When a reconnect throws out of the call, the channel can go on. -/
def KeepsState (caller : Caller) (start : CallState) : Prop :=
  ∀ address after, caller.run start = .error (.thrown (.connectServer address)) after →
    Continues start after

/-- Some reconnect of the call reaches `create_channel` and finds no server. -/
def MeetsNoServer (caller : Caller) (start : CallState) : Prop :=
  caller.Loops start ∧ ∃ k < maxRetry, ∃ last before middle,
    RefusedRounds caller.attempt caller.reconnects start k last before ∧
      caller.attempt k before = .ok none middle ∧ CanReconnect (caller.reconnects k) middle ∧
      (caller.reconnects k).connected = false

/-- A program that does not throw what `create_channel` throws. -/
def NeverConnects (prog : EStateM Abort State Value) : Prop :=
  Triple (fun _ => True) prog (fun _ _ => True)
    fun abort _ => ∀ address, abort ≠ .thrown (.connectServer address)

theorem get_neverConnects : NeverConnects (get : EStateM Abort State State) := fun _ _ => trivial

theorem pure_neverConnects (value : Value) :
    NeverConnects (pure value : EStateM Abort State Value) :=
  fun _ _ => trivial

theorem NeverConnects.bind {prog : EStateM Abort State Value}
    {rest : Value → EStateM Abort State Next} (first : NeverConnects prog)
    (second : ∀ value, NeverConnects (rest value)) : NeverConnects (prog >>= rest) :=
  Triple.bind first second

theorem NeverConnects.map {prog : EStateM Abort State Value} (own : NeverConnects prog)
    (wrap : Value → Next) : NeverConnects (prog >>= fun value => pure (wrap value)) :=
  own.bind fun value => pure_neverConnects (wrap value)

theorem onClient_neverConnects {prog : ClientM Value} (side : Side) (own : NeverConnects prog) :
    NeverConnects (onClient side prog) := by
  intro state _
  cases found : state.channel.handle side with
  | null | dangling =>
    obtain ⟨fault, failed⟩ := onClient_notLive prog side state (by simp [found])
    rw [failed]
    exact fun address same => by cases same
  | live client =>
    have called := own ⟨client, state.str⟩ trivial
    rw [onClient_live _ found]
    cases result : prog ⟨client, state.str⟩ with
    | ok value inner => trivial
    | error abort inner =>
      rw [result] at called
      exact called

theorem send_neverConnects (taskid : String) (env : SendEnv) : NeverConnects (send taskid env) := by
  rintro ⟨client, content⟩ -
  have ended := send_ends taskid env client content
  revert ended
  generalize send taskid env ⟨client, content⟩ = result
  intro ended
  cases ended with
  | unconnected _ => exact fun address same => by cases same
  | nullStream _ _ _ => exact fun address same => by cases same
  | streamEnded _ _ | writeFailed _ _ _ _ | accepted _ _ _ _ => trivial

theorem recv_neverConnects (taskid : String) (withResend : Bool) (env : RecvEnv) :
    NeverConnects (recv taskid withResend env) := by
  rintro ⟨client, content⟩ -
  have ended := recv_ends taskid withResend env client content
  revert ended
  generalize recv taskid withResend env ⟨client, content⟩ = result
  intro ended
  cases ended with
  | aborted _ own => exact own
  | delivered _ _ | refused _ _ _ => trivial

theorem waitFlush_neverConnects (maxMsec : Nat) (polls : List FlushPoll) :
    NeverConnects (waitFlush maxMsec polls) := by
  rintro ⟨client, content⟩ -
  have ended := waitFlush_ends maxMsec polls client content
  revert ended
  generalize waitFlush maxMsec polls ⟨client, content⟩ = result
  intro ended
  cases ended with
  | waiting _ => exact fun address same => by cases same
  | flushed _ _ | unflushed _ _ => trivial

theorem attempt_neverConnects (caller : Caller) (i : Nat) : NeverConnects (caller.attempt i) := by
  cases caller with
  | realSend rounds =>
    exact get_neverConnects.bind fun state =>
      (onClient_neverConnects .client (send_neverConnects _ _)).map _
  | realRecv pulls rounds =>
    exact get_neverConnects.bind fun state =>
      (onClient_neverConnects .client (recv_neverConnects _ _ _)).map _
  | flush rounds => exact (onClient_neverConnects .client (waitFlush_neverConnects _ _)).map _

theorem pullLoop_neverConnects (pulls : List RecvEnv) : NeverConnects (pullLoop pulls) := by
  induction pulls with
  | nil => exact fun _ _ address same => by cases same
  | cons env envs ih =>
    refine get_neverConnects.bind fun state =>
      (onClient_neverConnects .rcvClient (recv_neverConnects _ _ _)).bind fun result => ?_
    exact Triple.ite (fun _ => pure_neverConnects _) fun _ => ih

/-- The retry loop of a caller. -/
def Caller.loop (caller : Caller) : CallM (Ending Bool) :=
  retry caller.attempt (fun i => reconnect (caller.reconnects i)) 0 maxRetry false

/-- A call makes of the end of its loop a return or an exception, and counts. -/
inductive Concludes : EStateM.Result Abort CallState (Ending Bool) →
    EStateM.Result Abort CallState Unit → Prop where
  | failed : Concludes (.error abort after) (.error abort after)
  | threw (own : ∀ address, exception ≠ .connectServer address) :
    Concludes (.ok ending after) (.error (.thrown exception) after)
  | returned (stats : Statistics) : Concludes (.ok ending after)
    (.ok ⟨⟩ { after with channel := { after.channel with stats := stats } })

theorem run_concludes {caller : Caller} (loops : caller.Loops start) :
    Concludes (caller.loop start) (caller.run start) := by
  unfold Caller.loop
  cases caller with
  | realSend rounds =>
    simp only [Caller.attempt, Caller.reconnects, Caller.run, realSend_eq]
    cases retry (sendAttempt rounds) (fun i => reconnect (rounds i).reconnect) 0 maxRetry false
      start with
    | error abort after => exact .failed
    | ok ending after =>
      simp only
      split
      · exact .returned _
      · exact .threw (by simp)
  | realRecv pulls rounds =>
    simp only [Caller.attempt, Caller.reconnects, Caller.run, realRecv_redis pulls rounds start loops]
    cases retry (recvAttempt rounds) (fun i => reconnect (rounds i).reconnect) 0 maxRetry false
      start with
    | error abort after => exact .failed
    | ok ending after =>
      simp only
      split
      · exact .returned _
      · exact .threw (by simp)
  | flush rounds =>
    simp only [Caller.attempt, Caller.reconnects, Caller.run, run_bind, flush_eq]
    cases retry (flushAttempt rounds) (fun i => reconnect (rounds i).reconnect) 0 maxRetry false
      start with
    | error abort after => exact .failed
    | ok ending after => cases ending <;> exact .returned after.channel.stats

/-- With Redis every caller goes through its loop. -/
theorem Caller.loops_redis (caller : Caller) (redis : start.channel.useRedis = true) :
    caller.Loops start := by
  cases caller with
  | realSend | flush => trivial
  | realRecv => exact redis

theorem MeetsNoServer.loop (meets : MeetsNoServer caller start) :
    ∃ address after, caller.loop start = .error (.thrown (.connectServer address)) after ∧
      after.channel.client = .null := by
  obtain ⟨-, k, inside, last, before, middle, reached, tried, ⟨client, live, able⟩, offline⟩ := meets
  have ended := reconnect_ends (caller.reconnects k) live
  cases repaired : reconnect (caller.reconnects k) middle with
  | ok ret after =>
    rw [repaired] at ended
    have online := ended.connected
    rw [offline] at online
    cases online
  | error abort after =>
    rw [repaired] at ended
    cases ended with
    | fault stuck _ => exact absurd able stuck
    | refused _ _ _ gone =>
      exact ⟨_, after, reached.retry_repair_error inside tried repaired, gone⟩

theorem loop_noServer (failed : Caller.loop caller start = .error (.thrown (.connectServer address)) after) :
    ∃ k < maxRetry, ∃ last before middle,
      RefusedRounds caller.attempt caller.reconnects start k last before ∧
        caller.attempt k before = .ok none middle ∧ CanReconnect (caller.reconnects k) middle ∧
        (caller.reconnects k).connected = false := by
  have ended : Lib.Retry.Ends caller.attempt (fun i => reconnect (caller.reconnects i)) false start
    maxRetry (caller.loop start) := retry_ends maxRetry
  rw [failed] at ended
  cases ended with
  | @attemptFailed k last before _ _ inside reached tried =>
    have own := attempt_neverConnects caller k before trivial
    rw [tried] at own
    exact absurd rfl (own address)
  | @repairFailed k last before middle _ _ inside reached tried repaired =>
    obtain ⟨-, ⟨⟨fault, same⟩, -⟩ | ⟨-, able, offline, -⟩⟩ := reconnect_error repaired
    · cases same
    · exact ⟨k, inside, last, before, middle, reached, tried, able, offline⟩

/-- A caller throws what `create_channel` throws exactly when its loop does. -/
theorem run_connectServer (caller : Caller) (start after : CallState) (address : String) :
    caller.run start = .error (.thrown (.connectServer address)) after ↔
      caller.Loops start ∧ caller.loop start = .error (.thrown (.connectServer address)) after := by
  by_cases loops : caller.Loops start
  · rw [and_iff_right loops]
    have concluded := run_concludes loops
    revert concluded
    generalize caller.loop start = ending
    generalize caller.run start = result
    intro concluded
    cases concluded with
    | failed => simp
    | @threw _ _ exception own =>
      constructor
      · intro same
        cases same
        exact absurd rfl (own address)
      · intro same
        cases same
    | returned stats => simp
  · refine iff_of_false ?_ fun failed => loops failed.1
    cases caller with
    | realSend | flush => exact absurd trivial loops
    | realRecv pulls rounds =>
      have own := pullLoop_neverConnects pulls start trivial
      have offline : start.channel.useRedis = false := eq_false_of_ne_true loops
      simp only [Caller.run]
      unfold Grpc.realRecv
      simp only [run_bind, run_get, offline, Bool.false_eq_true, not_false_eq_true, if_true]
      cases result : pullLoop pulls start with
      | ok _ final => exact fun same => by cases same
      | error abort final =>
        rw [result] at own
        intro same
        cases same
        exact own address rfl

theorem meetsNoServer_not_kept (meets : MeetsNoServer caller start) : ¬ KeepsState caller start := by
  intro keeps
  obtain ⟨address, after, failed, gone⟩ := meets.loop
  obtain ⟨old, new, -, live, -⟩ := keeps address after
    ((run_connectServer caller start after address).mpr ⟨meets.1, failed⟩)
  rw [gone] at live
  cases live

/-- A reconnect that finds no server leaves the channel without a client: only calls
that meet no such reconnect keep the state. -/
theorem failed_reconnect_keeps_state (caller : Caller) (start : CallState) :
    KeepsState caller start ↔ ¬ MeetsNoServer caller start := by
  constructor
  · intro keeps meets
    exact meetsNoServer_not_kept meets keeps
  · intro finds address after failed
    obtain ⟨loops, failed⟩ := (run_connectServer caller start after address).mp failed
    exact absurd ⟨loops, loop_noServer failed⟩ finds

/-- The server cannot be reached again. -/
def offlineReconnect : ReconnectEnv :=
  { quietReconnect with connected := false }

def offlineSend : SendRound where
  send := { versions := fun _ => .failed, thread := ⟨true, 0, false⟩, write := false }
  reconnect := offlineReconnect

def offlineRecv : RecvRound where
  recv := { polls := fun _ => [.empty ⟨true, 0, true⟩], pull := .failed }
  reconnect := offlineReconnect

def offlineFlush : FlushRound where
  polls := [⟨⟨true, 0, true⟩, true, 0⟩]
  reconnect := offlineReconnect

/-- Each caller loses the unacknowledged packet when the server is gone. -/
theorem failed_reconnect_loses_packet :
    ¬ KeepsState (.realSend fun _ => offlineSend) ⟨Channel.sample [lostPacket], [7], []⟩ ∧
      ¬ KeepsState (.realRecv [] fun _ => offlineRecv) ⟨Channel.sample [lostPacket], [], []⟩ ∧
      ¬ KeepsState (.flush fun _ => offlineFlush) ⟨Channel.sample [lostPacket], [], []⟩ := by
  refine ⟨meetsNoServer_not_kept ⟨trivial, ?_⟩, meetsNoServer_not_kept ⟨rfl, ?_⟩,
    meetsNoServer_not_kept ⟨trivial, ?_⟩⟩
  all_goals
    refine ⟨0, by decide, false, _, _, .zero, rfl, ⟨_, rfl, ⟨⟨?_, ?_⟩, rfl⟩, ?_⟩, rfl⟩
    · intro first
      cases first
    · intro _ missing
      cases missing
    · intro offline
      cases offline

end GaiaNet.Grpc
