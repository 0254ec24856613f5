import GaiaNet.Grpc.RecvRounds
import GaiaNet.Lib.TailCall
import Mathlib.Logic.Function.Basic

/-! `Recv` as it calls itself for a repeated frame, and the single loop it amounts to, on
Redis lists to which nothing is added meanwhile. -/

namespace GaiaNet.Grpc.Recursion

open Lib.Hoare

/-- What happens at one `brpop`: a Redis error, or an answer, with what the ack thread does
during the second if the list is empty. -/
inductive Moment where
  | error
  | answer (thread : AckRun)

/-- The lists of Redis, the next elements first, what happens at each `brpop`, and their number
so far. -/
structure Redis where
  lists : String → List Bytes
  moments : Nat → Moment
  polls : Nat

/-- A Redis error pops nothing. -/
def Redis.brpop (key : String) (redis : Redis) : Poll × Redis :=
  let later := { redis with polls := redis.polls + 1 }
  match redis.moments redis.polls, redis.lists key with
  | .error, _ => (.error, later)
  | .answer thread, [] => (.empty thread, later)
  | .answer _, frame :: rest =>
    (.element frame, { later with lists := Function.update redis.lists key rest })

theorem Redis.brpop_popped (redis : Redis) (key : String)
    (popped : (redis.brpop key).1 = .element frame) :
    redis.lists key = frame :: (redis.brpop key).2.lists key := by
  unfold Redis.brpop at popped ⊢
  split at popped <;> cases popped
  rename_i moment list
  simp only [list, Function.update_self]

theorem Redis.brpop_length (redis : Redis) (key : String) :
    ((redis.brpop key).2.lists key).length ≤ (redis.lists key).length := by
  unfold Redis.brpop
  split
  · exact Nat.le_refl _
  · exact Nat.le_refl _
  · rename_i moment list
    simp only [list, Function.update_self, List.length_cons]
    omega

structure RecvState where
  call : ClientState
  redis : Redis

abbrev RecvM := EStateM Abort RecvState

/-- Return value and `*need_resend`. -/
structure RecvReturn where
  ret : Bool
  needResend : Bool
  deriving DecidableEq, Repr

def brpop (key : String) : RecvM Poll := fun state =>
  .ok (state.redis.brpop key).1 { state with redis := (state.redis.brpop key).2 }

def onClient (prog : ClientM Value) : RecvM Value := fun state =>
  match prog state.call with
  | .ok value call => .ok value { state with call := call }
  | .error abort call => .error abort { state with call := call }

/-- Round `i` of the loop: its condition, the poll and the body. -/
def recvTurn (taskid : String) (withResend : Bool) (i : Int) : RecvM Pass := do
  let client := (← get).call.client
  if client.InTime i then
    let poll ← brpop (redisKey client.toPartyid client.partyid taskid)
    onClient (recvBody withResend poll)
  else return .ends false false

/-- The loop of one call from its round `i` on; `self` is the recursive call. -/
def recvFor (taskid : String) (withResend : Bool) (self : RecvM RecvReturn) :
    Nat → Int → RecvM RecvReturn
  | 0, _ => throw .pending
  | fuel + 1, i => do
    match ← recvTurn taskid withResend i with
    | .next => recvFor taskid withResend self fuel (addInt i 1)
    | .recv => self
    | .ends ret needResend => return ⟨ret, needResend⟩

/-- `Recv`, with fuel for the loop of each call and for the depth of the calls. -/
def recv (taskid : String) (withResend : Bool) (pull : PullReply) (fuel : Nat) :
    Nat → RecvM RecvReturn
  | 0 => throw .pending
  | depth + 1 => do
    if (← get).call.client.useRedis then
      recvFor taskid withResend (recv taskid withResend pull fuel depth) fuel 1
    else
      match pull with
      | .found body =>
        modify fun state => { state with call := { state.call with content := body } }
        return ⟨true, false⟩
      | .missing => throw (.thrown .recvTimeout)
      | .failed => throw (.thrown .recvFailed)

/-- The single loop: a repeated frame is skipped and the count of polls starts again. -/
def recvLoop (taskid : String) (withResend : Bool) : Nat → Int → RecvM RecvReturn
  | 0, _ => throw .pending
  | rounds + 1, i => do
    match ← recvTurn taskid withResend i with
    | .next => recvLoop taskid withResend rounds (addInt i 1)
    | .recv => recvLoop taskid withResend rounds 1
    | .ends ret needResend => return ⟨ret, needResend⟩

/-- A round as a pass of the library's loops; its number goes with the state. -/
def recvPass (taskid : String) (withResend : Bool) (place : Int × RecvState) :
    Lib.TailCall.Turn (Int × RecvState) (EStateM.Result Abort RecvState RecvReturn) :=
  match recvTurn taskid withResend place.1 place.2 with
  | .ok .next after => .next (addInt place.1 1, after)
  | .ok .recv after => .again (place.1, after)
  | .ok (.ends ret needResend) after => .done (.ok ⟨ret, needResend⟩ after)
  | .error abort after => .done (.error abort after)

/-- A call begins with round 1. -/
def enter (place : Int × RecvState) : Int × RecvState := (1, place.2)

theorem recvLoop_of_flat
    (ended : Lib.TailCall.flat (recvPass taskid withResend) enter rounds (i, state) = some result) :
    recvLoop taskid withResend rounds i state = result := by
  induction rounds generalizing i state with
  | zero => cases ended
  | succ rounds ih =>
    unfold Lib.TailCall.flat recvPass at ended
    unfold recvLoop
    rw [run_bind]
    cases turned : recvTurn taskid withResend i state with
    | error abort after =>
      rw [turned] at ended
      exact Option.some.inj ended
    | ok pass after =>
      rw [turned] at ended
      cases pass with
      | next | recv => exact ih ended
      | ends ret needResend => exact Option.some.inj ended

/-- The client on which a call of `Recv` loops: its parties and its timeout stay, and the round
is one of the timeout's or the one after. -/
structure InLoop (key taskid : String) (timeout : Int) (place : Int × RecvState) : Prop where
  useRedis : place.2.call.client.useRedis = true
  redisTimeout : place.2.call.client.redisTimeout = timeout
  listKey : redisKey place.2.call.client.toPartyid place.2.call.client.partyid taskid = key
  timed : 1 ≤ timeout
  bounded : timeout < intMax
  begun : 1 ≤ place.1
  within : place.1 ≤ timeout + 1

/-- The elements left in the list. -/
def left (key : String) (place : Int × RecvState) : Nat := (place.2.redis.lists key).length

/-- The rounds left to the call. -/
def budget (timeout : Int) (place : Int × RecvState) : Nat := (timeout + 1 - place.1).toNat

theorem InLoop.heard (inLoop : InLoop key taskid timeout (i, before))
    (heard : Heard before.call.client after.call.client) (begun : 1 ≤ j) (within : j ≤ timeout + 1) :
    InLoop key taskid timeout (j, after) := by
  have rest := heard.rest
  refine ⟨?_, ?_, ?_, inLoop.timed, inLoop.bounded, begun, within⟩
  · rw [rest]
    exact inLoop.useRedis
  · rw [rest]
    exact inLoop.redisTimeout
  · rw [rest]
    exact inLoop.listKey

/-- The ends of a round. -/
inductive TurnEnds (key taskid : String) (timeout i : Int) (before : RecvState) :
    EStateM.Result Abort RecvState Pass → Prop where
  | next (counted : addInt i 1 = i + 1) (inTime : i ≤ timeout)
      (kept : InLoop key taskid timeout (addInt i 1, after))
      (fewer : left key (addInt i 1, after) ≤ left key (i, before)) :
    TurnEnds key taskid timeout i before (.ok .next after)
  | recv (inTime : i ≤ timeout) (kept : InLoop key taskid timeout (1, after))
      (popped : left key (1, after) < left key (i, before)) :
    TurnEnds key taskid timeout i before (.ok .recv after)
  | ends : TurnEnds key taskid timeout i before (.ok (.ends ret needResend) after)
  | aborted (settled : abort ≠ .pending) : TurnEnds key taskid timeout i before (.error abort after)

theorem recvTurn_inTime {before : RecvState} (withResend : Bool) (inTime : before.call.client.InTime i)
    (listKey : redisKey before.call.client.toPartyid before.call.client.partyid taskid = key) :
    recvTurn taskid withResend i before =
      onClient (recvBody withResend (before.redis.brpop key).1)
        { before with redis := (before.redis.brpop key).2 } := by
  unfold recvTurn
  simp only [run_bind, run_get, run_ite, if_pos inTime, listKey, brpop]

theorem recvTurn_late {before : RecvState} (taskid : String) (withResend : Bool)
    (late : ¬ before.call.client.InTime i) :
    recvTurn taskid withResend i before = .ok (.ends false false) before := by
  unfold recvTurn
  simp only [run_bind, run_get, run_ite, if_neg late, run_pure]

theorem recvTurn_ends (withResend : Bool) (inLoop : InLoop key taskid timeout (i, before)) :
    TurnEnds key taskid timeout i before (recvTurn taskid withResend i before) := by
  have timed := inLoop.timed
  have bounded := inLoop.bounded
  have begun : 1 ≤ i := inLoop.begun
  by_cases inTime : before.call.client.InTime i
  · rw [recvTurn_inTime withResend inTime inLoop.listKey]
    have inTime : i ≤ timeout := by
      unfold RpcClient.InTime at inTime
      rw [inLoop.redisTimeout] at inTime
      omega
    have counted : addInt i 1 = i + 1 := addInt_next (by omega) (by omega)
    have fewer := before.redis.brpop_length key
    have popped (frame : Bytes) (same : (before.redis.brpop key).1 = .element frame) :=
      before.redis.brpop_popped key same
    have ended := recvBody_ends withResend (before.redis.brpop key).1 before.call.client
      before.call.content
    unfold onClient
    revert ended popped fewer
    generalize before.redis.brpop key = answer
    intro fewer popped ended
    generalize recvBody withResend answer.1 ⟨before.call.client, before.call.content⟩ = result at ended
    cases ended with
    | next heard =>
      refine .next counted inTime ?_ fewer
      rw [counted]
      exact inLoop.heard heard (Int.le_add_one begun) (Int.add_le_add_right inTime 1)
    | @recv frame after same heard =>
      refine .recv inTime (inLoop.heard heard (Int.le_refl 1) (Int.le_add_one timed)) ?_
      unfold left
      rw [popped frame same]
      exact Nat.lt_succ_self _
    | delivered | refused => exact .ends
    | aborted heard own settled => exact .aborted settled
  · rw [recvTurn_late taskid withResend inTime]
    exact .ends

theorem recv_progress (taskid : String) (withResend : Bool) (key : String) (timeout : Int) :
    Lib.TailCall.Progress (recvPass taskid withResend) enter (InLoop key taskid timeout) (left key)
      (budget timeout) timeout.toNat where
  next := by
    rintro ⟨i, before⟩ later inLoop turned
    have ended := recvTurn_ends withResend inLoop
    unfold recvPass at turned
    simp only at turned
    generalize recvTurn taskid withResend i before = result at ended turned
    cases ended with
    | next counted inTime kept fewer =>
      cases turned
      refine ⟨kept, fewer, ?_⟩
      unfold budget
      rw [counted]
      omega
    | recv | ends | aborted => cases turned
  again := by
    rintro ⟨i, before⟩ later inLoop turned
    have ended := recvTurn_ends withResend inLoop
    unfold recvPass at turned
    simp only at turned
    generalize recvTurn taskid withResend i before = result at ended turned
    cases ended with
    | recv inTime kept popped =>
      cases turned
      refine ⟨kept, popped, ?_⟩
      unfold budget
      omega
    | next | ends | aborted => cases turned
  fits := by
    rintro ⟨i, before⟩ inLoop
    have begun : 1 ≤ i := inLoop.begun
    unfold budget
    omega

/-- The nested calls run as the library's do. -/
theorem recvFor_of_loop {self : RecvM RecvReturn}
    {call : Int × RecvState → Option (EStateM.Result Abort RecvState RecvReturn)}
    (same : ∀ i state result, InLoop key taskid timeout (1, state) → call (i, state) = some result →
      self state = result)
    (inLoop : InLoop key taskid timeout (i, state))
    (ended : Lib.TailCall.loop (recvPass taskid withResend) call fuel (i, state) = some result) :
    recvFor taskid withResend self fuel i state = result := by
  induction fuel generalizing i state with
  | zero => cases ended
  | succ fuel ih =>
    have ends := recvTurn_ends withResend inLoop
    unfold Lib.TailCall.loop recvPass at ended
    unfold recvFor
    rw [run_bind]
    simp only at ended
    generalize recvTurn taskid withResend i state = turned at ends ended
    cases ends with
    | next counted inTime kept fewer => exact ih kept ended
    | @recv after inTime kept popped => exact same i after result kept ended
    | ends | aborted => exact Option.some.inj ended

theorem recv_of_call (inLoop : InLoop key taskid timeout (1, state))
    (ended : Lib.TailCall.call (recvPass taskid withResend) enter fuel depth (i, state) =
      some result) :
    recv taskid withResend pull fuel depth state = result := by
  induction depth generalizing i state result with
  | zero => cases ended
  | succ depth ih =>
    have mode : state.call.client.useRedis = true := inLoop.useRedis
    unfold recv
    simp only [run_bind, run_get, mode, if_true]
    exact recvFor_of_loop (fun i later result kept called => ih kept called) inLoop ended

/-- A loop that ends, ends by itself: no round waits. -/
theorem flat_settled (inLoop : InLoop key taskid timeout (i, state))
    (ended : Lib.TailCall.flat (recvPass taskid withResend) enter rounds (i, state) = some result) :
    result ≠ .error .pending after := by
  induction rounds generalizing i state with
  | zero => cases ended
  | succ rounds ih =>
    have ends := recvTurn_ends withResend inLoop
    unfold Lib.TailCall.flat recvPass at ended
    simp only at ended
    generalize recvTurn taskid withResend i state = turned at ends ended
    cases ends with
    | next counted inTime kept fewer => exact ih kept ended
    | recv inTime kept popped => exact ih kept ended
    | ends =>
      cases ended
      simp
    | aborted settled =>
      cases ended
      intro waits
      cases waits
      exact settled rfl

/-- The polls that Redis answers in turn. -/
def Redis.answers (key : String) : Nat → Redis → List Poll
  | 0, _ => []
  | count + 1, redis => (redis.brpop key).1 :: (redis.brpop key).2.answers key count

/-- Two ends of `Recv` that leave the client and the caller's string alike. -/
inductive SameEnd : EStateM.Result Abort RecvState RecvReturn →
    EStateM.Result Abort ClientState RecvResult → Prop where
  | returned : SameEnd (.ok ⟨ret, needResend⟩ after) (.ok ⟨ret, needResend, rest⟩ after.call)
  | aborted : SameEnd (.error abort after) (.error abort after.call)

theorem recvRedis_of_flat (inLoop : InLoop key taskid timeout (i, state))
    (ended : Lib.TailCall.flat (recvPass taskid withResend) enter rounds (i, state) = some result) :
    SameEnd result (recvRedis withResend i (state.redis.answers key rounds) state.call) := by
  induction rounds generalizing i state with
  | zero => cases ended
  | succ rounds ih =>
    have ends := recvTurn_ends withResend inLoop
    unfold Lib.TailCall.flat recvPass at ended
    unfold Redis.answers
    rw [recvRedis_cons]
    simp only at ended
    by_cases inTime : state.call.client.InTime i
    · rw [recvTurn_inTime withResend inTime inLoop.listKey] at ends ended
      rw [if_pos inTime]
      unfold onClient at ends ended
      simp only at ends ended
      generalize recvBody withResend (state.redis.brpop key).1 state.call = ran at ends ended
      cases ran with
      | error abort after =>
        cases ended
        exact .aborted
      | ok pass after =>
        cases pass with
        | next =>
          cases ends with
          | next counted inside kept fewer => exact ih kept ended
        | recv =>
          cases ends with
          | recv inside kept popped => exact ih kept ended
        | ends ret needResend =>
          cases ended
          exact .returned
    · rw [recvTurn_late taskid withResend inTime] at ended
      rw [if_neg inTime]
      cases ended
      exact .returned

/-- The nested calls of a client with a timeout, and the single loop of the library. -/
theorem recv_flat (taskid : String) (withResend : Bool) (pull : PullReply) {state : RecvState}
    (inLoop : InLoop key taskid timeout (1, state)) :
    ∃ result, (∀ fuel depth, (state.redis.lists key).length < depth → timeout.toNat < fuel →
        recv taskid withResend pull fuel depth state = result) ∧
      ∀ rounds, ((state.redis.lists key).length + 1) * timeout.toNat < rounds →
        Lib.TailCall.flat (recvPass taskid withResend) enter rounds (1, state) = some result := by
  have entered : InLoop key taskid timeout (enter (1, state)) := inLoop
  obtain ⟨result, nested, flat⟩ := (recv_progress taskid withResend key timeout).call_eq_flat entered
  exact ⟨result, fun fuel depth deep long => recv_of_call inLoop (nested depth fuel deep long), flat⟩

theorem RecvState.inLoop {state : RecvState} (mode : state.call.client.useRedis = true)
    (timed : 1 ≤ state.call.client.redisTimeout) (bounded : state.call.client.redisTimeout < intMax)
    (taskid : String) :
    InLoop (redisKey state.call.client.toPartyid state.call.client.partyid taskid) taskid
      state.call.client.redisTimeout (1, state) :=
  ⟨mode, rfl, rfl, timed, bounded, Int.le_refl 1, Int.le_add_one timed⟩

/-- `Recv` over the polls that Redis answers, in which a repeated frame is a turn of the same
loop, ends as the nested calls do. -/
theorem recv_same_end (taskid : String) (withResend : Bool) (pull : PullReply) (state : RecvState)
    (mode : state.call.client.useRedis = true) (timed : 1 ≤ state.call.client.redisTimeout)
    (bounded : state.call.client.redisTimeout < intMax) :
    let client := state.call.client
    let list := state.redis.lists (redisKey client.toPartyid client.partyid taskid)
    ∀ fuel depth rounds, client.redisTimeout.toNat < fuel → list.length < depth →
      (list.length + 1) * client.redisTimeout.toNat < rounds →
      SameEnd (recv taskid withResend pull fuel depth state)
        (Grpc.recv taskid withResend ⟨fun key => state.redis.answers key rounds, pull⟩ state.call) := by
  intro client list fuel depth rounds long deep enough
  have inLoop := RecvState.inLoop mode timed bounded taskid
  obtain ⟨result, nested, flat⟩ := recv_flat taskid withResend pull inLoop
  rw [nested fuel depth deep long, show state.call = ⟨client, state.call.content⟩ from rfl,
    recv_eq_recvRedis taskid withResend _ client _ mode]
  exact recvRedis_of_flat inLoop (flat rounds enough)

/-- A call on these lists comes to an end whatever polls raise an error, no deeper than the list
is long, and ends as the single loop does. -/
def TerminatesAsLoop (call : ClientState) (lists : String → List Bytes) : Prop :=
  ∀ taskid withResend pull moments polls,
    let client := call.client
    let list := lists (redisKey client.toPartyid client.partyid taskid)
    let state : RecvState := ⟨call, ⟨lists, moments, polls⟩⟩
    ∃ result, (∀ after, result ≠ .error .pending after) ∧
      (∀ fuel depth, list.length < depth → client.redisTimeout.toNat < fuel →
        recv taskid withResend pull fuel depth state = result) ∧
      ∀ rounds, (list.length + 1) * client.redisTimeout.toNat < rounds →
        recvLoop taskid withResend rounds 1 state = result

theorem terminatesAsLoop {call : ClientState} (mode : call.client.useRedis = true)
    (timed : 1 ≤ call.client.redisTimeout) (bounded : call.client.redisTimeout < intMax)
    (lists : String → List Bytes) : TerminatesAsLoop call lists := by
  intro taskid withResend pull moments polls client list state
  have inLoop : InLoop _ taskid _ (1, state) := RecvState.inLoop mode timed bounded taskid
  obtain ⟨result, nested, flat⟩ := recv_flat taskid withResend pull inLoop
  refine ⟨result, fun after => ?_, nested, fun rounds enough => ?_⟩
  · exact flat_settled inLoop (flat _ (Nat.lt_succ_self _))
  · exact recvLoop_of_flat (flat rounds enough)

/-- No `int` is past a timeout of `INT_MAX`: on polls that all raise an error the loop goes on. -/
theorem recvFor_endless {state : RecvState} (taskid : String) (withResend : Bool)
    (self : RecvM RecvReturn) (fuel : Nat) (within : i ≤ intMax)
    (endless : intMax ≤ state.call.client.redisTimeout)
    (errors : ∀ poll, state.redis.moments poll = .error) :
    ∃ after, recvFor taskid withResend self fuel i state = .error .pending after := by
  induction fuel generalizing i state with
  | zero => exact ⟨state, rfl⟩
  | succ fuel ih =>
    have inTime : state.call.client.InTime i := .inl (Int.le_trans within endless)
    have polled (key : String) :
        state.redis.brpop key = (.error, { state.redis with polls := state.redis.polls + 1 }) := by
      unfold Redis.brpop
      simp only [errors]
    unfold recvFor
    rw [run_bind, recvTurn_inTime withResend inTime rfl, polled]
    exact ih (addInt_le_intMax i 1) endless errors

theorem recv_endless {state : RecvState} (taskid : String) (withResend : Bool) (pull : PullReply)
    (mode : state.call.client.useRedis = true) (endless : intMax ≤ state.call.client.redisTimeout)
    (errors : ∀ poll, state.redis.moments poll = .error) (fuel depth : Nat) :
    ∃ after, recv taskid withResend pull fuel depth state = .error .pending after := by
  cases depth with
  | zero => exact ⟨state, rfl⟩
  | succ depth =>
    unfold recv
    simp only [run_bind, run_get, mode, if_true]
    exact recvFor_endless taskid withResend _ fuel (by decide) endless errors

theorem TerminatesAsLoop.bounded {call : ClientState} {lists : String → List Bytes}
    (mode : call.client.useRedis = true) (terminates : TerminatesAsLoop call lists) :
    call.client.redisTimeout < intMax := by
  refine Int.not_le.mp fun endless => ?_
  obtain ⟨result, settled, nested, -⟩ := terminates "" false .missing (fun _ => .error) 0
  have ended := nested _ _ (Nat.lt_succ_self _) (Nat.lt_succ_self _)
  have errors : ∀ poll, (RecvState.mk call ⟨lists, fun _ => .error, 0⟩).redis.moments poll =
      .error := fun _ => rfl
  obtain ⟨after, waits⟩ := recv_endless "" false .missing mode endless errors _ _
  rw [waits] at ended
  exact settled after ended.symm

/-- Whatever is in the lists, a call of a client with a timeout comes to an end in spite of the
recursion, and as the single loop does, exactly when its rounds can run out. -/
theorem recv_terminates_as_loop (call : ClientState) (lists : String → List Bytes)
    (mode : call.client.useRedis = true) (timed : 1 ≤ call.client.redisTimeout) :
    TerminatesAsLoop call lists ↔ call.client.redisTimeout < intMax := by
  constructor
  · exact TerminatesAsLoop.bounded mode
  · exact fun bounded => terminatesAsLoop mode timed bounded lists

/-- A v2 client that wants frame 1. -/
def wantsNext (timeout : Int) : ClientState :=
  ⟨{ RpcClient.init 1 2 true (some timeout) with useRedisDataVersion := .v2, recvIdx := 0 }, []⟩

/-- With a timeout of two polls; its list holds frame 0 again and frame 1, and the first and the
third poll raise an error. -/
theorem recv_terminates_as_loop_repeated :
    (TerminatesAsLoop (wantsNext 2) (fun _ => [[0, 0, 0, 0, 7], [1, 0, 0, 0, 8]]) ↔ 2 < intMax) ∧
    (completed (recv "" false .missing 3 3 ⟨wantsNext 2, {
        lists := fun _ => [[0, 0, 0, 0, 7], [1, 0, 0, 0, 8]]
        moments := fun poll => if poll % 2 = 0 then .error else .answer .none
        polls := 0 }⟩)).map (fun ended =>
      (ended.1, ended.2.call.client.recvIdx, ended.2.call.content, ended.2.redis.lists "21")) =
        some (⟨true, false⟩, 1, [8], []) :=
  ⟨recv_terminates_as_loop (wantsNext 2) _ rfl (by decide), by decide⟩

/-- The largest timeout there is, on an empty list. -/
theorem recv_goes_on : ¬ TerminatesAsLoop (wantsNext intMax) fun _ => [] := by
  intro terminates
  exact absurd (terminates.bounded rfl) (Int.lt_irrefl _)

end GaiaNet.Grpc.Recursion
