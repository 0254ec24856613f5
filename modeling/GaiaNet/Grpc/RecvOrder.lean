import GaiaNet.Grpc.Frames
import GaiaNet.Grpc.RecvRounds

/-! Calls of `Recv` on a list with any frames in it: what is delivered is numbered from 0 on. -/

namespace GaiaNet.Grpc

open Lib.Hoare

theorem frameVerdict_whole {frame : Bytes} (whole : 4 ≤ frame.length) (wanted : Int) :
    ∃ kind, frameVerdict wanted frame = .ok kind := by
  have long : ¬ frame.length < 3 := by omega
  have read : frameIndex frame =
      some ((Lib.LittleEndian.decode ((frame ++ [0]).take 4) : Int).bmod (2 ^ 32)) := if_neg long
  unfold frameVerdict
  rw [read]
  simp only [if_neg (Nat.not_lt.mpr whole)]
  split
  · exact ⟨_, rfl⟩
  · split
    · exact ⟨_, rfl⟩
    · split <;> exact ⟨_, rfl⟩

theorem frameVerdict_deliver (is_ : frameVerdict wanted frame = .ok (.deliver body)) :
    frameIndex frame = some wanted ∧ body = frame.drop 4 := by
  unfold frameVerdict at is_
  cases read : frameIndex frame with
  | none => simp [read] at is_
  | some idx =>
    simp only [read] at is_
    split at is_
    · cases is_
    · split at is_
      · rename_i same
        split at is_
        · cases is_
        · cases is_
          exact ⟨congrArg some same, rfl⟩
      · split at is_ <;> cases is_

/-- A v2 client in Redis mode that has delivered so many frames. -/
structure Delivered (client : RpcClient) (count : Nat) : Prop where
  redis : client.useRedis = true
  second : client.useRedisDataVersion = .v2
  recvIdx : client.recvIdx = (count : Int) - 1

theorem Delivered.acked (delivered : Delivered client count) (acked : Acked client after) :
    Delivered after count := by
  have redis : after.useRedis = client.useRedis := by rw [acked.rest]
  exact ⟨redis.trans delivered.redis, acked.useRedisDataVersion.trans delivered.second,
    acked.recvIdx.trans delivered.recvIdx⟩

theorem Delivered.wanted (delivered : Delivered client count) (few : count < 2 ^ 31) :
    client.wanted = count := by
  unfold RpcClient.wanted
  rw [delivered.recvIdx]
  exact addInt_one few

/-- The ends of one call on a list of whole frames. -/
inductive CallEnds (client : RpcClient) (count : Nat) (content : Bytes) (polls : List Poll) :
    EStateM.Result Abort ClientState RecvResult → Prop where
  | delivered (split : polls = used ++ .element frame :: rest) (index : frameIndex frame = some ↑count)
      (next : Delivered after (count + 1)) :
    CallEnds client count content polls (.ok ⟨true, false, rest⟩ ⟨after, frame.drop 4⟩)
  | failed (split : polls = used ++ rest) (acked : Acked client after) :
    CallEnds client count content polls (.ok ⟨false, needResend, rest⟩ ⟨after, content⟩)
  | waiting (acked : Acked client after) :
    CallEnds client count content polls (.error .pending ⟨after, content⟩)

theorem recvRedis_call {polls : List Poll} (delivered : Delivered client count)
    (few : count < 2 ^ 31) (whole : ∀ frame ∈ Poll.frames polls, 4 ≤ frame.length)
    (withResend : Bool) (content : Bytes) :
    CallEnds client count content polls (recvRedis withResend 1 polls ⟨client, content⟩) := by
  have rounds := recvRedis_rounds withResend 1 polls ⟨client, content⟩
  revert rounds
  generalize recvRedis withResend 1 polls ⟨client, content⟩ = result
  intro rounds
  cases rounds with
  | @expired _ _ after _ passes split late =>
    obtain ⟨acked, same⟩ := passes.acked delivered.second
    obtain ⟨last, left⟩ := after
    cases same
    exact .failed split acked
  | @waiting _ after passes inTime =>
    obtain ⟨acked, same⟩ := passes.acked delivered.second
    obtain ⟨last, left⟩ := after
    cases same
    exact .waiting acked
  | @ended used j middle poll rest ret needResend after passes split inTime turned =>
    obtain ⟨acked, same⟩ := passes.acked delivered.second
    obtain ⟨last, left⟩ := middle
    cases same
    have next := delivered.acked acked
    have round : Round ⟨last, content⟩ j poll _ := recvRound_v2 next.second withResend j poll
    rw [turned] at round
    have split' := split.trans (List.append_cons used poll rest)
    cases round with
    | delivered is_ =>
      obtain ⟨index, rfl⟩ := frameVerdict_deliver is_
      have wanted := next.wanted few
      refine .delivered split (index.trans (congrArg some wanted)) ?_
      exact ⟨next.redis, next.second, wanted.trans (by omega)⟩
    | gap => exact .failed split' acked
    | resend later => exact .failed split' (acked.trans later)
  | @aborted used j middle poll rest abort after passes split inTime turned =>
    obtain ⟨acked, same⟩ := passes.acked delivered.second
    have round := recvRound_v2 ((delivered.acked acked).second) withResend j poll
    rw [turned] at round
    cases round with
    | @aborted frame _ is_ =>
      have member : frame ∈ Poll.frames polls := by
        rw [split, Poll.frames_append]
        exact List.mem_append_right _ List.mem_cons_self
      obtain ⟨kind, ok⟩ := frameVerdict_whole (whole frame member) middle.client.wanted
      rw [ok] at is_
      cases is_

/-- A call of `Recv` with the caller's string. -/
structure RecvCall where
  taskid : String
  withResend : Bool
  content : Bytes

/-- A call that has returned: the polls and the state it found, and what it left. -/
structure Returned where
  polls : List Poll
  before : ClientState
  result : RecvResult
  after : ClientState

/-- The frame whose contents a successful call returns: the last one it has popped. -/
def Returned.frame? (call : Returned) : Option Bytes :=
  if call.result.ret then
    (call.polls.take (call.polls.length - call.result.rest.length)).getLast?.bind Poll.frame?
  else none

/-- What a failed call leaves as it was. -/
structure Returned.Unchanged (call : Returned) : Prop where
  recvIdx : call.after.client.recvIdx = call.before.client.recvIdx
  version : call.after.client.useRedisDataVersion = call.before.client.useRedisDataVersion
  content : call.after.content = call.before.content

/-- Calls one after the other on the polls of one list, the client they leave, and why the
last one has not returned if so. -/
structure Calls where
  returned : List Returned
  client : RpcClient
  unfinished : Option Abort

def Calls.run : List RecvCall → List Poll → RpcClient → Calls
  | [], _, client => ⟨[], client, none⟩
  | call :: calls, polls, client =>
    match recv call.taskid call.withResend ⟨fun _ => polls, .failed⟩ ⟨client, call.content⟩ with
    | .ok result after =>
      let later := run calls result.rest after.client
      { later with returned := ⟨polls, ⟨client, call.content⟩, result, after⟩ :: later.returned }
    | .error abort after => ⟨[], after.client, some abort⟩

namespace Calls

/-- The frames whose contents the successful calls return. -/
def frames (calls : Calls) : List Bytes := calls.returned.filterMap Returned.frame?

/-- What the successful calls return. -/
def contents (calls : Calls) : List Bytes :=
  (calls.returned.filter (·.result.ret)).map (·.after.content)

/-- The calls go on after `count` deliveries with consecutive indices, whatever fails. -/
structure Consecutive (count : Nat) (polls : List Poll) (calls : Calls) : Prop where
  popped : calls.frames.Sublist (Poll.frames polls)
  indices : calls.frames.map frameIndex =
    (List.range' count calls.frames.length).map fun k : Nat => some (k : Int)
  contents : calls.contents = calls.frames.map (·.drop 4)
  recvIdx : calls.client.recvIdx = (count : Int) + calls.frames.length - 1
  failed : ∀ call ∈ calls.returned, call.result.ret = false → call.Unchanged
  waits : ∀ abort, calls.unfinished = some abort → abort = .pending

/-- A call that returned true comes before calls that go on from there. -/
theorem Consecutive.deliver {later : Calls} {before after : ClientState}
    (consecutive : later.Consecutive (count + 1) rest) (index : frameIndex frame = some ↑count)
    (content : after.content = frame.drop 4) (needResend : Bool) :
    Consecutive count (used ++ .element frame :: rest) { later with
      returned := ⟨used ++ .element frame :: rest, before, ⟨true, needResend, rest⟩, after⟩ ::
        later.returned } := by
  have last : Returned.frame? ⟨used ++ .element frame :: rest, before, ⟨true, needResend, rest⟩, after⟩ =
      some frame := by
    have taken : (used ++ .element frame :: rest).length - rest.length =
        (used ++ [Poll.element frame]).length := by
      simp
      omega
    simp only [Returned.frame?, if_true, taken]
    rw [List.append_cons used _ rest, List.take_left, List.getLast?_concat]
    rfl
  have frames : Calls.frames { later with
      returned := ⟨used ++ .element frame :: rest, before, ⟨true, needResend, rest⟩, after⟩ ::
        later.returned } = frame :: later.frames := by
    simp only [Calls.frames, List.filterMap_cons, last]
  refine ⟨?_, ?_, ?_, ?_, ?_, consecutive.waits⟩
  · rw [frames, Poll.frames_append]
    exact (consecutive.popped.cons_cons frame).trans (List.sublist_append_right _ _)
  · rw [frames, List.map_cons, index, consecutive.indices, List.length_cons, List.range'_succ,
      List.map_cons]
  · rw [frames, List.map_cons, ← consecutive.contents, ← content]
    rfl
  · rw [frames, List.length_cons]
    exact consecutive.recvIdx.trans (by omega)
  · intro call member failed
    rcases List.mem_cons.mp member with rfl | member
    · cases failed
    · exact consecutive.failed call member failed

/-- A call that returned false leaves the client as it was for the calls that follow. -/
theorem Consecutive.fail {later : Calls} {client after : RpcClient}
    (consecutive : later.Consecutive count rest) (acked : Acked client after) (content : Bytes)
    (needResend : Bool) :
    Consecutive count (used ++ rest) { later with
      returned := ⟨used ++ rest, ⟨client, content⟩, ⟨false, needResend, rest⟩, ⟨after, content⟩⟩ ::
        later.returned } := by
  refine ⟨?_, consecutive.indices, consecutive.contents, consecutive.recvIdx, ?_, consecutive.waits⟩
  · rw [Poll.frames_append]
    exact consecutive.popped.trans (List.sublist_append_right _ _)
  · intro call member failed
    rcases List.mem_cons.mp member with rfl | member
    · exact ⟨acked.recvIdx, acked.useRedisDataVersion, rfl⟩
    · exact consecutive.failed call member failed

theorem run_consecutive (calls : List RecvCall) {polls : List Poll} {client : RpcClient}
    {count : Nat} (delivered : Delivered client count)
    (whole : ∀ frame ∈ Poll.frames polls, 4 ≤ frame.length)
    (few : count + (Poll.frames polls).length < 2 ^ 31) :
    (run calls polls client).Consecutive count polls := by
  induction calls generalizing polls client count with
  | nil =>
    refine ⟨List.nil_sublist _, rfl, rfl, ?_, ?_, ?_⟩
    · simpa [run, frames] using delivered.recvIdx
    · simp [run]
    · simp [run]
  | cons call calls ih =>
    have ended := recvRedis_call delivered (by omega) whole call.withResend call.content
    unfold run
    rw [recv_eq_recvRedis _ _ _ client _ delivered.redis]
    revert ended
    generalize recvRedis call.withResend 1 polls ⟨client, call.content⟩ = result
    intro ended
    cases ended with
    | delivered split index next =>
      subst split
      simp only [Poll.frames_append, Poll.frames_element, List.length_append, List.length_cons,
        List.mem_append] at whole few
      refine Consecutive.deliver (ih next (fun frame member => ?_) ?_) index rfl false
      · exact whole frame (Or.inr (List.mem_cons_of_mem _ member))
      · omega
    | failed split acked =>
      subst split
      simp only [Poll.frames_append, List.length_append, List.mem_append] at whole few
      have later := ih (delivered.acked acked) (fun frame member => whole frame (Or.inr member))
        (by omega)
      exact later.fail acked call.content _
    | waiting acked =>
      refine ⟨List.nil_sublist _, rfl, rfl, ?_, by simp, by simp⟩
      simpa [frames] using (delivered.acked acked).recvIdx

/-- For any frames of at least four bytes in the list of a v2 client, any timing and any calls,
going on after failures: what is delivered has the indices 0, 1, 2 and so on. -/
theorem recv_consecutive (client : RpcClient) (polls : List Poll) (calls : List RecvCall)
    (redis : client.useRedis = true) (second : client.useRedisDataVersion = .v2)
    (fresh : client.recvIdx = -1) (whole : ∀ frame ∈ Poll.frames polls, 4 ≤ frame.length)
    (few : (Poll.frames polls).length < 2 ^ 31) :
    (run calls polls client).Consecutive 0 polls :=
  run_consecutive calls ⟨redis, second, fresh⟩ whole (by omega)

/-- A gap, the first frame, the same again, a negative index, a control frame and the second. -/
def adversary : List Poll :=
  [.element [5, 0, 0, 0, 7], .element [0, 0, 0, 0, 8], .error, .element [0, 0, 0, 0, 9],
    .element [254, 255, 255, 255, 7], .element [255, 255, 255, 255], .element [1, 0, 0, 0]]

theorem recv_consecutive_adversary :
    let client := { RpcClient.init 1 2 true none with useRedisDataVersion := .v2 }
    let calls := run (List.replicate 3 ⟨"task", true, [6]⟩) adversary client
    calls.contents = [[8], []] ∧ calls.Consecutive 0 adversary :=
  ⟨by decide +kernel, recv_consecutive _ _ _ rfl rfl rfl (by decide) (by decide)⟩

end Calls

end GaiaNet.Grpc
