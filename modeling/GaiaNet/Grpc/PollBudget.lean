import GaiaNet.Grpc.RecvRounds

/-! The rounds of `Recv` as a budget of waiting: a control frame uses up a round like a second
without an element does. -/

namespace GaiaNet.Grpc

open Lib.Hoare

/-- How many polls have waited in vain: they returned no element or raised an error. -/
def Poll.waits (polls : List Poll) : Nat := polls.countP (·.frame?.isNone)

theorem Poll.waits_idle {poll : Poll} (idle : poll.frame? = none) (rest : List Poll) :
    Poll.waits (poll :: rest) = Poll.waits rest + 1 := by
  simp [Poll.waits, idle]

theorem Poll.waits_element (frame : Bytes) (rest : List Poll) :
    Poll.waits (.element frame :: rest) = Poll.waits rest := rfl

theorem Poll.waits_append (polls more : List Poll) :
    Poll.waits (polls ++ more) = Poll.waits polls + Poll.waits more := by
  simp [Poll.waits]

/-- A call that returns false by leaving its loop, not on a gap and not to have packets sent
again, has waited for each of its rounds, in whatever timing it has met the list. -/
def TimesOutByWaiting (client : RpcClient) (list : List Bytes) : Prop :=
  ∀ taskid withResend env content used rest after,
    env.polls (redisKey client.toPartyid client.partyid taskid) = used ++ rest →
    Poll.frames (used ++ rest) = list →
    recv taskid withResend env ⟨client, content⟩ = .ok ⟨false, false, rest⟩ after →
    (∀ frame, used.getLast? = some (.element frame) → frameVerdict client.wanted frame ≠ .ok .gap) →
    client.redisTimeout ≤ Poll.waits used

/-- The first element that is not a repeated one is not a control frame. -/
def Undisturbed (wanted : Int) (list : List Bytes) : Prop :=
  ∀ early frame late, list = early ++ frame :: late →
    (∀ other ∈ early, frameVerdict wanted other = .ok .repeated) → frameVerdict wanted frame ≠ .ok .control

theorem Undisturbed.head (undisturbed : Undisturbed wanted (frame :: rest)) :
    frameVerdict wanted frame ≠ .ok .control :=
  undisturbed [] frame rest rfl (by simp)

theorem Undisturbed.tail (undisturbed : Undisturbed wanted (frame :: rest))
    (repeated : frameVerdict wanted frame = .ok .repeated) : Undisturbed wanted rest := by
  intro early other late split before
  refine undisturbed (frame :: early) other late (congrArg (frame :: ·) split) ?_
  intro earlier member
  rcases List.mem_cons.mp member with rfl | member
  · exact repeated
  · exact before earlier member

/-- Where no control frame is passed over, the number of the round counts the waits since the
last repeated frame. -/
theorem Passes.waits {state : ClientState} (passes : Passes withResend i state used j after)
    (second : state.client.useRedisDataVersion = .v2) (finite : 1 ≤ state.client.redisTimeout)
    (bounded : state.client.redisTimeout < intMax) (begun : 1 ≤ i)
    (undisturbed : Undisturbed state.client.wanted (Poll.frames used ++ more)) :
    j ≤ i + Poll.waits used := by
  induction passes with
  | none => simp [Poll.waits]
  | @round i _ _ _ _ _ _ _ inTime passed later ih =>
    have same := recvRound_again second passed
    have next := same.1.useRedisDataVersion.trans second
    rw [same.1.wanted, same.1.redisTimeout] at ih
    cases round_v2 second passed with
    | waited idle acked =>
      have counted : addInt i 1 = i + 1 := by
        unfold RpcClient.InTime at inTime
        exact addInt_next (by omega) (by omega)
      rw [Poll.frames_idle idle] at undisturbed
      rw [counted] at ih
      have bound := ih next finite bounded (by omega) undisturbed
      rw [Poll.waits_idle idle]
      omega
    | control is_ => exact absurd is_ undisturbed.head
    | repeated is_ =>
      have bound := ih next finite bounded (Int.le_refl 1) (undisturbed.tail is_)
      rw [Poll.waits_element]
      omega

theorem Passes.trans {state middle : ClientState} (first : Passes withResend i state used j middle)
    (later : Passes withResend j middle more k final) :
    Passes withResend i state (used ++ more) k final := by
  induction first with
  | none => exact later
  | round inTime passed _ ih => exact .round inTime passed (ih later)

/-- Repeated frames start the count again. -/
theorem Passes.repeats {state : ClientState} (second : state.client.useRedisDataVersion = .v2)
    (first : state.client.InTime 1) (withResend : Bool) (early : List Bytes)
    (repeated : ∀ frame ∈ early, frameVerdict state.client.wanted frame = .ok .repeated) :
    Passes withResend 1 state (early.map .element) 1 state := by
  induction early with
  | nil => exact .none
  | cons frame early ih =>
    have here := repeated frame List.mem_cons_self
    have passed : recvRound withResend 1 (.element frame) state = .ok (.again 1) state := by
      have received := receiveFrame_v2 second frame state.content
      rw [here] at received
      rw [recvRound_element, received]
    exact .round first passed (ih fun other member => repeated other (List.mem_cons_of_mem _ member))

/-- Errors of Redis use up one round each. -/
theorem Passes.errors (state : ClientState) (bounded : state.client.redisTimeout < intMax)
    (withResend : Bool) (count : Nat) (i : Int) (begun : 0 ≤ i)
    (inTime : i + count ≤ state.client.redisTimeout + 1) :
    Passes withResend i state (List.replicate count .error) (i + count) state := by
  induction count generalizing i with
  | zero =>
    rw [Int.natCast_zero, Int.add_zero]
    exact .none
  | succ count ih =>
    have later := ih (i + 1) (by omega) (by omega)
    rw [show i + (count + 1 : Nat) = i + 1 + count by omega]
    rw [← addInt_next begun (by omega)] at later ⊢
    exact .round (Or.inl (by omega)) rfl later

/-- A loop whose timeout is `INT_MAX` is not left by its count: no `int` is past it. -/
theorem Undisturbed.waits {client : RpcClient} (redis : client.useRedis = true)
    (second : client.useRedisDataVersion = .v2) (finite : 1 ≤ client.redisTimeout)
    (undisturbed : Undisturbed client.wanted list ∨ intMax ≤ client.redisTimeout) :
    TimesOutByWaiting client list := by
  intro taskid withResend env content used rest after polled popped returned noGap
  rw [recv_eq_recvRedis _ _ _ client content redis, polled] at returned
  have rounds := recvRedis_rounds withResend 1 (used ++ rest) ⟨client, content⟩
  rw [returned] at rounds
  cases rounds with
  | expired passes split late =>
    rw [← List.append_cancel_right split] at passes
    have acked := (passes.acked second).1
    have past := passes.le_intMax (by decide)
    unfold RpcClient.InTime at late
    rw [show after.client.redisTimeout = client.redisTimeout from acked.redisTimeout] at late
    rcases undisturbed with undisturbed | endless
    · rw [← popped, Poll.frames_append] at undisturbed
      have bounded : client.redisTimeout < intMax := by omega
      have counted := passes.waits second finite bounded (Int.le_refl 1) undisturbed
      omega
    · omega
  | ended passes split inTime turned =>
    obtain ⟨acked, -⟩ := passes.acked second
    have next := acked.useRedisDataVersion.trans second
    have last := List.append_cancel_right (split.trans (List.append_cons ..))
    cases round_v2 next turned with
    | gap is_ =>
      rw [acked.wanted] at is_
      exact absurd is_ (noGap _ (by rw [last, List.getLast?_concat]))

/-- Polls on which a call is left in its first round with a control frame, if the list has one
there: the rest of the rounds meets errors. -/
def interruptedPolls (client : RpcClient) (early : List Bytes) (frame : Bytes) : List Poll :=
  early.map .element ++ .element frame :: List.replicate (client.redisTimeout.toNat - 1) .error

theorem frames_map_element (frames : List Bytes) : Poll.frames (frames.map .element) = frames := by
  induction frames with
  | nil => rfl
  | cons frame frames ih => rw [List.map_cons, Poll.frames_element, ih]

theorem frames_errors (count : Nat) : Poll.frames (List.replicate count .error) = [] := by
  induction count with
  | zero => rfl
  | succ count ih => rw [List.replicate_succ, Poll.frames_idle rfl, ih]

theorem waits_map_element (frames : List Bytes) : Poll.waits (frames.map .element) = 0 := by
  induction frames with
  | nil => rfl
  | cons frame frames ih => rw [List.map_cons, Poll.waits_element, ih]

theorem waits_errors (count : Nat) : Poll.waits (List.replicate count .error) = count := by
  induction count with
  | zero => rfl
  | succ count ih => rw [List.replicate_succ, Poll.waits_idle rfl, ih]

theorem interrupted_passes {client : RpcClient} (second : client.useRedisDataVersion = .v2)
    (finite : 1 ≤ client.redisTimeout) (bounded : client.redisTimeout < intMax) (content : Bytes)
    (repeated : ∀ other ∈ early, frameVerdict client.wanted other = .ok .repeated)
    (control : frameVerdict client.wanted frame = .ok .control) :
    Passes false 1 ⟨client, content⟩ (interruptedPolls client early frame) (client.redisTimeout + 1)
      ⟨client, content⟩ := by
  have first : (ClientState.mk client content).client.InTime 1 := Or.inl finite
  have passed : recvRound false 1 (.element frame) ⟨client, content⟩ = .ok (.again 2) ⟨client, content⟩ := by
    have received := receiveFrame_v2 second frame content
    rw [control] at received
    rw [recvRound_element, received]
    rfl
  have errors := Passes.errors ⟨client, content⟩ bounded false (client.redisTimeout.toNat - 1) 2
    (by decide) (show _ ≤ client.redisTimeout + 1 by omega)
  rw [show (2 : Int) + (client.redisTimeout.toNat - 1 : Nat) = client.redisTimeout + 1 by omega]
    at errors
  exact (Passes.repeats second first false early repeated).trans (.round first passed errors)

theorem interrupted_frames (client : RpcClient) (early : List Bytes) (frame : Bytes) :
    Poll.frames (interruptedPolls client early frame) = early ++ [frame] := by
  unfold interruptedPolls
  rw [Poll.frames_append, Poll.frames_element, frames_map_element, frames_errors]

theorem interrupted_waits (client : RpcClient) (early : List Bytes) (frame : Bytes) :
    Poll.waits (interruptedPolls client early frame) = client.redisTimeout.toNat - 1 := by
  unfold interruptedPolls
  rw [Poll.waits_append, Poll.waits_element, waits_map_element, waits_errors, Nat.zero_add]

/-- The last of these polls is an error, or the control frame. -/
theorem interrupted_last (client : RpcClient) (early : List Bytes) (frame : Bytes)
    (last : (interruptedPolls client early frame).getLast? = some (.element other)) : other = frame := by
  unfold interruptedPolls at last
  cases count : client.redisTimeout.toNat - 1 with
  | zero =>
    rw [count, List.replicate_zero, List.getLast?_concat] at last
    cases last
    rfl
  | succ count' =>
    rw [count, List.replicate_succ', ← List.cons_append, ← List.append_assoc,
      List.getLast?_concat] at last
    cases last

theorem TimesOutByWaiting.undisturbed {client : RpcClient} (redis : client.useRedis = true)
    (second : client.useRedisDataVersion = .v2) (finite : 1 ≤ client.redisTimeout)
    (bounded : client.redisTimeout < intMax) (waits : TimesOutByWaiting client list) :
    Undisturbed client.wanted list := by
  intro early frame late split repeated control
  have passes := interrupted_passes second finite bounded [] repeated control
  have past : ¬ (ClientState.mk client []).client.InTime (client.redisTimeout + 1) := by
    unfold RpcClient.InTime
    show ¬ (client.redisTimeout + 1 ≤ client.redisTimeout ∨ client.redisTimeout = 0)
    omega
  have returned := passes.recvRedis_eq (late.map .element)
  rw [recvRedis_expired past] at returned
  have counted := waits "" false ⟨fun _ => interruptedPolls client early frame ++ late.map .element, .failed⟩
    [] (interruptedPolls client early frame) (late.map .element) ⟨client, []⟩ rfl ?_
    ((recv_eq_recvRedis _ _ _ client [] redis).trans returned) ?_
  · rw [interrupted_waits] at counted
    omega
  · rw [Poll.frames_append, interrupted_frames, frames_map_element, split, List.append_assoc]
    rfl
  · intro other last gap
    rw [interrupted_last client early frame last, control] at gap
    cases gap

/-- A call waits for all its rounds, in every timing, exactly when no control frame stands in the
list where `Recv` comes to it after repeated frames only, or the rounds never run out. -/
theorem recv_times_out_by_waiting (client : RpcClient) (list : List Bytes)
    (redis : client.useRedis = true) (second : client.useRedisDataVersion = .v2)
    (finite : 1 ≤ client.redisTimeout) :
    TimesOutByWaiting client list ↔
      Undisturbed client.wanted list ∨ intMax ≤ client.redisTimeout := by
  constructor
  · intro waits
    rcases Int.lt_or_le client.redisTimeout intMax with bounded | endless
    · exact .inl (waits.undisturbed redis second finite bounded)
    · exact .inr endless
  · exact Undisturbed.waits redis second finite

/-- A v2 client with a timeout of one second. -/
def RpcClient.impatient : RpcClient := { RpcClient.init 1 2 true (some 1) with useRedisDataVersion := .v2 }

theorem recv_times_out_by_waiting_impatient :
    TimesOutByWaiting RpcClient.impatient [[0, 0, 0, 0, 7]] ↔
      Undisturbed 0 [[0, 0, 0, 0, 7]] ∨ intMax ≤ 1 :=
  recv_times_out_by_waiting RpcClient.impatient _ rfl rfl (by decide)

/-- A control frame and then the wanted one: the call fails without having waited. -/
theorem control_frame_times_out :
    ¬ TimesOutByWaiting RpcClient.impatient [[255, 255, 255, 255], [0, 0, 0, 0, 7]] := by
  intro waits
  have undisturbed := waits.undisturbed rfl rfl (by decide) (by decide)
  have read : frameIndex [255, 255, 255, 255] = some (-1) := by decide +kernel
  exact undisturbed.head (by simp [frameVerdict, read])

end GaiaNet.Grpc
