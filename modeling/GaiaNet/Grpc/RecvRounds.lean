import GaiaNet.Grpc.Calls

/-! The loop of `Recv` round by round: the polls it passes over and the one it ends on. -/

namespace GaiaNet.Grpc

open Lib.Hoare

namespace Poll

/-- The element that a `brpop` has popped. -/
def frame? : Poll → Option Bytes
  | .element frame => some frame
  | .empty _ | .error => none

/-- The elements popped by some polls, in the order of the list. -/
def frames (polls : List Poll) : List Bytes := polls.filterMap frame?

theorem frames_append (polls more : List Poll) : frames (polls ++ more) = frames polls ++ frames more := by
  simp [frames]

@[simp] theorem frames_element (frame : Bytes) (rest : List Poll) :
    frames (.element frame :: rest) = frame :: frames rest := rfl

theorem frames_idle {poll : Poll} (idle : poll.frame? = none) (rest : List Poll) :
    frames (poll :: rest) = frames rest := by
  simp [frames, idle]

end Poll

/-- A round goes on to the round of some number, or ends the call with its return value and
`*need_resend`. -/
inductive Turn where
  | again (i : Int)
  | ends (ret needResend : Bool)

def Pass.turn (i : Int) : Pass → Turn
  | .next => .again (addInt i 1)
  | .recv => .again 1
  | .ends ret needResend => .ends ret needResend

/-- One round of the loop. -/
def recvRound (withResend : Bool) (i : Int) (poll : Poll) : ClientM Turn := do
  let pass ← recvBody withResend poll
  return pass.turn i

theorem recvRound_eq (withResend : Bool) (i : Int) (poll : Poll) (state : ClientState) :
    recvRound withResend i poll state =
      match recvBody withResend poll state with
      | .ok pass after => .ok (pass.turn i) after
      | .error abort after => .error abort after := by
  unfold recvRound
  simp only [run_bind, run_pure]
  cases recvBody withResend poll state <;> rfl

theorem recvRound_empty (withResend : Bool) (i : Int) (thread : AckRun) (client : RpcClient)
    (content : Bytes) :
    recvRound withResend i (.empty thread) ⟨client, content⟩ =
      let after := client.ackThread thread
      if after.recvThreadStatus = .finished ∧ after.notackQueue ≠ [] ∧ withResend then
        .ok (.ends false true) ⟨after, content⟩
      else .ok (.again (addInt i 1)) ⟨after, content⟩ := by
  rw [recvRound_eq, recvBody_empty]
  by_cases resend : (client.ackThread thread).recvThreadStatus = .finished ∧
      (client.ackThread thread).notackQueue ≠ [] ∧ withResend
  · simp only [if_pos resend, Pass.turn]
  · simp only [if_neg resend, Pass.turn]

theorem recvRound_element (withResend : Bool) (i : Int) (frame : Bytes) (state : ClientState) :
    recvRound withResend i (.element frame) state =
      match receiveFrame frame state with
      | .ok (.deliver content) after => .ok (.ends true false) { after with content := content }
      | .ok .control after => .ok (.again (addInt i 1)) after
      | .ok .repeated after => .ok (.again 1) after
      | .ok .gap after => .ok (.ends false false) after
      | .error abort after => .error abort after := by
  rw [recvRound_eq, recvBody_element]
  cases receiveFrame frame state with
  | error abort after => rfl
  | ok verdict after => cases verdict <;> rfl

/-- The number of a round is an `int`. -/
theorem recvRound_again_le (passed : recvRound withResend i poll state = .ok (.again j) after) :
    j ≤ intMax := by
  rw [recvRound_eq] at passed
  cases ran : recvBody withResend poll state with
  | error abort after => simp [ran] at passed
  | ok pass after =>
    rw [ran] at passed
    cases pass with
    | next =>
      cases passed
      exact addInt_le_intMax i 1
    | recv =>
      cases passed
      decide
    | ends ret needResend => cases passed

theorem recvRedis_round (withResend : Bool) (i : Int) (poll : Poll) (rest : List Poll)
    (state : ClientState) :
    recvRedis withResend i (poll :: rest) state =
      if state.client.InTime i then
        match recvRound withResend i poll state with
        | .ok (.again j) after => recvRedis withResend j rest after
        | .ok (.ends ret needResend) after => .ok ⟨ret, needResend, rest⟩ after
        | .error abort after => .error abort after
      else .ok ⟨false, false, poll :: rest⟩ state := by
  rw [recvRedis_cons, recvRound_eq]
  cases recvBody withResend poll state with
  | error abort after => rfl
  | ok pass after => cases pass <;> rfl

/-- The loop is left when the number of the round is past the timeout. -/
theorem recvRedis_expired {state : ClientState} (late : ¬ state.client.InTime i) (withResend : Bool)
    (polls : List Poll) :
    recvRedis withResend i polls state = .ok ⟨false, false, polls⟩ state := by
  cases polls with
  | nil => rw [recvRedis_nil, if_neg late]
  | cons poll rest => rw [recvRedis_cons, if_neg late]

/-- The rounds that pass over some polls, one each. -/
inductive Passes (withResend : Bool) :
    Int → ClientState → List Poll → Int → ClientState → Prop where
  | none : Passes withResend i state [] i state
  | round (inTime : state.client.InTime i)
      (passed : recvRound withResend i poll state = .ok (.again j) middle)
      (later : Passes withResend j middle polls k final) :
    Passes withResend i state (poll :: polls) k final

/-- The rounds passed over leave the rest of the call to the rounds that follow. -/
theorem Passes.recvRedis_eq (passes : Passes withResend i state used j after) (rest : List Poll) :
    recvRedis withResend i (used ++ rest) state = recvRedis withResend j rest after := by
  induction passes with
  | none => rfl
  | round inTime passed later ih =>
    rw [List.cons_append, recvRedis_round, if_pos inTime, passed]
    exact ih

theorem Passes.invariant (inv : ClientState → Prop)
    (kept : ∀ i poll before j after, inv before →
      recvRound withResend i poll before = .ok (.again j) after → inv after)
    (passes : Passes withResend i state used j after) (initial : inv state) : inv after := by
  induction passes with
  | none => exact initial
  | round inTime passed later ih => exact ih (kept _ _ _ _ _ initial passed)

theorem Passes.le_intMax (passes : Passes withResend i state used j after) (begun : i ≤ intMax) :
    j ≤ intMax := by
  induction passes with
  | none => exact begun
  | round inTime passed later ih => exact ih (recvRound_again_le passed)

/-- The ends of the loop, after the rounds that have passed over some polls. -/
inductive Rounds (withResend : Bool) (i : Int) (state : ClientState) (polls : List Poll) :
    EStateM.Result Abort ClientState RecvResult → Prop where
  | expired (passes : Passes withResend i state used j after) (split : polls = used ++ rest)
      (late : ¬ after.client.InTime j) :
    Rounds withResend i state polls (.ok ⟨false, false, rest⟩ after)
  | ended (passes : Passes withResend i state used j middle) (split : polls = used ++ poll :: rest)
      (inTime : middle.client.InTime j)
      (turned : recvRound withResend j poll middle = .ok (.ends ret needResend) after) :
    Rounds withResend i state polls (.ok ⟨ret, needResend, rest⟩ after)
  | waiting (passes : Passes withResend i state polls j after) (inTime : after.client.InTime j) :
    Rounds withResend i state polls (.error .pending after)
  | aborted (passes : Passes withResend i state used j middle) (split : polls = used ++ poll :: rest)
      (inTime : middle.client.InTime j)
      (turned : recvRound withResend j poll middle = .error abort after) :
    Rounds withResend i state polls (.error abort after)

theorem Rounds.after_turn (inTime : state.client.InTime i)
    (passed : recvRound withResend i poll state = .ok (.again j) middle)
    (ended : Rounds withResend j middle polls result) :
    Rounds withResend i state (poll :: polls) result := by
  cases ended with
  | expired passes split late =>
    exact .expired (.round inTime passed passes) (congrArg (poll :: ·) split) late
  | ended passes split inside turned =>
    exact .ended (.round inTime passed passes) (congrArg (poll :: ·) split) inside turned
  | waiting passes inside => exact .waiting (.round inTime passed passes) inside
  | aborted passes split inside turned =>
    exact .aborted (.round inTime passed passes) (congrArg (poll :: ·) split) inside turned

theorem recvRedis_rounds (withResend : Bool) (i : Int) (polls : List Poll) (state : ClientState) :
    Rounds withResend i state polls (recvRedis withResend i polls state) := by
  induction polls generalizing i state with
  | nil =>
    rw [recvRedis_nil]
    split
    · rename_i inTime
      exact .waiting .none inTime
    · rename_i late
      exact .expired .none rfl late
  | cons poll rest ih =>
    rw [recvRedis_round]
    by_cases inTime : state.client.InTime i
    · rw [if_pos inTime]
      cases turned : recvRound withResend i poll state with
      | error abort after => exact .aborted .none rfl inTime turned
      | ok turn after =>
        cases turn with
        | again j => exact (ih j after).after_turn inTime turned
        | ends ret needResend => exact .ended .none rfl inTime turned
    · rw [if_neg inTime]
      exact .expired .none rfl inTime

/-- What the loop of a v2 client that wants this index makes of an element. -/
def frameVerdict (wanted : Int) (frame : Bytes) : Except Abort Verdict :=
  match frameIndex frame with
  | none => .error (.fault .shortFrame)
  | some idx =>
    if frame.length = 4 ∧ idx < 0 then .ok .control
    else if idx = wanted then
      if frame.length < 4 then .error (.thrown .outOfRange) else .ok (.deliver (frame.drop 4))
    else if idx < wanted then .ok .repeated
    else .ok .gap

/-- The index that `Recv` delivers next. -/
def RpcClient.wanted (client : RpcClient) : Int := addInt client.recvIdx 1

theorem RpcClient.versioned_v2 {client : RpcClient} (second : client.useRedisDataVersion = .v2)
    (frame : Bytes) : client.versioned frame = (client, frame) := by
  unfold RpcClient.versioned
  rw [if_neg (by simp [second])]

theorem receiveFrame_v2 {client : RpcClient} (second : client.useRedisDataVersion = .v2)
    (frame content : Bytes) :
    receiveFrame frame ⟨client, content⟩ =
      match frameVerdict client.wanted frame with
      | .error abort => .error abort ⟨client, content⟩
      | .ok (.deliver body) =>
        .ok (.deliver body) ⟨{ client with recvIdx := client.wanted }, content⟩
      | .ok verdict => .ok verdict ⟨client, content⟩ := by
  rw [receiveFrame_eq, RpcClient.versioned_v2 second]
  simp only [second, ne_eq, not_true_eq_false, if_false]
  unfold frameVerdict RpcClient.wanted
  cases frameIndex frame with
  | none => rfl
  | some idx =>
    by_cases control : frame.length = 4 ∧ idx < 0
    · simp only [if_pos control]
    · simp only [if_neg control]
      by_cases same : idx = addInt client.recvIdx 1
      · simp only [if_pos same]
        split
        · rfl
        · rw [same]
      · simp only [if_neg same]
        split <;> rfl

/-- The rounds of a v2 client. -/
inductive Round (before : ClientState) (i : Int) :
    Poll → EStateM.Result Abort ClientState Turn → Prop where
  | waited (idle : poll.frame? = none) (acked : Acked before.client after) :
    Round before i poll (.ok (.again (addInt i 1)) ⟨after, before.content⟩)
  | control (is_ : frameVerdict before.client.wanted frame = .ok .control) :
    Round before i (.element frame) (.ok (.again (addInt i 1)) before)
  | repeated (is_ : frameVerdict before.client.wanted frame = .ok .repeated) :
    Round before i (.element frame) (.ok (.again 1) before)
  | delivered (is_ : frameVerdict before.client.wanted frame = .ok (.deliver body)) :
    Round before i (.element frame)
      (.ok (.ends true false) ⟨{ before.client with recvIdx := before.client.wanted }, body⟩)
  | gap (is_ : frameVerdict before.client.wanted frame = .ok .gap) :
    Round before i (.element frame) (.ok (.ends false false) before)
  | resend (acked : Acked before.client after) :
    Round before i (.empty thread) (.ok (.ends false true) ⟨after, before.content⟩)
  | aborted (is_ : frameVerdict before.client.wanted frame = .error abort) :
    Round before i (.element frame) (.error abort before)

theorem recvRound_v2 {state : ClientState} (second : state.client.useRedisDataVersion = .v2)
    (withResend : Bool) (i : Int) (poll : Poll) :
    Round state i poll (recvRound withResend i poll state) := by
  cases poll with
  | error => exact .waited rfl (Acked.refl state.client)
  | empty thread =>
    have acked := state.client.ackThread_acked thread
    rw [show state = ⟨state.client, state.content⟩ from rfl, recvRound_empty]
    simp only
    split
    · exact .resend acked
    · exact .waited rfl acked
  | element frame =>
    have received := receiveFrame_v2 second frame state.content
    rw [recvRound_element]
    cases kind : frameVerdict state.client.wanted frame with
    | error abort =>
      rw [kind] at received
      rw [received]
      exact .aborted kind
    | ok verdict =>
      rw [kind] at received
      rw [received]
      cases verdict with
      | deliver body => exact .delivered kind
      | control => exact .control kind
      | repeated => exact .repeated kind
      | gap => exact .gap kind

theorem round_v2 {before : ClientState} (second : before.client.useRedisDataVersion = .v2)
    (turned : recvRound withResend i poll before = result) : Round before i poll result :=
  turned ▸ recvRound_v2 second withResend i poll

/-- A round of a v2 client that passes over its poll leaves all but the work of the ack thread. -/
theorem recvRound_again {before after : ClientState} (second : before.client.useRedisDataVersion = .v2)
    (passed : recvRound withResend i poll before = .ok (.again j) after) :
    Acked before.client after.client ∧ after.content = before.content := by
  cases round_v2 second passed with
  | waited idle acked => exact ⟨acked, rfl⟩
  | control | repeated => exact ⟨Acked.refl before.client, rfl⟩

theorem Acked.useRedisDataVersion (acked : Acked before after) :
    after.useRedisDataVersion = before.useRedisDataVersion := by
  rw [acked.rest]

theorem Acked.redisTimeout (acked : Acked before after) :
    after.redisTimeout = before.redisTimeout := by
  rw [acked.rest]

theorem Acked.wanted (acked : Acked before after) : after.wanted = before.wanted := by
  rw [acked.rest]
  rfl

theorem Passes.acked {state after : ClientState} (second : state.client.useRedisDataVersion = .v2)
    (passes : Passes withResend i state used j after) :
    Acked state.client after.client ∧ after.content = state.content := by
  refine passes.invariant (fun later => Acked state.client later.client ∧ later.content = state.content)
    ?_ ⟨Acked.refl state.client, rfl⟩
  rintro i poll before j after ⟨acked, content⟩ passed
  obtain ⟨later, same⟩ := recvRound_again (acked.useRedisDataVersion.trans second) passed
  exact ⟨acked.trans later, same.trans content⟩

end GaiaNet.Grpc
