import GaiaNet.Grpc.Frames
import GaiaNet.Grpc.RecvRounds
import GaiaNet.Lib.Replay

/-! Control frames in the list of a v2 peer: what `Recv` makes of the list, whatever the
local server has pushed between the data. -/

namespace GaiaNet.Grpc

open Lib.Hoare
open Lib.Replay (accepted accepted_append)

/-- An element of the list: a numbered message of the peer, or a command of the local server. -/
inductive ListFrame where
  | data (index : Nat) (body : Bytes) (fits : index < 2 ^ 31)
  | control (code : Int) (fits : -2 ^ 31 ≤ code) (negative : code < 0)

namespace ListFrame

/-- The bytes in the list; the first message carries the magic string. -/
def element (first : Bool) : ListFrame → Bytes
  | .data index body _ =>
    (if first then dataVersionMagicString else []) ++ (Lib.LittleEndian.encode 4 index ++ body)
  | .control code _ _ => Lib.LittleEndian.encode 4 (code % 2 ^ 32).toNat

def message? : ListFrame → Option (Nat × Bytes)
  | .data index body _ => some (index, body)
  | .control _ _ _ => none

/-- The messages of a list with their numbers. -/
def entries (frames : List ListFrame) : List (Nat × Bytes) := frames.filterMap message?

/-- The list starts with a message, or is empty. -/
def MessageFirst : List ListFrame → Prop
  | .control _ _ _ :: _ => False
  | _ => True

end ListFrame

/-- What a `brpop` on the list of the peer meets. -/
inductive Answer where
  | popped (frame : ListFrame)
  | empty (thread : AckRun)
  | error

namespace Answer

def frame? : Answer → Option ListFrame
  | .popped frame => some frame
  | _ => none

def message? (answer : Answer) : Option (Nat × Bytes) := answer.frame?.bind ListFrame.message?

def frames (answers : List Answer) : List ListFrame := answers.filterMap frame?

/-- The messages among some answers. -/
def entries (answers : List Answer) : List (Nat × Bytes) := answers.filterMap message?

theorem entries_append (answers more : List Answer) :
    entries (answers ++ more) = entries answers ++ entries more := by
  simp [entries]

theorem entries_frames (answers : List Answer) : entries answers = ListFrame.entries (frames answers) := by
  unfold entries frames ListFrame.entries
  rw [List.filterMap_filterMap]
  rfl

theorem entries_idle {answer : Answer} (quiet : answer.message? = none) (rest : List Answer) :
    entries (answer :: rest) = entries rest := by
  simp [entries, quiet]

theorem entries_message {answer : Answer} (entry : answer.message? = some message)
    (rest : List Answer) : entries (answer :: rest) = message :: entries rest := by
  simp [entries, entry]

/-- The poll as `Recv` sees it; `first` says that no message has been popped. -/
def poll (first : Bool) : Answer → Poll
  | .popped frame => .element (frame.element first)
  | .empty thread => .empty thread
  | .error => .error

def polls : Bool → List Answer → List Poll
  | _, [] => []
  | first, answer :: rest => answer.poll first :: polls (first && answer.message?.isNone) rest

@[simp] theorem length_polls (first : Bool) (answers : List Answer) :
    (polls first answers).length = answers.length := by
  induction answers generalizing first with
  | nil => rfl
  | cons answer answers ih => simp [polls, ih]

/-- The list of which the answers are popped starts with a message, if none has been popped. -/
def Ready (messages : Nat) (answers : List Answer) : Prop :=
  messages = 0 → ListFrame.MessageFirst (frames answers)

theorem Ready.popped (ready : Ready messages (.popped frame :: rest)) (fresh : messages = 0) :
    frame.message? ≠ none := by
  have first := ready fresh
  cases frame with
  | data index body fits => exact Option.some_ne_none _
  | control code fits negative => exact first.elim

theorem Ready.idle {answer : Answer} (ready : Ready messages (answer :: rest))
    (quiet : answer.message? = none) : Ready messages rest := by
  intro fresh
  cases answer with
  | popped frame => exact absurd quiet (ready.popped fresh)
  | empty thread => exact ready fresh
  | error => exact ready fresh

theorem polls_idle {answer : Answer} (quiet : answer.message? = none) (messages : Nat)
    (rest : List Answer) :
    polls (messages = 0) (answer :: rest) = answer.poll (messages = 0) :: polls (messages = 0) rest := by
  simp [polls, quiet]

theorem polls_message {answer : Answer} (entry : answer.message? = some message) (messages : Nat)
    (rest : List Answer) :
    polls (messages = 0) (answer :: rest) =
      answer.poll (messages = 0) :: polls (messages + 1 = 0) rest := by
  simp [polls, entry]

end Answer

theorem frameIndex_control (fits : -2 ^ 31 ≤ code) (negative : code < 0) :
    frameIndex (Lib.LittleEndian.encode 4 (code % 2 ^ 32).toNat) = some code := by
  have read := frameIndex_int fits (by omega) []
  rwa [List.append_nil] at read

/-- A receiver that has popped so many messages and waits for this number, which may
be past the last one there can be. It has sent nothing. -/
structure Takes (client : RpcClient) (timeout : Int) (messages next : Nat) : Prop extends
    Expects client messages next where
  bound : next ≤ 2 ^ 31
  redis : client.useRedis = true
  redisTimeout : client.redisTimeout = timeout
  silent : client.notackQueue = []

theorem addInt_last : addInt ((2 ^ 31 : Nat) - 1) 1 = -2 ^ 31 := by
  decide

/-- The wanted index wraps once every index has been delivered. -/
theorem Takes.wanted_eq {i : Nat} (takes : Takes client timeout messages next) (fits : i < 2 ^ 31) :
    (i : Int) = addInt client.recvIdx 1 ↔ i = next := by
  have bound := takes.bound
  rw [takes.recvIdx]
  rcases Nat.lt_or_ge next (2 ^ 31) with inside | past
  · rw [addInt_one inside]
    omega
  · have last : next = 2 ^ 31 := Nat.le_antisymm bound past
    rw [last, addInt_last]
    omega

theorem Takes.below {i : Nat} (takes : Takes client timeout messages next)
    (old : (i : Int) < addInt client.recvIdx 1) : i < next := by
  have bound := takes.bound
  rw [takes.recvIdx] at old
  rcases Nat.lt_or_ge next (2 ^ 31) with inside | past
  · rw [addInt_one inside] at old
    omega
  · rw [Nat.le_antisymm bound past, addInt_last] at old
    omega

theorem Takes.inTime (takes : Takes client timeout messages next) (i : Int) :
    client.InTime i ↔ i ≤ timeout ∨ timeout = 0 := by
  unfold RpcClient.InTime
  rw [takes.redisTimeout]

theorem Takes.acked (takes : Takes client timeout messages next) (acked : Acked client after) :
    Takes after timeout messages next := by
  have version := acked.useRedisDataVersion
  have redis : after.useRedis = client.useRedis := by rw [acked.rest]
  have none : after.notackQueue <:+ [] := takes.silent ▸ acked.queue
  exact ⟨⟨acked.recvIdx.trans takes.recvIdx, version.trans takes.version⟩, takes.bound,
    redis.trans takes.redis, acked.redisTimeout.trans takes.redisTimeout, List.suffix_nil.mp none⟩

/-- What the body of the loop makes of an answer: it passes over what is no message, and of the
messages it delivers the one it waits for. -/
inductive Treats (timeout : Int) (messages next : Nat) (content : Bytes) (answer : Answer) :
    EStateM.Result Abort ClientState Pass → Prop where
  | idle (quiet : answer.message? = none) (takes : Takes after timeout messages next) :
    Treats timeout messages next content answer (.ok .next ⟨after, content⟩)
  | delivered (entry : answer.message? = some (next, body))
      (takes : Takes after timeout (messages + 1) (next + 1)) :
    Treats timeout messages next content answer (.ok (.ends true false) ⟨after, body⟩)
  | repeated (entry : answer.message? = some (index, body)) (old : index < next)
      (takes : Takes after timeout (messages + 1) next) :
    Treats timeout messages next content answer (.ok .recv ⟨after, content⟩)
  | gap (entry : answer.message? = some (index, body)) (other : index ≠ next)
      (ahead : next < 2 ^ 31 → next < index) (takes : Takes after timeout (messages + 1) next) :
    Treats timeout messages next content answer (.ok (.ends false false) ⟨after, content⟩)

theorem recvBody_control (withResend : Bool) (content : Bytes) (fits : -2 ^ 31 ≤ code)
    (negative : code < 0) (takes : Takes client timeout messages next) (popped : messages ≠ 0) :
    Treats timeout messages next content (.popped (.control code fits negative))
      (recvBody withResend (.element (Lib.LittleEndian.encode 4 (code % 2 ^ 32).toNat))
        ⟨client, content⟩) := by
  have version := takes.version
  rw [if_neg popped] at version
  have verdict : frameVerdict client.wanted (Lib.LittleEndian.encode 4 (code % 2 ^ 32).toNat) =
      .ok .control := by
    unfold frameVerdict
    rw [frameIndex_control fits negative]
    exact if_pos ⟨Lib.LittleEndian.length_encode 4 _, negative⟩
  rw [recvBody_element, receiveFrame_v2 version, verdict]
  exact .idle rfl takes

theorem recvBody_data (withResend : Bool) (content : Bytes) (index : Nat) (body : Bytes)
    (fits : index < 2 ^ 31) (takes : Takes client timeout messages next) :
    Treats timeout messages next content (.popped (.data index body fits))
      (recvBody withResend (.element ((ListFrame.data index body fits).element (messages = 0)))
        ⟨client, content⟩) := by
  have notControl : ¬ ((Lib.LittleEndian.encode 4 index ++ body).length = 4 ∧ (index : Int) < 0) := by
    omega
  have long : ¬ (Lib.LittleEndian.encode 4 index ++ body).length < 4 := by
    simp
  have payload : (Lib.LittleEndian.encode 4 index ++ body).drop 4 = body :=
    List.drop_left' (Lib.LittleEndian.length_encode 4 index)
  have wanted := takes.wanted_eq fits
  have settled := takes.toExpects.versioned (Lib.LittleEndian.encode 4 index ++ body)
  have left : Takes { client with useRedisDataVersion := .v2 } timeout (messages + 1) next :=
    ⟨⟨takes.recvIdx, rfl⟩, takes.bound, takes.redis, takes.redisTimeout, takes.silent⟩
  rw [recvBody_element]
  simp only [ListFrame.element, decide_eq_true_eq, receiveFrame_eq, settled, ne_eq, not_true_eq_false,
    if_false, frameIndex_encode fits body, if_neg notControl, if_neg long, payload, wanted]
  by_cases same : index = next
  · subst same
    rw [if_pos rfl]
    refine .delivered rfl ⟨⟨?_, rfl⟩, by omega, takes.redis, takes.redisTimeout, takes.silent⟩
    rw [Int.natCast_succ, Int.add_sub_cancel]
  · rw [if_neg same]
    by_cases below : (index : Int) < addInt client.recvIdx 1
    · rw [if_pos below]
      exact .repeated rfl (takes.below below) left
    · rw [if_neg below]
      refine .gap rfl same (fun inside => ?_) left
      rw [takes.recvIdx, addInt_one inside] at below
      omega

theorem recvBody_answer (withResend : Bool) (content : Bytes) {answer : Answer}
    (takes : Takes client timeout messages next) (ready : Answer.Ready messages (answer :: rest)) :
    Treats timeout messages next content answer
      (recvBody withResend (answer.poll (messages = 0)) ⟨client, content⟩) := by
  cases answer with
  | error => exact .idle rfl takes
  | empty thread =>
    have acked := takes.acked (client.ackThread_acked thread)
    have silent := acked.silent
    unfold Answer.poll
    rw [recvBody_empty]
    simp only [silent, ne_eq, not_true_eq_false, false_and, and_false, if_false]
    exact .idle rfl acked
  | popped frame =>
    cases frame with
    | control code fits negative =>
      exact recvBody_control withResend content fits negative takes fun none => ready.popped none rfl
    | data index body fits => exact recvBody_data withResend content index body fits takes

/-- The ends of `Recv` on these answers, some of which it uses up. -/
inductive AnswersEnd (timeout : Int) (messages next : Nat) (answers : List Answer) :
    EStateM.Result Abort ClientState RecvResult → Prop where
  | returned (used rest : List Answer) (split : answers = used ++ rest)
      (got : accepted next (Answer.entries used) = if result.ret then [content] else [])
      (left : result.rest = Answer.polls (messages + (Answer.entries used).length = 0) rest)
      (takes : Takes after timeout (messages + (Answer.entries used).length)
        (next + (accepted next (Answer.entries used)).length)) :
    AnswersEnd timeout messages next answers (.ok result ⟨after, content⟩)
  | waiting (got : accepted next (Answer.entries answers) = []) :
    AnswersEnd timeout messages next answers (.error .pending state)

/-- An answer that delivers nothing comes before those on which `Recv` ends. -/
theorem AnswersEnd.skip {answer : Answer} {answers : List Answer}
    (skipped : accepted next (Answer.entries [answer]) = [])
    (ended : AnswersEnd timeout (messages + (Answer.entries [answer]).length) next answers result) :
    AnswersEnd timeout messages next (answer :: answers) result := by
  have more (used : List Answer) : accepted next (Answer.entries (answer :: used)) =
      accepted next (Answer.entries used) := by
    have joined := accepted_append next (Answer.entries [answer]) (Answer.entries used)
    rwa [← Answer.entries_append, skipped] at joined
  have count (used : List Answer) : messages + (Answer.entries (answer :: used)).length =
      messages + (Answer.entries [answer]).length + (Answer.entries used).length := by
    have joined := congrArg List.length (Answer.entries_append [answer] used)
    rw [List.length_append] at joined
    exact (congrArg (messages + ·) joined).trans (Nat.add_assoc ..).symm
  cases ended with
  | @returned after result content used rest split got left takes =>
    refine .returned (answer :: used) rest ?_ ?_ ?_ ?_
    · rw [split, List.cons_append]
    · exact (more used).trans got
    · rw [left, count used]
    · rw [count used, more used]
      exact takes
  | waiting got => exact .waiting ((more answers).trans got)

theorem AnswersEnd.skip_idle {answer : Answer} (quiet : answer.message? = none)
    (ended : AnswersEnd timeout messages next answers result) :
    AnswersEnd timeout messages next (answer :: answers) result := by
  have none : Answer.entries [answer] = [] := Answer.entries_idle quiet []
  refine .skip (by rw [none]; rfl) ?_
  rwa [none]

theorem AnswersEnd.skip_message {answer : Answer} (entry : answer.message? = some (index, body))
    (other : index ≠ next) (ended : AnswersEnd timeout (messages + 1) next answers result) :
    AnswersEnd timeout messages next (answer :: answers) result := by
  have one : Answer.entries [answer] = [(index, body)] := Answer.entries_message entry []
  refine .skip ?_ ?_
  · rw [one]
    exact if_neg other
  · rwa [one]

/-- `Recv` returns without having used an answer. -/
theorem AnswersEnd.unused (answers : List Answer) (takes : Takes after timeout messages next)
    (content : Bytes) :
    AnswersEnd timeout messages next answers
      (.ok ⟨false, needResend, Answer.polls (messages = 0) answers⟩ ⟨after, content⟩) :=
  .returned [] answers rfl rfl rfl takes

theorem recvRedis_answers (withResend : Bool) (i : Int) (answers : List Answer) (content : Bytes)
    (takes : Takes client timeout messages next) (ready : Answer.Ready messages answers) :
    AnswersEnd timeout messages next answers
      (recvRedis withResend i (Answer.polls (messages = 0) answers) ⟨client, content⟩) := by
  induction answers generalizing i client messages next with
  | nil =>
    unfold Answer.polls
    rw [recvRedis_nil]
    split
    · exact .waiting rfl
    · exact .unused [] takes content
  | cons answer answers ih =>
    have treated := recvBody_answer withResend content takes ready
    by_cases inTime : client.InTime i
    · unfold Answer.polls
      rw [recvRedis_cons, if_pos inTime]
      revert treated
      generalize recvBody withResend (answer.poll (messages = 0)) ⟨client, content⟩ = result
      intro treated
      cases treated with
      | idle quiet later =>
        simp only [quiet, Option.isNone_none, Bool.and_true]
        exact .skip_idle quiet (ih (addInt i 1) later (ready.idle quiet))
      | @delivered body after entry later =>
        have one : Answer.entries [answer] = [(next, body)] := Answer.entries_message entry []
        have got : accepted next (Answer.entries [answer]) = [body] := by
          rw [one]
          exact if_pos rfl
        refine .returned [answer] answers rfl got ?_ ?_
        · rw [one]
          simp [entry]
        · rw [one] at got ⊢
          rw [got]
          exact later
      | repeated entry old later =>
        simp only [entry, Option.isNone_some, Bool.and_false]
        exact .skip_message entry (Nat.ne_of_lt old)
          (ih 1 later fun fresh => absurd fresh (Nat.succ_ne_zero _))
      | gap entry other ahead later =>
        simp only [entry, Option.isNone_some, Bool.and_false]
        exact .skip_message entry other (.unused answers later content)
    · unfold Answer.polls
      rw [recvRedis_cons, if_neg inTime]
      exact .unused (answer :: answers) takes content

/-- Calls of `Recv` one after the other, with an empty string each: what the successful
ones return, and the polls that are left. A call that has not returned is the last. -/
def receives (taskid : String) : List Bool → List Poll → RpcClient → List Bytes × List Poll
  | [], polls, _ => ([], polls)
  | withResend :: calls, polls, client =>
    match recv taskid withResend ⟨fun _ => polls, .failed⟩ ⟨client, []⟩ with
    | .ok result after =>
      let (contents, rest) := receives taskid calls result.rest after.client
      (if result.ret then after.content :: contents else contents, rest)
    | .error _ _ => ([], [])

/-- While no message has been popped, the rest of a list still starts with one. -/
theorem Answer.Ready.rest {used rest : List Answer} (ready : Answer.Ready messages (used ++ rest)) :
    Answer.Ready (messages + (Answer.entries used).length) rest := by
  induction used generalizing messages with
  | nil => exact ready
  | cons answer used ih =>
    cases entry : answer.message? with
    | none =>
      rw [Answer.entries_idle entry]
      exact ih (ready.idle entry)
    | some message =>
      rw [Answer.entries_message entry, List.length_cons]
      exact fun fresh => absurd fresh (by omega)

theorem receives_answers (taskid : String) (calls : List Bool) (answers : List Answer)
    (takes : Takes client timeout messages next) (ready : Answer.Ready messages answers) :
    ∃ used rest, answers = used ++ rest ∧
      (receives taskid calls (Answer.polls (messages = 0) answers) client).1 =
        accepted next (Answer.entries used) ∧
      (receives taskid calls (Answer.polls (messages = 0) answers) client).2.length =
        rest.length := by
  induction calls generalizing client messages next answers with
  | nil => exact ⟨[], answers, rfl, rfl, Answer.length_polls _ answers⟩
  | cons withResend calls ih =>
    have ended := recvRedis_answers withResend 1 answers [] takes ready
    unfold receives
    simp only [recv_eq_recvRedis taskid withResend _ client [] takes.redis]
    revert ended
    generalize recvRedis withResend 1 (Answer.polls (messages = 0) answers) ⟨client, []⟩ = result
    intro ended
    cases ended with
    | waiting got => exact ⟨answers, [], (List.append_nil _).symm, got.symm, rfl⟩
    | @returned after result content used rest split got left later =>
      subst split
      obtain ⟨more, final, resplit, contents, length⟩ := ih rest later ready.rest
      refine ⟨used ++ more, final, ?_, ?_, ?_⟩
      · rw [resplit, List.append_assoc]
      · rw [Answer.entries_append, accepted_append]
        simp only [left, contents]
        cases flag : result.ret <;> rw [flag] at got <;> simp [got]
      · simp only [left, length]

end GaiaNet.Grpc
