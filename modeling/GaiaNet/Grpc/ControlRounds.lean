import GaiaNet.Grpc.ControlFrames

/-! The rounds that control frames use up: when so many calls of `Recv` return what they
return on the messages alone. -/

namespace GaiaNet.Grpc

open Lib.Replay (accepted accepted_append)

/-- The rest of a call that has come to its round `i`, and the calls after it: what the
successful ones return. -/
def resumes (taskid : String) (withResend : Bool) (calls : List Bool) (i : Int) (polls : List Poll)
    (client : RpcClient) : List Bytes :=
  match recvRedis withResend i polls ⟨client, []⟩ with
  | .ok result after =>
    let later := (receives taskid calls result.rest after.client).1
    if result.ret then after.content :: later else later
  | .error _ _ => []

theorem receives_cons (taskid : String) (withResend : Bool) (calls : List Bool) (polls : List Poll)
    (takes : Takes client timeout messages next) :
    (receives taskid (withResend :: calls) polls client).1 =
      resumes taskid withResend calls 1 polls client := by
  unfold receives resumes
  rw [recv_eq_recvRedis taskid withResend _ client [] takes.redis]
  cases recvRedis withResend 1 polls ⟨client, []⟩ <;> rfl

/-- Where nothing is left to be delivered, nothing is returned. -/
theorem receives_spent (taskid : String) (calls : List Bool) {answers : List Answer}
    (takes : Takes client timeout messages next) (ready : Answer.Ready messages answers)
    (spent : accepted next (Answer.entries answers) = []) :
    (receives taskid calls (Answer.polls (messages = 0) answers) client).1 = [] := by
  obtain ⟨used, rest, split, contents, -⟩ := receives_answers taskid calls answers takes ready
  rw [split, Answer.entries_append, accepted_append] at spent
  rw [contents]
  exact (List.append_eq_nil_iff.mp spent).1

/-- What so many calls return on a list of nothing but messages: a call ends on the message it
waits for, or on one after that. -/
def delivers : List (Nat × Bytes) → Nat → Nat → List Bytes
  | [], _, _ => []
  | _ :: _, 0, _ => []
  | (index, body) :: rest, calls + 1, next =>
    if index = next then body :: delivers rest calls (next + 1)
    else if index < next then delivers rest (calls + 1) next
    else delivers rest calls next

@[simp] theorem delivers_zero (entries : List (Nat × Bytes)) (next : Nat) :
    delivers entries 0 next = [] := by
  cases entries <;> rfl

theorem delivers_accepted (entries : List (Nat × Bytes)) (calls next : Nat) :
    delivers entries calls next <+: accepted next entries := by
  induction entries generalizing calls next with
  | nil => exact List.prefix_refl _
  | cons entry entries ih =>
    cases calls with
    | zero => exact List.nil_prefix
    | succ calls =>
      obtain ⟨index, body⟩ := entry
      unfold delivers accepted
      by_cases same : index = next
      · simp only [if_pos same, List.cons_prefix_cons, true_and]
        exact ih calls (next + 1)
      · simp only [if_neg same]
        split
        · exact ih (calls + 1) next
        · exact ih calls next

theorem delivers_succ (entries : List (Nat × Bytes)) (calls next : Nat) :
    delivers entries calls next <+: delivers entries (calls + 1) next := by
  induction entries generalizing calls next with
  | nil => exact List.prefix_refl _
  | cons entry entries ih =>
    cases calls with
    | zero => exact List.nil_prefix
    | succ calls =>
      obtain ⟨index, body⟩ := entry
      unfold delivers
      by_cases same : index = next
      · simp only [if_pos same, List.cons_prefix_cons, true_and]
        exact ih calls (next + 1)
      · simp only [if_neg same]
        split
        · exact ih (calls + 1) next
        · exact ih calls next

/-- Enough calls return all there is. -/
theorem delivers_all (entries : List (Nat × Bytes)) (next : Nat) :
    ∃ calls, delivers entries calls next = accepted next entries := by
  induction entries generalizing next with
  | nil => exact ⟨0, rfl⟩
  | cons entry entries ih =>
    obtain ⟨index, body⟩ := entry
    by_cases same : index = next
    · obtain ⟨calls, all⟩ := ih (next + 1)
      refine ⟨calls + 1, ?_⟩
      unfold delivers accepted
      rw [if_pos same, if_pos same, all]
    · obtain ⟨calls, all⟩ := ih next
      by_cases old : index < next
      · cases calls with
        | zero =>
          refine ⟨0, ?_⟩
          unfold accepted
          rw [if_neg same, delivers_zero, ← all, delivers_zero]
        | succ calls =>
          refine ⟨calls + 1, ?_⟩
          unfold delivers accepted
          rw [if_neg same, if_pos old, if_neg same, all]
      · refine ⟨calls + 1, ?_⟩
        unfold delivers accepted
        rw [if_neg same, if_neg old, if_neg same, all]

/-- The calls are in their rounds `i` and later wherever a message is still to be delivered:
every answer uses up a round, and a message starts the count again. -/
def Answer.Paced (timeout : Int) : Int → Nat → List Answer → Prop
  | _, _, [] => True
  | i, next, answer :: rest =>
    accepted next (entries (answer :: rest)) = [] ∨
      (i ≤ timeout ∨ timeout = 0) ∧
        match answer.message? with
        | none => Paced timeout (addInt i 1) next rest
        | some (index, _) => Paced timeout 1 (if index = next then next + 1 else next) rest

theorem resumes_late (taskid : String) (withResend : Bool) (calls : List Bool) (polls : List Poll)
    (late : ¬ client.InTime i) :
    resumes taskid withResend calls i polls client = (receives taskid calls polls client).1 := by
  have passed : recvRedis withResend i polls ⟨client, []⟩ = .ok ⟨false, false, polls⟩ ⟨client, []⟩ :=
    recvRedis_expired late withResend polls
  unfold resumes
  rw [passed]
  rfl

theorem resumes_spent (taskid : String) (withResend : Bool) (calls : List Bool) (i : Int)
    {answers : List Answer} (takes : Takes client timeout messages next)
    (ready : Answer.Ready messages answers) (spent : accepted next (Answer.entries answers) = []) :
    resumes taskid withResend calls i (Answer.polls (messages = 0) answers) client = [] := by
  have ended := recvRedis_answers withResend i answers [] takes ready
  unfold resumes
  revert ended
  generalize recvRedis withResend i (Answer.polls (messages = 0) answers) ⟨client, []⟩ = result
  intro ended
  cases ended with
  | waiting got => rfl
  | @returned after result content used rest split got left later =>
    subst split
    rw [Answer.entries_append, accepted_append, List.append_eq_nil_iff] at spent
    obtain ⟨none, spent⟩ := spent
    have refused : result.ret = false := by
      cases flag : result.ret
      · rfl
      · rw [none, flag] at got
        cases got
    simp only [refused, left]
    exact receives_spent taskid calls later ready.rest spent

theorem resumes_idle {answer : Answer} (taskid : String) (withResend : Bool) (rest : List Answer)
    (quiet : answer.message? = none) (takes : Takes client timeout messages next)
    (ready : Answer.Ready messages (answer :: rest)) (inTime : client.InTime i) :
    ∃ after, Takes after timeout messages next ∧ ∀ calls,
      resumes taskid withResend calls i (Answer.polls (messages = 0) (answer :: rest)) client =
        resumes taskid withResend calls (addInt i 1) (Answer.polls (messages = 0) rest) after := by
  have treated := recvBody_answer withResend [] takes ready
  have round := recvRedis_cons withResend i (answer.poll (messages = 0))
    (Answer.polls (messages = 0) rest) ⟨client, []⟩
  rw [if_pos inTime] at round
  rw [Answer.polls_idle quiet]
  unfold resumes
  rw [round]
  revert treated
  generalize recvBody withResend (answer.poll (messages = 0)) ⟨client, []⟩ = result
  intro treated
  cases treated with
  | idle none later => exact ⟨_, later, fun calls => rfl⟩
  | delivered entry | repeated entry | gap entry =>
    rw [quiet] at entry
    cases entry

theorem resumes_message {answer : Answer} (taskid : String) (withResend : Bool) (rest : List Answer)
    (entry : answer.message? = some (index, body)) (takes : Takes client timeout messages next)
    (ready : Answer.Ready messages (answer :: rest)) (inTime : client.InTime i)
    (inside : next < 2 ^ 31) :
    ∃ after, Takes after timeout (messages + 1) (if index = next then next + 1 else next) ∧
      ∀ calls,
        resumes taskid withResend calls i (Answer.polls (messages = 0) (answer :: rest)) client =
          if index = next then
            body :: (receives taskid calls (Answer.polls (messages + 1 = 0) rest) after).1
          else if index < next then
            resumes taskid withResend calls 1 (Answer.polls (messages + 1 = 0) rest) after
          else (receives taskid calls (Answer.polls (messages + 1 = 0) rest) after).1 := by
  have treated := recvBody_answer withResend [] takes ready
  have round := recvRedis_cons withResend i (answer.poll (messages = 0))
    (Answer.polls (messages + 1 = 0) rest) ⟨client, []⟩
  rw [if_pos inTime] at round
  rw [Answer.polls_message entry]
  unfold resumes
  rw [round]
  revert treated
  generalize recvBody withResend (answer.poll (messages = 0)) ⟨client, []⟩ = result
  intro treated
  cases treated with
  | idle quiet =>
    rw [entry] at quiet
    cases quiet
  | delivered same later =>
    rw [entry] at same
    cases same
    refine ⟨_, by rwa [if_pos rfl], fun calls => ?_⟩
    rw [if_pos rfl]
    rfl
  | repeated same old later =>
    rw [entry] at same
    cases same
    have other := Nat.ne_of_lt old
    refine ⟨_, by rwa [if_neg other], fun calls => ?_⟩
    rw [if_neg other, if_pos old]
  | gap same other ahead later =>
    rw [entry] at same
    cases same
    refine ⟨_, by rwa [if_neg other], fun calls => ?_⟩
    rw [if_neg other, if_neg (Nat.lt_asymm (ahead inside))]
    rfl

theorem Answer.entry_fits {answer : Answer} (entry : answer.message? = some (index, body)) :
    index < 2 ^ 31 := by
  cases answer with
  | popped frame =>
    cases frame with
    | data number content fits =>
      cases entry
      exact fits
    | control => cases entry
  | empty | error => cases entry

/-- A number that is still to be delivered is one of those there can be. -/
theorem Answer.next_fits {answers : List Answer} (left : accepted next (entries answers) ≠ []) :
    next < 2 ^ 31 := by
  induction answers generalizing next with
  | nil => exact absurd rfl left
  | cons answer rest ih =>
    cases entry : answer.message? with
    | none =>
      rw [entries_idle entry] at left
      exact ih left
    | some message =>
      obtain ⟨index, body⟩ := message
      have fits := entry_fits entry
      rw [entries_message entry] at left
      unfold accepted at left
      by_cases same : index = next
      · exact same ▸ fits
      · rw [if_neg same] at left
        exact ih left

theorem resumes_delivers {taskid : String} {calls : List Bool}
    (later : ∀ client messages next answers, Takes client timeout messages next →
      Answer.Ready messages answers →
      (receives taskid calls (Answer.polls (messages = 0) answers) client).1 <+:
        delivers (Answer.entries answers) calls.length next)
    (withResend : Bool) (i : Int) (answers : List Answer)
    (takes : Takes client timeout messages next) (ready : Answer.Ready messages answers) :
    resumes taskid withResend calls i (Answer.polls (messages = 0) answers) client <+:
      delivers (Answer.entries answers) (calls.length + 1) next := by
  induction answers generalizing i client messages next with
  | nil =>
    rw [resumes_spent taskid withResend calls i takes ready rfl]
    exact List.nil_prefix
  | cons answer rest ih =>
    by_cases spent : accepted next (Answer.entries (answer :: rest)) = []
    · rw [resumes_spent taskid withResend calls i takes ready spent]
      exact List.nil_prefix
    · have inside := Answer.next_fits spent
      by_cases inTime : client.InTime i
      · cases entry : answer.message? with
        | none =>
          obtain ⟨after, left, same⟩ := resumes_idle taskid withResend rest entry takes ready inTime
          rw [same, Answer.entries_idle entry]
          exact ih (addInt i 1) left (ready.idle entry)
        | some message =>
          obtain ⟨index, body⟩ := message
          obtain ⟨after, left, same⟩ :=
            resumes_message taskid withResend rest entry takes ready inTime inside
          have ready : Answer.Ready (messages + 1) rest := fun fresh => absurd fresh (by omega)
          rw [same, Answer.entries_message entry]
          unfold delivers
          by_cases wanted : index = next
          · rw [if_pos wanted] at left
            simp only [if_pos wanted, List.cons_prefix_cons, true_and]
            exact later _ _ _ _ left ready
          · rw [if_neg wanted] at left
            simp only [if_neg wanted]
            split
            · exact ih 1 left ready
            · exact later _ _ _ _ left ready
      · rw [resumes_late taskid withResend calls _ inTime]
        exact (later _ _ _ _ takes ready).trans (delivers_succ _ _ _)

/-- Calls return no more than as many calls on the messages alone. -/
theorem receives_delivers (taskid : String) (calls : List Bool) (answers : List Answer)
    (takes : Takes client timeout messages next) (ready : Answer.Ready messages answers) :
    (receives taskid calls (Answer.polls (messages = 0) answers) client).1 <+:
      delivers (Answer.entries answers) calls.length next := by
  induction calls generalizing client messages next answers with
  | nil => exact List.nil_prefix
  | cons withResend calls ih =>
    rw [receives_cons taskid withResend calls _ takes]
    exact resumes_delivers (fun _ _ _ answers takes ready => ih answers takes ready) withResend 1
      answers takes ready

/-- A further call is one that has come to its first round. -/
theorem receives_eq_iff (taskid : String) (answers : List Answer)
    (takes : Takes client timeout messages next) :
    (∀ calls, (receives taskid calls (Answer.polls (messages = 0) answers) client).1 =
        delivers (Answer.entries answers) calls.length next) ↔
      ∀ withResend calls,
        resumes taskid withResend calls 1 (Answer.polls (messages = 0) answers) client =
          delivers (Answer.entries answers) (calls.length + 1) next := by
  constructor
  · intro same withResend calls
    rw [← receives_cons taskid withResend calls _ takes]
    exact same (withResend :: calls)
  · intro same calls
    cases calls with
    | nil => exact (delivers_zero _ _).symm
    | cons withResend calls =>
      rw [receives_cons taskid withResend calls _ takes]
      exact same withResend calls

/-- A call that is left too early is one too many for what is still to be delivered. -/
theorem resumes_late_fewer {taskid : String} {answers : List Answer}
    (takes : Takes client timeout messages next) (ready : Answer.Ready messages answers)
    (late : ¬ client.InTime i)
    (same : ∀ calls, resumes taskid withResend calls i (Answer.polls (messages = 0) answers) client =
      delivers (Answer.entries answers) (calls.length + 1) next) :
    accepted next (Answer.entries answers) = [] := by
  have none (calls : Nat) : delivers (Answer.entries answers) calls next = [] := by
    induction calls with
    | zero => exact delivers_zero _ _
    | succ calls ih =>
      have early := receives_delivers taskid (List.replicate calls true) answers takes ready
      have returned := same (List.replicate calls true)
      rw [resumes_late taskid withResend _ _ late, List.length_replicate] at returned
      rw [List.length_replicate, ih, returned] at early
      exact List.prefix_nil.mp early
  obtain ⟨calls, all⟩ := delivers_all (Answer.entries answers) next
  rw [← all, none calls]

/-- However often `Recv` is called, the calls return what they return on the messages alone,
exactly when the answers are paced. -/
theorem resumes_eq_iff (taskid : String) (withResend : Bool) (i : Int) (answers : List Answer)
    (takes : Takes client timeout messages next) (ready : Answer.Ready messages answers) :
    (∀ calls, resumes taskid withResend calls i (Answer.polls (messages = 0) answers) client =
        delivers (Answer.entries answers) (calls.length + 1) next) ↔
      Answer.Paced timeout i next answers := by
  induction answers generalizing i withResend client messages next with
  | nil =>
    refine iff_of_true (fun calls => ?_) trivial
    exact resumes_spent taskid withResend calls i takes ready rfl
  | cons answer rest ih =>
    unfold Answer.Paced
    by_cases spent : accepted next (Answer.entries (answer :: rest)) = []
    · refine iff_of_true (fun calls => ?_) (.inl spent)
      have none := delivers_accepted (Answer.entries (answer :: rest)) (calls.length + 1) next
      rw [spent] at none
      rw [resumes_spent taskid withResend calls i takes ready spent, List.prefix_nil.mp none]
    · have inside := Answer.next_fits spent
      rw [← takes.inTime i]
      simp only [spent, false_or]
      by_cases inTime : client.InTime i
      · simp only [inTime, true_and]
        cases entry : answer.message? with
        | none =>
          obtain ⟨after, left, step⟩ := resumes_idle taskid withResend rest entry takes ready inTime
          simp only [step, Answer.entries_idle entry]
          exact ih withResend (addInt i 1) left (ready.idle entry)
        | some message =>
          obtain ⟨index, body⟩ := message
          obtain ⟨after, left, step⟩ :=
            resumes_message taskid withResend rest entry takes ready inTime inside
          have ready : Answer.Ready (messages + 1) rest := fun fresh => absurd fresh (by omega)
          -- a call that starts on the rest may be any
          have called := receives_eq_iff taskid rest left
          have paced (anyResend : Bool) := ih anyResend 1 left ready
          simp only [step, Answer.entries_message entry, delivers]
          by_cases wanted : index = next
          · simp only [if_pos wanted, List.cons.injEq, true_and] at called paced ⊢
            rw [called]
            exact ⟨fun same => (paced withResend).mp (same withResend),
              fun holds anyResend => (paced anyResend).mpr holds⟩
          · simp only [if_neg wanted] at called paced ⊢
            by_cases old : index < next
            · simp only [if_pos old]
              exact paced withResend
            · simp only [if_neg old]
              rw [called]
              exact ⟨fun same => (paced withResend).mp (same withResend),
                fun holds anyResend => (paced anyResend).mpr holds⟩
      · refine iff_of_false (fun same => ?_) (fun paced => inTime paced.1)
        exact spent (resumes_late_fewer takes ready inTime same)

theorem receives_paced (taskid : String) (answers : List Answer)
    (takes : Takes client timeout messages next) (ready : Answer.Ready messages answers) :
    (∀ calls, (receives taskid calls (Answer.polls (messages = 0) answers) client).1 =
        delivers (Answer.entries answers) calls.length next) ↔
      Answer.Paced timeout 1 next answers := by
  rw [receives_eq_iff taskid answers takes]
  exact ⟨fun same => (resumes_eq_iff taskid true 1 answers takes ready).mp (same true),
    fun paced withResend => (resumes_eq_iff taskid withResend 1 answers takes ready).mpr paced⟩

/-- A client whose timeout is negative pops nothing. -/
theorem receives_never (taskid : String) (calls : List Bool) (polls : List Poll)
    (redis : client.useRedis = true) (never : ¬ client.InTime 1) :
    receives taskid calls polls client = ([], polls) := by
  induction calls with
  | nil => rfl
  | cons withResend calls ih =>
    have passed : recvRedis withResend 1 polls ⟨client, []⟩ =
        .ok ⟨false, false, polls⟩ ⟨client, []⟩ :=
      recvRedis_expired never withResend polls
    unfold receives
    rw [recv_eq_recvRedis taskid withResend _ client [] redis, passed]
    simp only [ih]
    rfl

end GaiaNet.Grpc
