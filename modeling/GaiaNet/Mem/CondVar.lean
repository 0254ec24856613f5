import GaiaNet.Lib.Monitor
import GaiaNet.Mem.Transfer

/-! The mutex and condition variable of `SharedMemoryView::read` and `write`:
both ends as the parties of one monitor. -/

namespace GaiaNet.Mem

open Lib Lib.Chunks Lib.Monitor Lib.Transition

instance : Pair Party where
  decEq := inferInstance
  other
    | .producer => .consumer
    | .consumer => .producer
  other_ne := by rintro (_ | _) <;> simp
  covers := by rintro (_ | _) (_ | _) <;> simp

/-- The guard tested before sleeping: `can_put` for a write, `can_get` for a read. -/
def Action.task : Action σ → SharedMemoryView → Task
  | .write _ len _, view => .guarded (view.canPut len)
  | .read len _, view => .guarded (view.canGet len)
  | .local _, _ => .own
  | .outside, _ => .stuck

def Session.task (bufSize : UInt32) : Party → Session → Task
  | .producer, session =>
    match session.producer.action bufSize with
    | none => .finished
    | some action => action.task session.view
  | .consumer, session =>
    match session.consumer.action bufSize with
    | none => .finished
    | some action => action.task session.view

theorem Action.perform_isSome (action : Action σ) (view : SharedMemoryView) :
    (action.perform view).isSome = (action.task view).enabled := by
  cases action with
  | write buf len next => cases ready : view.canPut len <;> simp [perform, task, Task.enabled, ready]
  | read len next => cases ready : view.canGet len <;> simp [perform, task, Task.enabled, ready]
  | «local» next => rfl
  | outside => rfl

theorem Action.task_isGuarded (action : Action σ) (view later : SharedMemoryView) :
    (action.task later).isGuarded = (action.task view).isGuarded := by
  cases action <;> rfl

theorem Action.perform_own {action : Action σ} (own : action.task view = .own)
    (performed : action.perform view = some (after, next)) : after = view := by
  cases action with
  | «local» target =>
    simp only [perform, Option.some.injEq, Prod.mk.injEq] at performed
    exact performed.1.symm
  | write | read | outside => simp [task] at own

theorem Session.next_isSome (bufSize : UInt32) (party : Party) (session : Session) :
    (session.next bufSize party).isSome = (session.task bufSize party).enabled := by
  cases party with
  | producer =>
    cases chosen : session.producer.action bufSize with
    | none => simp [Session.next, Session.task, chosen, Task.enabled]
    | some action =>
      simp only [Session.task, chosen, ← Action.perform_isSome]
      cases performed : action.perform session.view <;> simp [Session.next, chosen, performed]
  | consumer =>
    cases chosen : session.consumer.action bufSize with
    | none => simp [Session.next, Session.task, chosen, Task.enabled]
    | some action =>
      simp only [Session.task, chosen, ← Action.perform_isSome]
      cases performed : action.perform session.view <;> simp [Session.next, chosen, performed]

theorem Session.next_stable {session after : Session} (moved : session.next bufSize party = some after)
    (guarded : (session.task bufSize (other party)).isGuarded = true) :
    (after.task bufSize (other party)).isGuarded = true := by
  cases party with
  | producer =>
    obtain ⟨_, view, _, _, _, rfl⟩ := Session.next_producer moved
    change (session.task bufSize .consumer).isGuarded = true at guarded
    change (Session.task bufSize .consumer _).isGuarded = true
    cases chosen : session.consumer.action bufSize with
    | none => simp [Session.task, chosen, Task.isGuarded] at guarded
    | some action =>
      simp only [Session.task, chosen] at guarded ⊢
      rw [action.task_isGuarded session.view view]
      exact guarded
  | consumer =>
    obtain ⟨_, view, _, _, _, rfl⟩ := Session.next_consumer moved
    change (session.task bufSize .producer).isGuarded = true at guarded
    change (Session.task bufSize .producer _).isGuarded = true
    cases chosen : session.producer.action bufSize with
    | none => simp [Session.task, chosen, Task.isGuarded] at guarded
    | some action =>
      simp only [Session.task, chosen] at guarded ⊢
      rw [action.task_isGuarded session.view view]
      exact guarded

theorem Session.next_silent {session after : Session} (moved : session.next bufSize party = some after)
    (own : session.task bufSize party = .own) :
    after.task bufSize (other party) = session.task bufSize (other party) := by
  cases party with
  | producer =>
    obtain ⟨action, view, _, chosen, performed, rfl⟩ := Session.next_producer moved
    simp only [Session.task, chosen] at own
    rw [Action.perform_own own performed]
    rfl
  | consumer =>
    obtain ⟨action, view, _, chosen, performed, rfl⟩ := Session.next_consumer moved
    simp only [Session.task, chosen] at own
    rw [Action.perform_own own performed]
    rfl

/-- The session of the transfer model as a monitor. -/
def ring (bufSize : UInt32) : Atomic Party Session where
  task := Session.task bufSize
  step := Session.next bufSize
  enabled := Session.next_isSome bufSize
  stable := fun _ _ _ moved guarded => Session.next_stable moved guarded
  silent := fun _ _ _ moved own => Session.next_silent moved own

/-- Calls of `recv` made or still to be made. -/
def Consumer.calls (consumer : Consumer) : Nat :=
  consumer.todo.length + consumer.returned.length +
    match consumer.pc with
    | .idle => 0
    | .chunks _ _ => 1

/-- No step of the consumer adds or forgets a call. -/
theorem Consumer.calls_action {consumer next : Consumer} {chosen : Action Consumer}
    (selected : consumer.action bufSize = some chosen)
    (performed : chosen.perform view = some (after, next)) : next.calls = consumer.calls := by
  cases pc : consumer.pc with
  | idle =>
    cases todo : consumer.todo with
    | nil => simp [Consumer.action, pc, todo] at selected
    | cons str rest =>
      simp only [Consumer.action, pc, todo, Option.some.injEq] at selected
      subst chosen
      by_cases ready : view.canGet 4 = true
      · simp only [Action.perform, ready, ↓reduceIte, Option.some.injEq, Prod.mk.injEq] at performed
        obtain ⟨_, rfl⟩ := performed
        simp only [Consumer.calls, pc, todo, List.length_cons]
        omega
      · simp [Action.perform, ready] at performed
  | chunks str loop =>
    by_cases more : loop.i < loop.chunkCnt
    · by_cases within : loop.inside str.length = true
      · simp only [Consumer.action, pc, more, within, ↓reduceIte, Option.some.injEq] at selected
        subst chosen
        by_cases ready : view.canGet loop.len = true
        · simp only [Action.perform, ready, ↓reduceIte, Option.some.injEq, Prod.mk.injEq] at performed
          obtain ⟨_, rfl⟩ := performed
          simp [Consumer.calls, pc]
        · simp [Action.perform, ready] at performed
      · simp only [Consumer.action, pc, more, within, ↓reduceIte, Option.some.injEq,
          Bool.false_eq_true] at selected
        subst chosen
        simp [Action.perform] at performed
    · simp only [Consumer.action, pc, more, ↓reduceIte, Option.some.injEq] at selected
      subst chosen
      simp only [Action.perform, Option.some.injEq, Prod.mk.injEq] at performed
      obtain ⟨_, rfl⟩ := performed
      simp only [Consumer.calls, pc, List.length_append, List.length_singleton]
      omega

theorem Session.next_calls {session after : Session} (moved : session.next bufSize party = some after) :
    after.consumer.calls = session.consumer.calls := by
  cases party with
  | producer =>
    obtain ⟨_, _, _, _, _, rfl⟩ := Session.next_producer moved
    rfl
  | consumer =>
    obtain ⟨_, _, _, chosen, performed, rfl⟩ := Session.next_consumer moved
    exact Consumer.calls_action chosen performed

/-- A consumer that makes one call for each message is in a call, or about to
begin one, exactly while segments are outstanding. -/
theorem Consumer.Expects.outstanding {consumer : Consumer}
    (expects : consumer.Expects bufSize.toNat messages ahead)
    (calls : consumer.calls = messages.length) :
    match consumer.action bufSize with
    | none => ahead = []
    | some (.read _ _) => ahead ≠ []
    | _ => True := by
  obtain ⟨_, done, rest, returned, position⟩ := expects
  have count : consumer.returned.length = done.length := by rw [returned, List.length_map]
  cases pc : consumer.pc with
  | idle =>
    simp only [pc] at position
    obtain ⟨whole, same⟩ := position
    have left : consumer.todo.length = rest.length := by
      simp only [Consumer.calls, pc, whole, List.length_append] at calls
      omega
    cases todo : consumer.todo with
    | nil =>
      have none : rest = [] := List.eq_nil_of_length_eq_zero (by rw [← left, todo]; rfl)
      simp [Consumer.action, pc, todo, same, none, frames]
    | cons str strings =>
      cases rest with
      | nil => simp [todo] at left
      | cons body rest => simp [Consumer.action, pc, todo, same, frames_cons]
  | chunks str loop =>
    simp only [pc] at position
    obtain ⟨body, index, _, state, _, _, same⟩ := position
    by_cases more : loop.i < loop.chunkCnt
    · have inside : index < chunkCount bufSize.toNat body.length := by
        rw [← state.i, ← state.chunkCnt]
        exact more
      by_cases within : loop.inside str.length = true
      · simp [Consumer.action, pc, more, within, same, chunksAfter_of_lt inside]
      · simp [Consumer.action, pc, more, within]
    · simp [Consumer.action, pc, more]

/-- While a party is unfinished some guard is open: stored segments are whole,
so the consumer finds the next one unless the ring is empty, and then there is
room for any segment. -/
theorem Session.Inv.live {session : Session} (inv : session.Inv bufSize messages)
    (calls : session.consumer.calls = messages.length)
    (unfinished : ∃ party, session.task bufSize party ≠ .finished) :
    ∃ party, (session.task bufSize party).enabled = true := by
  obtain ⟨consumed, inflight, ahead, aligned⟩ := inv
  have legal : LegalSize bufSize := aligned.sized ▸ aligned.queue.legal
  have reads := aligned.expects.action legal
  have outstanding := aligned.expects.outstanding calls
  cases consumerAction : session.consumer.action bufSize with
  | none =>
    rw [consumerAction] at outstanding
    have empty : ahead = [] := (List.append_eq_nil_iff.mp outstanding).2
    have writes := aligned.sends.action legal
    cases producerAction : session.producer.action bufSize with
    | none =>
      obtain ⟨party, open_⟩ := unfinished
      cases party <;> simp [Session.task, producerAction, consumerAction] at open_
    | some action =>
      rw [producerAction] at writes
      cases action with
      | «local» next => exact ⟨.producer, by simp [Session.task, producerAction, Action.task, Task.enabled]⟩
      | write buf len next =>
        obtain ⟨rest, split, _⟩ := writes
        simp [empty] at split
      | read | outside => exact writes.elim
  | some action =>
    rw [consumerAction] at reads outstanding
    cases action with
    | «local» next => exact ⟨.consumer, by simp [Session.task, consumerAction, Action.task, Task.enabled]⟩
    | write | outside => exact reads.elim
    | read len next =>
      cases inflight with
      | cons segment rest =>
        have length := (reads.2 segment (rest ++ ahead) rfl).1
        have ready : session.view.canGet len = true := by
          rw [aligned.queue.canGet_iff, length, List.flatten_cons, List.length_append]
          omega
        exact ⟨.consumer, by simp [Session.task, consumerAction, Action.task, Task.enabled, ready]⟩
      | nil =>
        have writes := aligned.sends.action legal
        cases producerAction : session.producer.action bufSize with
        | none =>
          rw [producerAction] at writes
          exact absurd writes outstanding
        | some action =>
          rw [producerAction] at writes
          cases action with
          | «local» next =>
            exact ⟨.producer, by simp [Session.task, producerAction, Action.task, Task.enabled]⟩
          | write buf room next =>
            obtain ⟨_, _, _, _, small, _⟩ := writes
            have ready : session.view.canPut room = true := by
              rw [aligned.queue.canPut_iff (by rw [aligned.sized]; exact small), aligned.sized]
              rw [UInt32.le_iff_toNat_le] at small
              simpa using small
            exact ⟨.producer, by simp [Session.task, producerAction, Action.task, Task.enabled, ready]⟩
          | read | outside => exact writes.elim

/-- No deadlock and no lost wake-up: while a party is unfinished, some unfinished
party is not asleep and its next step is enabled. -/
theorem mem_no_lost_wakeup (segment : SharedMemoryView) (bufSize : UInt32) (exponent : Nat)
    (messages strings : List Bytes) (state : Fine Party Session)
    (low : 3 ≤ exponent) (high : exponent ≤ 30) (size : bufSize.toNat = 2 ^ exponent)
    (short : ∀ body ∈ messages, body.length < 2 ^ 31) (calls : strings.length = messages.length)
    (path : Reaches (Fine.next (ring bufSize))
      (Fine.start (Session.start segment bufSize messages strings)) state)
    (unfinished : ∃ party, ¬ state.Finished (ring bufSize) party) :
    ∃ party after, ¬ state.Finished (ring bufSize) party ∧ state.pc party ≠ .asleep ∧
      state.next (ring bufSize) (.advance party) = some after := by
  have atomic := Fine.reaches_atomic path
  have inv : state.shared.Inv bufSize messages := Session.reaches_inv low high size
    (fun body member => Nat.le_of_lt (short body member)) atomic
  have counted : state.shared.consumer.calls = messages.length :=
    atomic.invariant (fun session => session.consumer.calls = messages.length)
      (by simpa [Session.start, Consumer.calls] using calls)
      (fun _ _ _ kept moved => (Session.next_calls moved).trans kept)
  obtain ⟨party, after, awake, moved⟩ :=
    (Fine.reaches_inv path).progress unfinished (inv.live counted)
  refine ⟨party, after, ?_, awake, moved⟩
  rintro ⟨outside, finished⟩
  simp [Fine.next, outside, finished] at moved

/-- The consumer has locked, found the ring empty and gone to sleep; the producer
can go on. -/
theorem mem_no_lost_wakeup_asleep :
    ∃ state : Fine Party Session, state.pc .consumer = .asleep ∧
      ∃ party after, ¬ state.Finished (ring 8) party ∧ state.pc party ≠ .asleep ∧
        state.next (ring 8) (.advance party) = some after := by
  refine ⟨_, ?_, mem_no_lost_wakeup .zeroed 8 3 [[1, 2, 3]] [[]] _ (by decide) (by decide) rfl
    (by decide) rfl (Reaches.ofRun [.advance .consumer, .advance .consumer] rfl)
    ⟨.producer, ?_⟩⟩
  · rfl
  · rintro ⟨_, finished⟩
    exact nomatch finished

end GaiaNet.Mem
