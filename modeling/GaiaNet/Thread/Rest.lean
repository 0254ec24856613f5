import GaiaNet.Lib.Diamond
import GaiaNet.Lib.Potential
import GaiaNet.Thread.Waiters
import Mathlib.Algebra.Order.BigOperators.Group.Finset
import Mathlib.Data.Fintype.Card

/-! An event to which no more calls are made: the threads go on with the calls that are running,
until each of them has returned or sleeps. -/

namespace GaiaNet.Thread

open Lib.Mutex Lib.Potential Lib.Transition

/-- The steps a thread has before its call returns or sleeps. A notification also wakes a
waiter, for two steps more. -/
def EventPc.rank : EventPc → Nat
  | .outside | .asleep => 0
  | .testing _ | .clearing | .reading => 1
  | .waitLocking | .woken | .resetLocking | .isSetLocking => 2
  | .notifying => 3
  | .setting => 4
  | .setLocking => 5

namespace CEvent

variable {threads : Nat}

def potential (event : CEvent threads) : Nat :=
  ∑ thread, (event.pc thread).rank

/-- The steps of the calls that are running. -/
def settle : EventLabel threads → CEvent threads → Option (CEvent threads)
  | .advance thread wakes, event => event.advance thread wakes
  | _, _ => none

/-- The mutex is never left locked. -/
def Attended (event : CEvent threads) : Prop := Tended event.mutex event.Inside

/-- No call is running but a `Wait` that sleeps; none sleeps on a flag that is set, unless the
flag is reset by hand. -/
structure AtRest (event : CEvent threads) : Prop where
  mutex : event.mutex = none
  resting : ∀ thread, event.pc thread = .outside ∨ event.pc thread = .asleep
  served : event.bManual = false → event.bSet = true → ∀ thread, event.pc thread = .outside

theorem settle_next {label : EventLabel threads} {event after : CEvent threads}
    (moved : event.settle label = some after) : event.next label = some after := by
  cases label with
  | advance thread wakes => exact moved
  | call | spurious => cases moved

theorem settle_reaches {event after : CEvent threads} (path : Reaches settle event after) :
    Reaches next event after := by
  induction path with
  | refl => exact Reaches.refl next event
  | tail _ moved ih =>
    obtain ⟨label, moved⟩ := moved
    exact ih.step (settle_next moved)

section

variable {thread : Fin threads} {wakes : Option (Fin threads)} {event after : CEvent threads}

theorem potential_goto (thread : Fin threads) (pc : EventPc) (event : CEvent threads) :
    (event.goto thread pc).potential + (event.pc thread).rank = event.potential + pc.rank :=
  sum_update EventPc.rank event.pc thread pc

theorem lowers_goto {before pc : EventPc} {mutex : Option (Fin threads)} {bSet : Bool}
    (at_ : event.pc thread = before) (less : pc.rank < before.rank) :
    ({ event with mutex := mutex, bSet := bSet }.goto thread pc).potential < event.potential := by
  have moved := potential_goto thread pc event
  rw [at_] at moved
  change (event.goto thread pc).potential < event.potential
  omega

theorem lowers_lock {before pc : EventPc} (at_ : event.pc thread = before)
    (less : pc.rank < before.rank) (moved : event.lock thread pc = some after) :
    after.potential < event.potential := by
  obtain ⟨-, rfl⟩ := lock_eq moved
  exact lowers_goto at_ less

/-- A waiter that is woken gets two steps, the thread that notifies it had three. -/
theorem lowers_notify {notified : CEvent threads} (at_ : event.pc thread = .notifying)
    (woke : event.notifyOne wakes = some notified) :
    (notified.goto thread .outside).potential < event.potential := by
  obtain ⟨waiter, -, asleep, rfl⟩ | ⟨-, rfl⟩ := notifyOne_eq woke
  · have apart : thread ≠ waiter := by
      rintro rfl
      cases at_.symm.trans asleep
    have first := potential_goto waiter .woken event
    have second := potential_goto thread .outside (event.goto waiter .woken)
    rw [goto_of_ne apart, at_] at second
    rw [asleep] at first
    simp only [EventPc.rank] at first second
    omega
  · exact lowers_goto at_ (by decide)

theorem lowers_advance (moved : event.advance thread wakes = some after) :
    after.potential < event.potential := by
  unfold advance at moved
  split at moved
  case h_1 | h_7 => cases moved
  case h_2 at_ | h_5 at_ | h_8 at_ | h_9 at_ | h_11 at_ => exact lowers_lock at_ (by decide) moved
  case h_3 at_ =>
    cases moved
    unfold setLocked
    split <;> exact lowers_goto at_ (by decide)
  case h_4 at_ =>
    obtain ⟨notified, woke, rfl⟩ := Option.map_eq_some_iff.mp moved
    exact lowers_notify at_ woke
  case h_6 again at_ =>
    cases moved
    have less (pc : EventPc) (none : pc.rank = 0) : pc.rank < (EventPc.testing again).rank := by
      rw [none]
      exact Nat.zero_lt_one
    unfold test
    split
    · split <;> exact lowers_goto at_ (less .outside rfl)
    · exact lowers_goto at_ (less .asleep rfl)
  case h_10 at_ | h_12 at_ =>
    cases moved
    exact lowers_goto at_ (by decide)

/-- A thread that goes on outside the mutex. -/
theorem Attended.goto {pc : EventPc} (attended : event.Attended)
    (outside : (event.pc thread).locked = false) : (event.goto thread pc).Attended := by
  unfold Attended
  rw [inside_goto]
  refine Tended.stay attended fun inside => ?_
  cases outside.symm.trans inside

theorem Attended.lock {pc : EventPc} (inside : pc.locked = true)
    (moved : event.lock thread pc = some after) : after.Attended := by
  obtain ⟨-, rfl⟩ := lock_eq moved
  unfold Attended
  rw [inside_goto]
  exact Tended.lock thread inside

theorem Attended.unlock (thread : Fin threads) (pc : EventPc) (event : CEvent threads) :
    (event.unlock thread pc).Attended :=
  Tended.free _

theorem Attended.notify {notified : CEvent threads} (attended : event.Attended)
    (at_ : event.pc thread = .notifying) (woke : event.notifyOne wakes = some notified) :
    (notified.goto thread .outside).Attended := by
  obtain ⟨waiter, -, asleep, rfl⟩ | ⟨-, rfl⟩ := notifyOne_eq woke
  · have apart : thread ≠ waiter := by
      rintro rfl
      cases at_.symm.trans asleep
    apply Attended.goto
    · exact attended.goto (congrArg EventPc.locked asleep)
    · rw [goto_of_ne apart, at_]
      rfl
  · exact attended.goto (congrArg EventPc.locked at_)

theorem Attended.advance (attended : event.Attended)
    (moved : event.advance thread wakes = some after) : after.Attended := by
  unfold CEvent.advance at moved
  split at moved
  case h_1 | h_7 => cases moved
  case h_2 | h_5 | h_8 | h_9 | h_11 => exact Attended.lock rfl moved
  case h_3 =>
    cases moved
    unfold setLocked
    split <;> exact Attended.unlock _ _ _
  case h_4 at_ =>
    obtain ⟨notified, woke, rfl⟩ := Option.map_eq_some_iff.mp moved
    exact attended.notify at_ woke
  case h_6 =>
    cases moved
    unfold test
    split
    · split <;> exact Attended.unlock _ _ _
    · exact Attended.unlock _ _ _
  case h_10 | h_12 =>
    cases moved
    exact Attended.unlock _ _ _

end

theorem Attended.next {label : EventLabel threads} {event after : CEvent threads}
    (attended : event.Attended) (moved : event.next label = some after) : after.Attended := by
  cases label with
  | advance thread wakes => exact attended.advance moved
  | call thread call =>
    simp only [CEvent.next, Option.ite_none_right_eq_some, Option.some.injEq] at moved
    obtain ⟨outside, rfl⟩ := moved
    exact attended.goto (congrArg EventPc.locked outside)
  | spurious thread =>
    simp only [CEvent.next, Option.ite_none_right_eq_some, Option.some.injEq] at moved
    obtain ⟨asleep, rfl⟩ := moved
    exact attended.goto (congrArg EventPc.locked asleep)

/-- What holds of every event: its mutex, and, if it resets itself, its waiters. -/
structure Orderly (event : CEvent threads) : Prop where
  attended : event.Attended
  served : event.bManual = false → event.Served

theorem Orderly.next {label : EventLabel threads} {event after : CEvent threads}
    (orderly : event.Orderly) (moved : event.next label = some after) : after.Orderly := by
  refine ⟨orderly.attended.next moved, fun automatic => ?_⟩
  have before : event.bManual = false := (next_bManual moved).symm.trans automatic
  exact (orderly.served before).step (single_of_automatic before label) moved

theorem reaches_orderly {event : CEvent threads}
    (path : Reaches next (init bManualReset bInitialSet) event) : event.Orderly := by
  apply path.invariant Orderly
  · exact ⟨Tended.free _, fun _ => init_served bManualReset bInitialSet⟩
  · exact fun _ _ _ orderly moved => orderly.next moved

section

variable {event : CEvent threads}

theorem halted_mutex (halted : Halted settle event) (attended : event.Attended) :
    event.mutex = none := by
  cases owned : event.mutex with
  | none => rfl
  | some owner =>
    have inside : event.Inside owner := attended owner owned
    have stuck := halted (.advance owner none)
    simp only [settle, CEvent.advance] at stuck
    unfold Inside at inside
    cases pc : event.pc owner with
    | setting | testing | clearing | reading => simp [pc] at stuck
    | outside | setLocking | notifying | waitLocking | asleep | woken | resetLocking
      | isSetLocking => simp [pc, EventPc.locked] at inside

/-- A notification wakes somebody or nobody, and the call returns. -/
theorem notifyOne_goes (event : CEvent threads) : ∃ wakes notified,
    event.notifyOne wakes = some notified := by
  by_cases sleeps : ∃ waiter, event.pc waiter = .asleep
  · obtain ⟨waiter, asleep⟩ := sleeps
    exact ⟨some waiter, event.goto waiter .woken, if_pos asleep⟩
  · exact ⟨none, event, if_pos (not_exists.mp sleeps)⟩

theorem halted_thread (halted : Halted settle event) (attended : event.Attended)
    (thread : Fin threads) : event.pc thread = .outside ∨ event.pc thread = .asleep := by
  have free := halted_mutex halted attended
  obtain ⟨wakes, notified, woke⟩ := notifyOne_goes event
  have stuck := halted (.advance thread wakes)
  simp only [settle, CEvent.advance] at stuck
  cases pc : event.pc thread with
  | outside => exact Or.inl rfl
  | asleep => exact Or.inr rfl
  | setLocking | waitLocking | woken | resetLocking | isSetLocking =>
    simp [pc, CEvent.lock, free] at stuck
  | setting | testing | clearing | reading => simp [pc] at stuck
  | notifying => simp [pc, woke] at stuck

theorem halted_atRest (halted : Halted settle event) (orderly : event.Orderly) : event.AtRest := by
  have resting := halted_thread halted orderly.attended
  refine ⟨halted_mutex halted orderly.attended, resting, fun automatic set thread => ?_⟩
  rcases resting thread with outside | asleep
  · exact outside
  · have quiet (other : Fin threads) : event.pc other ≠ .notifying := by
      intro notifies
      rcases resting other with at_ | at_ <;> cases notifies.symm.trans at_
    have served := (orderly.served automatic set quiet).2 automatic
    obtain ⟨other, due⟩ := served ⟨thread, asleep⟩
    rcases resting other with at_ | at_ <;> rw [at_] at due <;> cases due

end

/-- The calls that are running on an event come to an end after a bounded number of steps, in
whatever order: only a `Wait` stays, asleep, and on an event that resets itself only while the
flag is clear. -/
theorem event_settles (bManualReset bInitialSet : Bool) (event : CEvent threads)
    (path : Reaches next (init bManualReset bInitialSet) event) :
    (∀ labels final, run settle labels event = some final →
      labels.length + final.potential ≤ event.potential) ∧
    ∀ final, Reaches settle event final → Halted settle final → final.AtRest := by
  constructor
  · intro labels final ran
    apply run_length_le (fun _ => True) potential _ _ labels trivial ran
    · exact fun _ _ _ _ _ => trivial
    · rintro (_ | _ | _) before after - moved
      · cases moved
      · exact lowers_advance moved
      · cases moved
  · intro final rest halted
    exact halted_atRest halted (reaches_orderly (path.trans (settle_reaches rest)))

/-- A thread sleeps, another one is about to set the flag. -/
theorem event_settles_two : ∃ event : CEvent 2, event.pc 0 = .asleep ∧ event.pc 1 = .setLocking ∧
    ∀ final, Reaches settle event final → Halted settle final → final.AtRest := by
  have ran : (run next [.call 0 .wait, .advance 0 none, .advance 0 none, .call 1 .set]
      (init false false : CEvent 2)).map (fun event => (event.pc 0, event.pc 1)) =
        some (.asleep, .setLocking) := by
    decide +kernel
  obtain ⟨event, finished, same⟩ := Option.map_eq_some_iff.mp ran
  exact ⟨event, (Prod.mk.inj same).1, (Prod.mk.inj same).2,
    (event_settles false false event (Reaches.ofRun _ finished)).2⟩

end CEvent

end GaiaNet.Thread
