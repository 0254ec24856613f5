import GaiaNet.Thread.CEvent

/-! Which waiters a set event leaves asleep: `Set` notifies one of them, whether or not the
event is reset by hand. -/

namespace GaiaNet.Thread

open Lib.Transition

/-- A waiter that has been woken and has not tested the flag again. -/
def EventPc.due : EventPc → Bool
  | .woken | .testing true => true
  | _ => false

namespace CEvent

variable {threads : Nat}

/-- Once a set event has been notified no thread sleeps on it, or, if the flag goes to one
waiter, another one is on its way to it. -/
def Served (event : CEvent threads) : Prop :=
  event.bSet = true → (∀ thread, event.pc thread ≠ .notifying) →
    (event.bManual = true → ∀ thread, event.pc thread ≠ .asleep) ∧
    (event.bManual = false → (∃ thread, event.pc thread = .asleep) →
      ∃ other, (event.pc other).due = true)

/-- The waiter that `notify_one` wakes is the only one asleep, if the event is one that stays set,
still is set, and no other `Set` is about to notify. -/
def Single : EventLabel threads → CEvent threads → Prop
  | .advance thread (some wakes), event =>
    event.pc thread = .notifying → event.pc wakes = .asleep → event.bManual = true →
      event.bSet = true → (∃ other, other ≠ thread ∧ event.pc other = .notifying) ∨
        ∀ other, event.pc other = .asleep → other = wakes
  | _, _ => True

/-- A step that leaves the flag alone, neither falls asleep nor notifies, and takes no due waiter
from an event that resets itself. -/
theorem Served.goto {thread : Fin threads} {pc : EventPc} {event : CEvent threads}
    (served : event.Served) (awake : pc ≠ .asleep) (silent : event.pc thread ≠ .notifying)
    (kept : event.bManual = false → (event.pc thread).due = true → pc.due = true) :
    (event.goto thread pc).Served := by
  intro set quiet
  have before (other : Fin threads) : event.pc other ≠ .notifying := by
    by_cases same : other = thread
    · rw [same]
      exact silent
    · rw [← goto_of_ne same]
      exact quiet other
  have slept {other : Fin threads} (asleep : (event.goto thread pc).pc other = .asleep) :
      event.pc other = .asleep := by
    by_cases same : other = thread
    · rw [same, goto_self] at asleep
      exact absurd asleep awake
    · rwa [goto_of_ne same] at asleep
  obtain ⟨manual, automatic⟩ := served set before
  constructor
  · exact fun stays other asleep => manual stays other (slept asleep)
  · rintro resets ⟨other, asleep⟩
    obtain ⟨waiter, due⟩ := automatic resets ⟨other, slept asleep⟩
    refine ⟨waiter, ?_⟩
    by_cases same : waiter = thread
    · rw [same, goto_self]
      exact kept resets (same ▸ due)
    · rwa [goto_of_ne same]

theorem Served.unset {event : CEvent threads} (clear : event.bSet = false) : event.Served := by
  intro set
  rw [clear] at set
  cases set

theorem Served.lock {thread : Fin threads} {pc : EventPc} {event after : CEvent threads}
    (served : event.Served) (moved : event.lock thread pc = some after) (awake : pc ≠ .asleep)
    (silent : event.pc thread ≠ .notifying)
    (kept : (event.pc thread).due = true → pc.due = true) : after.Served := by
  obtain ⟨-, rfl⟩ := lock_eq moved
  exact Served.goto served awake silent fun _ => kept

theorem Served.leave {thread : Fin threads} {event : CEvent threads} (served : event.Served)
    (silent : event.pc thread ≠ .notifying)
    (kept : event.bManual = false → ¬ (event.pc thread).due = true) :
    (event.unlock thread .outside).Served :=
  Served.goto served nofun silent fun resets due => absurd due (kept resets)

theorem Served.notify {thread : Fin threads} {wakes : Option (Fin threads)}
    {event notified : CEvent threads} (single : Single (.advance thread wakes) event)
    (at_ : event.pc thread = .notifying) (woke : event.notifyOne wakes = some notified) :
    (notified.goto thread .outside).Served := by
  intro set quiet
  obtain ⟨waiter, rfl, asleep, rfl⟩ | ⟨awake, same⟩ := notifyOne_eq woke
  · have apart : waiter ≠ thread := by
      rintro rfl
      cases at_.symm.trans asleep
    -- A thread at rest stands where it stood before the notification.
    have stood {other : Fin threads} (neither : other ≠ thread ∧ other ≠ waiter) :
        ((event.goto waiter .woken).goto thread .outside).pc other = event.pc other := by
      rw [goto_of_ne neither.1, goto_of_ne neither.2]
    constructor
    · intro manual other sleeps
      have neither : other ≠ thread ∧ other ≠ waiter := by
        constructor
        · rintro rfl
          rw [goto_self] at sleeps
          cases sleeps
        · rintro rfl
          rw [goto_of_ne apart, goto_self] at sleeps
          cases sleeps
      rw [stood neither] at sleeps
      rcases single at_ asleep manual set with ⟨late, differs, notifies⟩ | only
      · have elsewhere : late ≠ waiter := by
          rintro rfl
          cases notifies.symm.trans asleep
        exact quiet late ((stood ⟨differs, elsewhere⟩).trans notifies)
      · exact neither.2 (only other sleeps)
    · rintro - -
      refine ⟨waiter, ?_⟩
      rw [goto_of_ne apart, goto_self]
      rfl
  · subst same
    have none (other : Fin threads) : (notified.goto thread .outside).pc other ≠ .asleep := by
      by_cases same : other = thread
      · rw [same, goto_self]
        nofun
      · rw [goto_of_ne same]
        exact awake other
    exact ⟨fun _ => none, fun _ ⟨other, asleep⟩ => absurd asleep (none other)⟩

theorem Served.setLocked {thread : Fin threads} {event : CEvent threads} (served : event.Served)
    (at_ : event.pc thread = .setting) : (event.setLocked thread).Served := by
  unfold CEvent.setLocked
  split
  · exact served.leave (by simp [at_]) (by simp [at_, EventPc.due])
  · intro _ quiet
    exact absurd (goto_self ..) (quiet thread)

theorem Served.test {thread : Fin threads} {event : CEvent threads} (served : event.Served)
    (at_ : event.pc thread = .testing again) : (event.test thread).Served := by
  unfold CEvent.test
  split
  · split
    · rename_i manual
      exact served.leave (by simp [at_]) fun resets => absurd (manual.symm.trans resets) nofun
    · exact Served.unset rfl
  · rename_i clear
    exact Served.unset (show event.bSet = false by simpa using clear)

theorem Served.step {label : EventLabel threads} {event after : CEvent threads}
    (served : event.Served) (single : Single label event) (moved : event.next label = some after) :
    after.Served := by
  cases label with
  | call thread call =>
    simp only [next, Option.ite_none_right_eq_some, Option.some.injEq] at moved
    obtain ⟨outside, rfl⟩ := moved
    apply served.goto
    · cases call <;> simp [EventCall.entry]
    · simp [outside]
    · simp [outside, EventPc.due]
  | spurious thread =>
    simp only [next, Option.ite_none_right_eq_some, Option.some.injEq] at moved
    obtain ⟨asleep, rfl⟩ := moved
    exact served.goto (by simp) (by simp [asleep]) fun _ _ => rfl
  | advance thread wakes =>
    simp only [next, advance] at moved
    split at moved
    case h_1 | h_7 => cases moved
    case h_3 at_ =>
      cases moved
      exact served.setLocked at_
    case h_4 at_ =>
      obtain ⟨notified, woke, rfl⟩ := Option.map_eq_some_iff.mp moved
      exact Served.notify single at_ woke
    case h_6 at_ =>
      cases moved
      exact served.test at_
    case h_10 =>
      cases moved
      exact Served.unset rfl
    case h_12 at_ =>
      cases moved
      exact served.leave (by simp [at_]) (by simp [at_, EventPc.due])
    case h_8 at_ => exact served.lock moved (by simp) (by simp [at_]) fun _ => rfl
    all_goals
      rename_i at_
      exact served.lock moved (by simp) (by simp [at_]) (by simp [at_, EventPc.due])

theorem init_served (bManualReset bInitialSet : Bool) :
    (init bManualReset bInitialSet : CEvent threads).Served :=
  fun _ _ => ⟨fun _ _ => nofun, fun _ ⟨_, asleep⟩ => nomatch asleep⟩

theorem single_of_automatic {event : CEvent threads} (automatic : event.bManual = false)
    (label : EventLabel threads) : Single label event := by
  unfold Single
  split
  · exact fun _ _ manual => absurd (manual.symm.trans automatic) nofun
  · exact trivial

/-- An event that resets itself serves its waiters in every run. -/
theorem automatic_served (bInitialSet : Bool) (labels : List (EventLabel threads)) :
    Always next Served labels (init false bInitialSet : CEvent threads) := by
  apply Always.of_invariant fun event => event.Served ∧ event.bManual = false
  · exact fun event holds => holds.1
  · rintro label before after ⟨served, automatic⟩ moved
    exact ⟨served.step (single_of_automatic automatic label) moved,
      (next_bManual moved).trans automatic⟩
  · exact ⟨init_served false bInitialSet, rfl⟩

/-- The notification that leaves a second waiter asleep. -/
theorem notify_crowd {thread waiter : Fin threads} {event : CEvent threads}
    (crowd : ¬ Single (.advance thread (some waiter)) event) :
    ∃ after, event.next (.advance thread (some waiter)) = some after ∧ ¬ after.Served := by
  simp only [Single, Classical.not_imp, not_or, not_exists, not_and, Classical.not_forall] at crowd
  obtain ⟨at_, asleep, manual, set, alone, other, sleeps, different⟩ := crowd
  refine ⟨(event.goto waiter .woken).goto thread .outside, ?_, fun served => ?_⟩
  · simp [next, advance, at_, notifyOne, asleep]
  · have apart : other ≠ thread := by
      rintro rfl
      cases at_.symm.trans sleeps
    have quiet (late : Fin threads) :
        ((event.goto waiter .woken).goto thread .outside).pc late ≠ .notifying := by
      by_cases here : late = thread
      · rw [here, goto_self]
        simp
      · rw [goto_of_ne here]
        by_cases woken : late = waiter
        · rw [woken, goto_self]
          simp
        · rw [goto_of_ne woken]
          exact alone late here
    apply (served set quiet).1 manual other
    rw [goto_of_ne apart, goto_of_ne different, sleeps]

theorem served_iff_single (bManualReset bInitialSet : Bool)
    (labels : List (EventLabel threads)) :
    Always next Served labels (init bManualReset bInitialSet : CEvent threads) ↔
      Meets next Single labels (init bManualReset bInitialSet : CEvent threads) := by
  refine Always.iff_meets (fun _ => True) Served (fun _ _ _ _ _ => trivial) ?_ ?_ ?_ labels
    trivial (init_served bManualReset bInitialSet)
  · exact fun _ _ _ _ served single moved => served.step single moved
  · exact fun _ _ served => served
  · intro label event _ _ crowd
    cases label with
    | advance thread wakes =>
      cases wakes with
      | some waiter => exact notify_crowd crowd
      | none => exact absurd trivial crowd
    | call | spurious => exact absurd trivial crowd

/-- A set event leaves waiters asleep exactly when a `Set` that is to release them all wakes one of
several; an event that resets itself leaves none asleep. -/
theorem set_leaves_none_asleep (bManualReset bInitialSet : Bool)
    (labels : List (EventLabel threads)) :
    (Always next Served labels (init bManualReset bInitialSet : CEvent threads) ↔
      Meets next Single labels (init bManualReset bInitialSet : CEvent threads)) ∧
    (bManualReset = false →
      Always next Served labels (init bManualReset bInitialSet : CEvent threads)) := by
  refine ⟨served_iff_single bManualReset bInitialSet labels, ?_⟩
  rintro rfl
  exact automatic_served bInitialSet labels

/-- Two threads wait for an event that is reset by hand, and a third sets it. -/
def crowded (first second setter : Fin threads) : List (EventLabel threads) :=
  [[.call first .wait, .advance first none, .advance first none],
    [.call second .wait, .advance second none, .advance second none],
    [.call setter .set, .advance setter none, .advance setter none,
      .advance setter (some first)]].flatten

theorem set_leaves_asleep :
    ∃ event : CEvent 3, Reaches next (init true false) event ∧ ¬ event.Served ∧
      event.bSet = true ∧ event.pc 1 = .asleep ∧ event.pc 2 = .outside := by
  have ran : (run next (crowded 0 1 2) (init true false : CEvent 3)).map
      (fun event => (event.bManual, event.bSet, event.pc 0, event.pc 1, event.pc 2)) =
        some (true, true, .woken, .asleep, .outside) := by
    decide +kernel
  obtain ⟨event, finished, same⟩ := Option.map_eq_some_iff.mp ran
  simp only [Prod.mk.injEq] at same
  obtain ⟨manual, set, first, second, third⟩ := same
  refine ⟨event, Reaches.ofRun _ finished, fun served => ?_, set, second, third⟩
  have quiet (thread : Fin 3) : event.pc thread ≠ .notifying := by
    match thread with
    | 0 => rw [first]; nofun
    | 1 => rw [second]; nofun
    | 2 => rw [third]; nofun
  exact (served set quiet).1 manual 1 second

end CEvent

end GaiaNet.Thread
