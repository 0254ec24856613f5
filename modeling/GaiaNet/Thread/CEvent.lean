import GaiaNet.Lib.Mutex
import GaiaNet.Lib.Transition

/-! `CEvent` of gaiathread.cpp: any number of threads in `Set`, `Wait`, `Reset` and `IsSet`,
step by step over its mutex and its condition variable. -/

namespace GaiaNet.Thread

open Lib.Mutex Lib.Transition

/-- Where a thread stands. In `setting`, `testing`, `clearing` and `reading` it owns the mutex;
what it does there up to the unlock is one step, as nobody else can look at `m_bSet`.
`testing true` is a waiter that has been woken. -/
inductive EventPc where
  | outside
  | setLocking
  | setting
  | notifying
  | waitLocking
  | testing (again : Bool)
  | asleep
  | woken
  | resetLocking
  | clearing
  | isSetLocking
  | reading
  deriving DecidableEq, Repr

def EventPc.locked : EventPc → Bool
  | .setting | .testing _ | .clearing | .reading => true
  | _ => false

structure CEvent (threads : Nat) where
  mutex : Option (Fin threads)
  bManual : Bool
  bSet : Bool
  pc : Fin threads → EventPc

inductive EventCall where
  | set
  | wait
  | reset
  | isSet
  deriving DecidableEq, Repr

/-- A call, the next step of a thread with the waiter that `notify_one` wakes, or a wake-up
nobody asked for. -/
inductive EventLabel (threads : Nat) where
  | call (thread : Fin threads) (call : EventCall)
  | advance (thread : Fin threads) (wakes : Option (Fin threads))
  | spurious (thread : Fin threads)

def EventCall.entry : EventCall → EventPc
  | .set => .setLocking
  | .wait => .waitLocking
  | .reset => .resetLocking
  | .isSet => .isSetLocking

namespace CEvent

variable {threads : Nat}

def goto (thread : Fin threads) (pc : EventPc) (event : CEvent threads) : CEvent threads :=
  { event with pc := Function.update event.pc thread pc }

def lock (thread : Fin threads) (pc : EventPc) (event : CEvent threads) : Option (CEvent threads) :=
  match event.mutex with
  | none => some ({ event with mutex := some thread }.goto thread pc)
  | some _ => none

def unlock (thread : Fin threads) (pc : EventPc) (event : CEvent threads) : CEvent threads :=
  { event with mutex := none }.goto thread pc

/-- `notify_one` wakes a thread that is asleep, if there is one. -/
def notifyOne (wakes : Option (Fin threads)) (event : CEvent threads) : Option (CEvent threads) :=
  match wakes with
  | some thread => if event.pc thread = .asleep then some (event.goto thread .woken) else none
  | none => if ∀ thread, event.pc thread ≠ .asleep then some event else none

/-- `Set` with the mutex locked. -/
def setLocked (thread : Fin threads) (event : CEvent threads) : CEvent threads :=
  if event.bSet then event.unlock thread .outside
  else { event with bSet := true }.unlock thread .notifying

/-- The predicate of `Wait`: the flag is set, and the call returns, or the thread sleeps. -/
def test (thread : Fin threads) (event : CEvent threads) : CEvent threads :=
  if event.bSet then
    if event.bManual then event.unlock thread .outside
    else { event with bSet := false }.unlock thread .outside
  else event.unlock thread .asleep

def advance (thread : Fin threads) (wakes : Option (Fin threads)) (event : CEvent threads) :
    Option (CEvent threads) :=
  match event.pc thread with
  | .outside => none
  | .setLocking => event.lock thread .setting
  | .setting => some (event.setLocked thread)
  | .notifying => (event.notifyOne wakes).map (goto thread .outside)
  | .waitLocking => event.lock thread (.testing false)
  | .testing _ => some (event.test thread)
  | .asleep => none
  | .woken => event.lock thread (.testing true)
  | .resetLocking => event.lock thread .clearing
  | .clearing => some ({ event with bSet := false }.unlock thread .outside)
  | .isSetLocking => event.lock thread .reading
  | .reading => some (event.unlock thread .outside)

def next : EventLabel threads → CEvent threads → Option (CEvent threads)
  | .call thread call, event =>
    if event.pc thread = .outside then some (event.goto thread call.entry) else none
  | .advance thread wakes, event => event.advance thread wakes
  | .spurious thread, event =>
    if event.pc thread = .asleep then some (event.goto thread .woken) else none

/-- The constructor. -/
def init (bManualReset bInitialSet : Bool) : CEvent threads where
  mutex := none
  bManual := bManualReset
  bSet := bInitialSet
  pc := fun _ => .outside

@[simp] theorem goto_self (thread : Fin threads) (pc : EventPc) (event : CEvent threads) :
    (event.goto thread pc).pc thread = pc := by
  simp [goto]

theorem goto_of_ne {thread other : Fin threads} {pc : EventPc} {event : CEvent threads}
    (apart : other ≠ thread) : (event.goto thread pc).pc other = event.pc other := by
  simp [goto, apart]

theorem lock_eq {thread : Fin threads} {pc : EventPc} {event after : CEvent threads}
    (locked : event.lock thread pc = some after) :
    event.mutex = none ∧ after = { event with mutex := some thread }.goto thread pc := by
  unfold lock at locked
  split at locked
  · rename_i free
    exact ⟨free, (Option.some.inj locked).symm⟩
  · cases locked

theorem notifyOne_eq {wakes : Option (Fin threads)} {event after : CEvent threads}
    (notified : event.notifyOne wakes = some after) :
    (∃ thread, wakes = some thread ∧ event.pc thread = .asleep ∧ after = event.goto thread .woken) ∨
      ((∀ thread, event.pc thread ≠ .asleep) ∧ after = event) := by
  cases wakes with
  | some thread =>
    simp only [notifyOne, Option.ite_none_right_eq_some, Option.some.injEq] at notified
    obtain ⟨asleep, rfl⟩ := notified
    exact Or.inl ⟨thread, rfl, asleep, rfl⟩
  | none =>
    simp only [notifyOne, Option.ite_none_right_eq_some, Option.some.injEq] at notified
    obtain ⟨awake, rfl⟩ := notified
    exact Or.inr ⟨awake, rfl⟩

/-- The thread is in its critical section. -/
def Inside (event : CEvent threads) (thread : Fin threads) : Prop := (event.pc thread).locked = true

def Guarded (event : CEvent threads) : Prop := Guards event.mutex event.Inside

/-- The kinds of step: outside the mutex, to its lock, a critical section to its end, `notify_one`. -/
inductive Moved (event : CEvent threads) : CEvent threads → Prop where
  | goes {pc : EventPc} (thread : Fin threads) (outside : pc.locked = false) :
    Moved event (event.goto thread pc)
  | locks {pc : EventPc} (locked : event.lock thread pc = some after) : Moved event after
  | leaves {pc : EventPc} (inside : event.Inside thread) (outside : pc.locked = false) (bSet : Bool) :
    Moved event ({ event with bSet := bSet }.unlock thread pc)
  | notifies (thread : Fin threads) (woke : event.notifyOne wakes = some notified) :
    Moved event (notified.goto thread .outside)

theorem inside_of {thread : Fin threads} {pc : EventPc} {event : CEvent threads}
    (at_ : event.pc thread = pc) (locked : pc.locked = true) : event.Inside thread :=
  (congrArg EventPc.locked at_).trans locked

theorem advance_moved {thread : Fin threads} {wakes : Option (Fin threads)}
    {event after : CEvent threads} (moved : event.advance thread wakes = some after) :
    event.Moved after := by
  unfold advance at moved
  split at moved
  case h_1 | h_7 => cases moved
  case h_3 at_ =>
    cases moved
    unfold setLocked
    split
    · exact .leaves (inside_of at_ rfl) rfl event.bSet
    · exact .leaves (inside_of at_ rfl) rfl true
  case h_4 =>
    obtain ⟨notified, woke, rfl⟩ := Option.map_eq_some_iff.mp moved
    exact .notifies thread woke
  case h_6 again at_ =>
    cases moved
    unfold test
    split
    · split
      · exact .leaves (inside_of at_ rfl) rfl event.bSet
      · exact .leaves (inside_of at_ rfl) rfl false
    · exact .leaves (inside_of at_ rfl) rfl event.bSet
  case h_10 at_ =>
    cases moved
    exact .leaves (inside_of at_ rfl) rfl false
  case h_12 at_ =>
    cases moved
    exact .leaves (inside_of at_ rfl) rfl event.bSet
  all_goals exact .locks moved

theorem next_moved {label : EventLabel threads} {event after : CEvent threads}
    (moved : event.next label = some after) : event.Moved after := by
  cases label with
  | call thread call =>
    simp only [next, Option.ite_none_right_eq_some, Option.some.injEq] at moved
    obtain ⟨-, rfl⟩ := moved
    apply Moved.goes
    cases call <;> rfl
  | advance thread wakes => exact advance_moved moved
  | spurious thread =>
    simp only [next, Option.ite_none_right_eq_some, Option.some.injEq] at moved
    obtain ⟨-, rfl⟩ := moved
    exact .goes thread rfl

/-- How an event is reset is fixed when it is made. -/
theorem next_bManual {label : EventLabel threads} {event after : CEvent threads}
    (moved : event.next label = some after) : after.bManual = event.bManual := by
  cases next_moved moved with
  | goes | leaves => rfl
  | locks locked =>
    obtain ⟨-, rfl⟩ := lock_eq locked
    rfl
  | notifies thread woke =>
    obtain ⟨waiter, -, -, rfl⟩ | ⟨-, rfl⟩ := notifyOne_eq woke <;> rfl

theorem inside_goto (thread : Fin threads) (pc : EventPc) (event : CEvent threads) :
    (event.goto thread pc).Inside = Function.update event.Inside thread (pc.locked = true) := by
  funext other
  by_cases same : other = thread
  · subst same
    simp [Inside]
  · simp [Inside, goto, same]

theorem Guarded.stay {thread : Fin threads} {pc : EventPc} {event : CEvent threads}
    (guarded : event.Guarded) (outside : pc.locked = false) : (event.goto thread pc).Guarded := by
  unfold Guarded
  rw [inside_goto]
  exact Guards.stay guarded fun inside => nomatch outside.symm.trans inside

theorem Guarded.lock {thread : Fin threads} {pc : EventPc} {event after : CEvent threads}
    (guarded : event.Guarded) (moved : event.lock thread pc = some after) : after.Guarded := by
  obtain ⟨free, rfl⟩ := lock_eq moved
  unfold Guarded at guarded ⊢
  rw [free] at guarded
  rw [inside_goto]
  exact guarded.lock thread _

theorem Guarded.unlock {thread : Fin threads} {pc : EventPc} {event : CEvent threads}
    (guarded : event.Guarded) (inside : event.Inside thread) (outside : pc.locked = false) :
    (event.unlock thread pc).Guarded := by
  unfold Guarded CEvent.unlock
  rw [inside_goto]
  exact Guards.unlock guarded inside fun later => nomatch outside.symm.trans later

theorem Guarded.step {label : EventLabel threads} {event after : CEvent threads}
    (guarded : event.Guarded) (moved : event.next label = some after) : after.Guarded := by
  cases next_moved moved with
  | goes thread outside => exact guarded.stay outside
  | locks locked => exact guarded.lock locked
  | leaves inside outside bSet => exact Guarded.unlock guarded inside outside
  | notifies thread woke =>
    obtain ⟨waiter, -, -, rfl⟩ | ⟨-, rfl⟩ := notifyOne_eq woke
    · exact (guarded.stay rfl).stay rfl
    · exact guarded.stay rfl

/-- The critical sections exclude each other, so that each of them is one step. -/
theorem sections_alone {event : CEvent threads}
    (path : Reaches next (init bManualReset bInitialSet) event) (one : event.Inside first)
    (other : event.Inside second) : first = second := by
  have guarded := path.invariant Guarded (fun _ inside => nomatch inside) fun _ _ _ guarded moved =>
    guarded.step moved
  exact Guards.alone guarded one other

end CEvent

end GaiaNet.Thread
