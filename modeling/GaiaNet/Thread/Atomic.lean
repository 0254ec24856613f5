import GaiaNet.Lib.Linearize
import GaiaNet.Thread.CEvent
import Mathlib.Data.List.Induction

/-! `CEvent` as a sequential object: in whatever order the threads take their steps, each call
has its effect at one moment, as if the calls were made one after the other. -/

namespace GaiaNet.Thread

open Lib.Linearize Lib.Transition

/-- The calls of an event that are made one at a time. `Wait` can be made while the flag is
set, and clears it if the event is not reset by hand. -/
def EventCall.object (bManual : Bool) : Object EventCall Bool Bool
  | .set, _ => some (true, true)
  | .wait, bSet => if bSet then some (true, bManual) else none
  | .reset, _ => some (true, false)
  | .isSet, bSet => some (bSet, bSet)

/-- `Set` has had its effect before it notifies. -/
def EventPc.stage : EventPc → Stage EventCall Bool
  | .outside => .idle
  | .setLocking | .setting => .pending .set
  | .notifying => .done true
  | .waitLocking | .testing _ | .asleep | .woken => .pending .wait
  | .resetLocking | .clearing => .pending .reset
  | .isSetLocking | .reading => .pending .isSet

namespace CEvent

variable {threads : Nat}

abbrev EventEntry (threads : Nat) := Entry (Fin threads) EventCall Bool

/-- The effects of the critical sections; only `Set` returns later. -/
def emits : EventLabel threads → CEvent threads → List (EventEntry threads)
  | .call thread call, _ => [.invoked thread call]
  | .spurious _, _ => []
  | .advance thread _, event =>
    match event.pc thread with
    | .setting =>
      if event.bSet then [.took thread .set true, .returned thread true]
      else [.took thread .set true]
    | .notifying => [.returned thread true]
    | .testing _ =>
      if event.bSet then [.took thread .wait true, .returned thread true] else []
    | .clearing => [.took thread .reset true, .returned thread true]
    | .reading => [.took thread .isSet event.bSet, .returned thread event.bSet]
    | _ => []

def stage (event : CEvent threads) (thread : Fin threads) : Stage EventCall Bool :=
  (event.pc thread).stage

theorem stage_goto {thread : Fin threads} {entries : List (EventEntry threads)}
    (event : CEvent threads) (pc : EventPc) (own : ∀ entry ∈ entries, entry.thread = thread)
    (goes : run Stage.next entries (event.stage thread) = some pc.stage)
    (other : Fin threads) :
    run (Stage.follow other) entries (event.stage other) = some ((event.goto thread pc).stage other) := by
  by_cases same : other = thread
  · subst same
    rw [follow_own own, goes, stage, goto_self]
  · rw [follow_others own same, stage, stage, goto_of_ne same]

theorem emits_own {thread : Fin threads} {wakes : Option (Fin threads)} (event : CEvent threads) :
    ∀ entry ∈ emits (.advance thread wakes) event, entry.thread = thread := by
  intro entry member
  simp only [emits] at member
  split at member
  · split at member
    · simp only [List.mem_cons, List.not_mem_nil, or_false] at member
      rcases member with rfl | rfl <;> rfl
    · rw [List.mem_singleton.mp member]
      rfl
  · rw [List.mem_singleton.mp member]
    rfl
  · split at member
    · simp only [List.mem_cons, List.not_mem_nil, or_false] at member
      rcases member with rfl | rfl <;> rfl
    · cases member
  · simp only [List.mem_cons, List.not_mem_nil, or_false] at member
    rcases member with rfl | rfl <;> rfl
  · simp only [List.mem_cons, List.not_mem_nil, or_false] at member
    rcases member with rfl | rfl <;> rfl
  · cases member

section

variable {thread : Fin threads} {wakes : Option (Fin threads)} {event after : CEvent threads}

/-- A thread on its way to its critical section, or asleep, has had no effect yet. -/
theorem stage_silent {before : EventPc} (pc : EventPc) (at_ : event.pc thread = before)
    (same : before.stage = pc.stage) (other : Fin threads) :
    (event.goto thread pc).stage other = event.stage other := by
  by_cases here : other = thread
  · subst here
    rw [stage, stage, goto_self, at_, same]
  · rw [stage, stage, goto_of_ne here]

theorem stage_lock {before pc : EventPc} (at_ : event.pc thread = before)
    (locked : event.lock thread pc = some after) (same : before.stage = pc.stage)
    (other : Fin threads) : some (event.stage other) = some (after.stage other) := by
  obtain ⟨-, rfl⟩ := lock_eq locked
  exact congrArg some (stage_silent pc at_ same other).symm

/-- Each thread goes through its calls as its entries say. -/
theorem threads_advance (moved : event.advance thread wakes = some after) (other : Fin threads) :
    run (Stage.follow other) (emits (.advance thread wakes) event) (event.stage other) =
      some (after.stage other) := by
  have own : ∀ entry ∈ emits (.advance thread wakes) event, entry.thread = thread := emits_own event
  unfold advance at moved
  split at moved
  case h_1 | h_7 => cases moved
  case h_2 at_ | h_5 at_ | h_8 at_ | h_9 at_ | h_11 at_ =>
    simp only [emits, at_]
    exact stage_lock at_ moved rfl other
  case h_3 at_ =>
    cases moved
    simp only [emits, at_] at own ⊢
    unfold setLocked
    cases set : event.bSet with
    | true =>
      rw [set] at own
      exact stage_goto event .outside own (by rw [stage, at_]; rfl) other
    | false =>
      rw [set] at own
      exact stage_goto event .notifying own (by rw [stage, at_]; rfl) other
  case h_4 at_ =>
    obtain ⟨notified, woke, rfl⟩ := Option.map_eq_some_iff.mp moved
    have same (waiter : Fin threads) : notified.stage waiter = event.stage waiter := by
      obtain ⟨sleeper, -, asleep, rfl⟩ | ⟨-, rfl⟩ := notifyOne_eq woke
      · exact stage_silent .woken asleep rfl waiter
      · rfl
    simp only [emits, at_] at own ⊢
    rw [← same]
    refine stage_goto notified .outside own ?_ other
    rw [same, stage, at_]
    rfl
  case h_6 again at_ =>
    cases moved
    simp only [emits, at_] at own ⊢
    unfold test
    cases set : event.bSet with
    | true =>
      rw [set] at own
      cases manual : event.bManual with
      | true => exact stage_goto event .outside own (by rw [stage, at_]; rfl) other
      | false => exact stage_goto event .outside own (by rw [stage, at_]; rfl) other
    | false => exact congrArg some (stage_silent .asleep at_ rfl other).symm
  case h_10 at_ =>
    cases moved
    simp only [emits, at_] at own ⊢
    exact stage_goto event .outside own (by rw [stage, at_]; rfl) other
  case h_12 at_ =>
    cases moved
    simp only [emits, at_] at own ⊢
    refine stage_goto event .outside own ?_ other
    rw [stage, at_]
    cases event.bSet <;> rfl

/-- The effects of a step are those of the sequential object. -/
theorem effects_advance (moved : event.advance thread wakes = some after) :
    run (EventCall.object event.bManual).effect (emits (.advance thread wakes) event) event.bSet =
      some after.bSet := by
  unfold advance at moved
  split at moved
  case h_1 | h_7 => cases moved
  case h_2 at_ | h_5 at_ | h_8 at_ | h_9 at_ | h_11 at_ =>
    simp only [emits, at_]
    obtain ⟨-, rfl⟩ := lock_eq moved
    rfl
  case h_3 at_ =>
    cases moved
    simp only [emits, at_]
    unfold setLocked
    cases set : event.bSet <;> simp [run, Object.effect, EventCall.object, unlock, goto, set]
  case h_4 at_ =>
    obtain ⟨notified, woke, rfl⟩ := Option.map_eq_some_iff.mp moved
    simp only [emits, at_]
    obtain ⟨sleeper, -, -, rfl⟩ | ⟨-, rfl⟩ := notifyOne_eq woke <;> rfl
  case h_6 again at_ =>
    cases moved
    simp only [emits, at_]
    unfold test
    cases set : event.bSet <;> cases manual : event.bManual <;>
      simp [run, Object.effect, EventCall.object, unlock, goto, set]
  case h_10 at_ =>
    cases moved
    simp only [emits, at_]
    rfl
  case h_12 at_ =>
    cases moved
    simp only [emits, at_]
    simp [run, Object.effect, EventCall.object, unlock, goto]

end

theorem threads_next {label : EventLabel threads} {event after : CEvent threads}
    (moved : event.next label = some after) (other : Fin threads) :
    run (Stage.follow other) (emits label event) (event.stage other) = some (after.stage other) := by
  cases label with
  | advance thread wakes => exact threads_advance moved other
  | call thread call =>
    simp only [next, Option.ite_none_right_eq_some, Option.some.injEq] at moved
    obtain ⟨at_, rfl⟩ := moved
    refine stage_goto event call.entry ?_ ?_ other
    · intro entry member
      rw [List.mem_singleton.mp member]
      rfl
    · rw [stage, at_]
      cases call <;> rfl
  | spurious thread =>
    simp only [next, Option.ite_none_right_eq_some, Option.some.injEq] at moved
    obtain ⟨at_, rfl⟩ := moved
    exact congrArg some (stage_silent .woken at_ rfl other).symm

theorem effects_next {label : EventLabel threads} {event after : CEvent threads}
    (moved : event.next label = some after) :
    run (EventCall.object event.bManual).effect (emits label event) event.bSet = some after.bSet := by
  cases label with
  | advance thread wakes => exact effects_advance moved
  | call thread call =>
    simp only [next, Option.ite_none_right_eq_some, Option.some.injEq] at moved
    obtain ⟨-, rfl⟩ := moved
    rfl
  | spurious thread =>
    simp only [next, Option.ite_none_right_eq_some, Option.some.injEq] at moved
    obtain ⟨-, rfl⟩ := moved
    rfl

theorem reaches_linearizes {event : CEvent threads} {history : List (EventEntry threads)}
    (path : Reaches (recording next emits) (init bManualReset bInitialSet, []) (event, history)) :
    event.bManual = bManualReset ∧
      Linearizes (EventCall.object bManualReset) bInitialSet event.bSet event.stage history := by
  apply linearizes_of_steps (EventCall.object bManualReset) CEvent.bSet stage
    (fun event => event.bManual = bManualReset) rfl (fun _ => rfl) _ _ _ path
  · exact fun _ _ _ manual moved => (next_bManual moved).trans manual
  · exact fun _ _ _ _ moved => threads_next moved
  · rintro label before after rfl moved
    exact effects_next moved

/-- An event is linearizable: the calls of any number of threads, in any interleaving of their
steps, have had their effects one after the other, each within its call, and every `Wait` has
found the flag set by the effects before it. -/
theorem event_linearizable (bManualReset bInitialSet : Bool) (event : CEvent threads)
    (history : List (EventEntry threads))
    (path : Reaches (recording next emits) (init bManualReset bInitialSet, []) (event, history)) :
    Linearizes (EventCall.object bManualReset) bInitialSet event.bSet event.stage history :=
  (reaches_linearizes path).2

/-- A thread that waits before the other one sets has its effect after it. -/
theorem event_linearizable_two : ∃ event : CEvent 2,
    Linearizes (EventCall.object false) false event.bSet event.stage
      [.invoked 0 .wait, .invoked 1 .set, .took 1 .set true, .returned 1 true, .invoked 1 .isSet,
        .took 0 .wait true, .returned 0 true, .took 1 .isSet false, .returned 1 false] := by
  have ran : (run (recording next emits)
      [.call 0 .wait, .advance 0 none, .call 1 .set, .advance 0 none, .advance 1 none,
        .advance 1 none, .advance 1 (some 0), .call 1 .isSet, .advance 0 none, .advance 0 none,
        .advance 1 none, .advance 1 none] (init false false, [])).map (fun reached => reached.2) =
      some [.invoked 0 .wait, .invoked 1 .set, .took 1 .set true, .returned 1 true,
        .invoked 1 .isSet, .took 0 .wait true, .returned 0 true, .took 1 .isSet false,
        .returned (1 : Fin 2) false] := by
    decide +kernel
  obtain ⟨⟨event, history⟩, reached, rfl⟩ := Option.map_eq_some_iff.mp ran
  exact ⟨event, event_linearizable false false event _ (Reaches.ofRun _ reached)⟩

/-- The effects after which the flag is clear. -/
def clears (bManual : Bool) : EventEntry threads → Bool
  | .took _ .wait _ => !bManual
  | .took _ .reset _ => true
  | _ => false

/-- The flag is set because it was at first, or because of a `Set`, and not cleared since. -/
def SetBy (bManual bInitialSet : Bool) (entries : List (EventEntry threads)) : Prop :=
  (bInitialSet = true ∧ ∀ entry ∈ entries, clears bManual entry = false) ∨
    ∃ earlier setter later, entries = earlier ++ .took setter .set true :: later ∧
      ∀ entry ∈ later, clears bManual entry = false

section

variable {bManual bInitialSet bSet : Bool}

theorem SetBy.append {entries : List (EventEntry threads)} {entry : EventEntry threads}
    (setBy : SetBy bManual bInitialSet entries) (keeps : clears bManual entry = false) :
    SetBy bManual bInitialSet (entries ++ [entry]) := by
  have still {others : List (EventEntry threads)}
      (clear : ∀ other ∈ others, clears bManual other = false) :
      ∀ other ∈ others ++ [entry], clears bManual other = false := by
    intro other member
    rcases List.mem_append.mp member with before | last
    · exact clear other before
    · rw [List.mem_singleton.mp last]
      exact keeps
  rcases setBy with ⟨initially, clear⟩ | ⟨earlier, setter, later, rfl, clear⟩
  · exact Or.inl ⟨initially, still clear⟩
  · refine Or.inr ⟨earlier, setter, later ++ [entry], ?_, still clear⟩
    rw [List.append_assoc, List.cons_append]

/-- An effect that leaves the flag set. -/
theorem effect_setBy {entries : List (EventEntry threads)} {entry : EventEntry threads}
    (before : bSet = true → SetBy bManual bInitialSet entries)
    (taken : (EventCall.object bManual).effect entry bSet = some true) :
    SetBy bManual bInitialSet (entries ++ [entry]) := by
  cases entry with
  | invoked | returned =>
    cases taken
    exact (before rfl).append rfl
  | took thread call result =>
    cases call with
    | set =>
      simp only [Object.effect, EventCall.object, Option.ite_none_right_eq_some] at taken
      rw [taken.1]
      exact Or.inr ⟨entries, thread, [], rfl, nofun⟩
    | wait =>
      cases bSet with
      | false => cases taken
      | true =>
        simp only [Object.effect, EventCall.object, if_true, Option.ite_none_right_eq_some,
          Option.some.injEq] at taken
        refine (before rfl).append ?_
        simp [clears, taken.2]
    | reset => simp [Object.effect, EventCall.object] at taken
    | isSet =>
      simp only [Object.effect, EventCall.object, Option.ite_none_right_eq_some,
        Option.some.injEq] at taken
      exact (before taken.2).append rfl

theorem run_setBy {entries : List (EventEntry threads)}
    (ran : run (EventCall.object bManual).effect entries bInitialSet = some bSet)
    (set : bSet = true) : SetBy bManual bInitialSet entries := by
  induction entries using List.reverseRecOn generalizing bSet with
  | nil =>
    cases ran
    exact Or.inl ⟨set, nofun⟩
  | append_singleton entries entry ih =>
    rw [run_append, Option.bind_eq_some_iff] at ran
    obtain ⟨middle, before, last⟩ := ran
    subst set
    apply effect_setBy (ih before)
    simpa [run] using last

end

/-- Every `Wait` that gets through is owed to a `Set`, or to the flag the event began with, and
on an event that resets itself to one of its own: no other `Wait` came through since. -/
theorem wait_has_set (bManualReset bInitialSet : Bool) (event : CEvent threads)
    (earlier later : List (EventEntry threads)) (thread : Fin threads) (result : Bool)
    (path : Reaches (recording next emits) (init bManualReset bInitialSet, [])
      (event, earlier ++ .took thread .wait result :: later)) :
    SetBy bManualReset bInitialSet earlier := by
  have effects := (reaches_linearizes path).2.effects
  rw [run_append, Option.bind_eq_some_iff] at effects
  obtain ⟨bSet, before, rest⟩ := effects
  cases bSet with
  | true => exact run_setBy before rfl
  | false => cases rest

/-- Two `Set`s for two `Wait`s, of which the second follows the first. -/
theorem wait_has_set_two : SetBy false false
    [.invoked 0 .set, .took (0 : Fin 2) .set true, .returned 0 true, .invoked 1 .wait,
      .took 1 .wait true, .returned 1 true, .invoked 1 .wait, .invoked 0 .set,
      .took 0 .set true, .returned 0 true] := by
  have ran : (run (recording next emits)
      [.call 0 .set, .advance 0 none, .advance 0 none, .advance 0 none, .call 1 .wait,
        .advance 1 none, .advance 1 none, .call 1 .wait, .call 0 .set, .advance 0 none,
        .advance 0 none, .advance 0 none, .advance 1 none, .advance 1 none]
      (init false false, [])).map (fun reached => reached.2) =
      some ([.invoked 0 .set, .took (0 : Fin 2) .set true, .returned 0 true, .invoked 1 .wait,
        .took 1 .wait true, .returned 1 true, .invoked 1 .wait, .invoked 0 .set,
        .took 0 .set true, .returned 0 true] ++ .took 1 .wait true :: [.returned 1 true]) := by
    decide +kernel
  obtain ⟨⟨event, history⟩, reached, rfl⟩ := Option.map_eq_some_iff.mp ran
  exact wait_has_set false false event _ _ 1 true (Reaches.ofRun _ reached)

end CEvent

end GaiaNet.Thread
