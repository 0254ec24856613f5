import GaiaNet.Lib.Transition
import Mathlib.Logic.Function.Basic

/-! Two parties that share a state under one mutex and one condition variable.
Each guarded action is: lock, test the guard, sleep while it fails, act, unlock,
signal. The fine steps are related to atomic guarded actions, and a wake-up is
shown never to be lost. -/

namespace Lib.Monitor

open Transition

/-- What a party does next, with the value of its guard in the present state. -/
inductive Task where
  | finished
  | own
  | guarded (ready : Bool)
  | stuck
  deriving DecidableEq

def Task.enabled : Task → Bool
  | .own => true
  | .guarded ready => ready
  | _ => false

def Task.isGuarded : Task → Bool
  | .guarded _ => true
  | _ => false

/-- Two parties, each the other's only peer. -/
class Pair (Party : Type u) where
  decEq : DecidableEq Party
  other : Party → Party
  other_ne : ∀ party, other party ≠ party
  covers : ∀ party peer, peer = party ∨ peer = other party

attribute [reducible, instance] Pair.decEq

export Pair (other)

/-- The atomic view: a party's task and the step that performs it. A guarded
step of one party may open or close the guard of the other, but does not replace
the action it guards; a step of its own changes nothing for the other. -/
structure Atomic (Party : Type u) (State : Type v) [Pair Party] where
  task : Party → State → Task
  step : Party → State → Option State
  enabled : ∀ party state, (step party state).isSome = (task party state).enabled
  stable : ∀ party before after, step party before = some after →
    (task (other party) before).isGuarded = true → (task (other party) after).isGuarded = true
  silent : ∀ party before after, step party before = some after → task party before = .own →
    task (other party) after = task (other party) before

/-- Where a party is inside the locking protocol. -/
inductive Pc where
  | outside
  | testing
  | asleep
  | woken
  | acting
  | unlocking
  | signalling
  deriving DecidableEq

def Pc.owns : Pc → Bool
  | .testing | .acting | .unlocking => true
  | _ => false

structure Fine (Party : Type u) (State : Type v) where
  shared : State
  owner : Option Party
  pc : Party → Pc

/-- A party's own next instruction, or a wake-up nobody signalled. -/
inductive Label (Party : Type u) where
  | advance (party : Party)
  | spurious (party : Party)

variable {Party : Type u} {State : Type v} [Pair Party]

/-- A signal moves the peer from the condition variable to the mutex, if it sleeps. -/
def wake (pc : Pc) : Pc := if pc = .asleep then .woken else pc

def Fine.goto (state : Fine Party State) (party : Party) (pc : Pc) : Fine Party State :=
  { state with pc := Function.update state.pc party pc }

def Fine.acquire (state : Fine Party State) (party : Party) : Option (Fine Party State) :=
  if state.owner = none then some { state.goto party .testing with owner := some party } else none

def Fine.next (atomic : Atomic Party State) :
    Label Party → Fine Party State → Option (Fine Party State)
  | .spurious party, state =>
    if state.pc party = .asleep then some (state.goto party .woken) else none
  | .advance party, state =>
    match state.pc party with
    | .outside =>
      match atomic.task party state.shared with
      | .own => (atomic.step party state.shared).map fun shared => { state with shared }
      | .guarded _ => state.acquire party
      | _ => none
    | .testing =>
      match atomic.task party state.shared with
      | .guarded true => some (state.goto party .acting)
      | .guarded false => some { state.goto party .asleep with owner := none }
      | _ => none
    | .asleep => none
    | .woken => state.acquire party
    | .acting => (atomic.step party state.shared).map fun shared =>
        { state.goto party .unlocking with shared }
    | .unlocking => some { state.goto party .signalling with owner := none }
    | .signalling =>
      some ((state.goto party .outside).goto (other party) (wake (state.pc (other party))))

def Fine.start (shared : State) : Fine Party State where
  shared := shared
  owner := none
  pc := fun _ => .outside

/-- The party has returned from all its calls. -/
def Fine.Finished (atomic : Atomic Party State) (state : Fine Party State) (party : Party) : Prop :=
  state.pc party = .outside ∧ atomic.task party state.shared = .finished

/-- Facts of one party: the mutex is held exactly inside the critical section, an
action runs only under its guard, and a sleeper whose guard has become true is
about to be signalled. -/
structure Fine.Sound (atomic : Atomic Party State) (state : Fine Party State) (party : Party) :
    Prop where
  mutex : (state.pc party).owns = true ↔ state.owner = some party
  engaged : state.pc party ∈ [.testing, .asleep, .woken, .acting] →
    (atomic.task party state.shared).isGuarded = true
  guard : state.pc party = .acting → (atomic.task party state.shared).enabled = true
  pending : state.pc party = .asleep → (atomic.task party state.shared).enabled = true →
    state.pc (other party) ∈ [.unlocking, .signalling]

def Fine.Inv (atomic : Atomic Party State) (state : Fine Party State) : Prop :=
  ∀ party, state.Sound atomic party

theorem other_other (party : Party) : other (other party) = party := by
  rcases Pair.covers (other party) party with same | same
  · exact absurd same.symm (Pair.other_ne party)
  · exact same.symm

theorem Fine.Inv.ofPair {atomic : Atomic Party State} {state : Fine Party State} (party : Party)
    (mover : state.Sound atomic party) (peer : state.Sound atomic (other party)) :
    state.Inv atomic := by
  intro third
  rcases Pair.covers party third with same | same
  · rw [same]; exact mover
  · rw [same]; exact peer

@[simp] theorem Fine.goto_self (state : Fine Party State) (party : Party) (pc : Pc) :
    (state.goto party pc).pc party = pc := by
  simp [Fine.goto]

@[simp] theorem Fine.goto_other (state : Fine Party State) (party : Party) (pc : Pc) :
    (state.goto party pc).pc (other party) = state.pc (other party) := by
  simp [Fine.goto, Pair.other_ne]

@[simp] theorem Fine.goto_shared (state : Fine Party State) (party : Party) (pc : Pc) :
    (state.goto party pc).shared = state.shared := rfl

@[simp] theorem Fine.goto_owner (state : Fine Party State) (party : Party) (pc : Pc) :
    (state.goto party pc).owner = state.owner := rfl

/-- A move of one party that leaves the shared state alone keeps the facts of the
other, unless it withdraws a signal still to be given. -/
theorem Fine.Sound.peer {atomic : Atomic Party State} {before : Fine Party State}
    (sound : before.Sound atomic (other party))
    (mutex : holder = some (other party) ↔ before.owner = some (other party))
    (signal : before.pc party ∈ [.unlocking, .signalling] → target ∈ [.unlocking, .signalling]) :
    Fine.Sound atomic { before.goto party target with owner := holder } (other party) := by
  refine ⟨?_, ?_, ?_, ?_⟩
  · simpa [mutex] using sound.mutex
  · simpa using sound.engaged
  · simpa using sound.guard
  · intro asleep enabled
    have due := sound.pending (by simpa using asleep) (by simpa using enabled)
    rw [other_other] at due ⊢
    simpa using signal due

private theorem owner_of_owns {atomic : Atomic Party State} {state : Fine Party State}
    (sound : state.Sound atomic party) (owns : (state.pc party).owns = true) :
    state.owner = some party ∧ state.owner ≠ some (other party) := by
  have held := sound.mutex.mp owns
  refine ⟨held, ?_⟩
  rw [held]
  intro same
  exact Pair.other_ne party (Option.some.inj same).symm

/-- Taking the free mutex is the same move for a first lock and after a wake-up. -/
theorem Fine.Inv.acquire {atomic : Atomic Party State} {before after : Fine Party State}
    (inv : before.Inv atomic) (guarded : (atomic.task party before.shared).isGuarded = true)
    (silent : before.pc party ∉ [.unlocking, .signalling])
    (moved : before.acquire party = some after) : after.Inv atomic := by
  by_cases free : before.owner = none
  · simp only [Fine.acquire, free, ↓reduceIte, Option.some.injEq] at moved
    subst after
    apply Fine.Inv.ofPair party
    · refine ⟨by simp [Pc.owns], fun _ => guarded, by simp, by simp⟩
    · have distinct : party ≠ other party := (Pair.other_ne party).symm
      exact (inv (other party)).peer (by simp [distinct, free]) (fun due => absurd due silent)
  · simp [Fine.acquire, free] at moved

theorem Fine.Inv.own {atomic : Atomic Party State} {before : Fine Party State}
    (inv : before.Inv atomic) (here : before.pc party = .outside)
    (task : atomic.task party before.shared = .own)
    (moved : atomic.step party before.shared = some result) :
    Fine.Inv atomic { before with shared := result } := by
  have peer := inv (other party)
  have same := atomic.silent party _ _ moved task
  apply Fine.Inv.ofPair party
  · exact ⟨(inv party).mutex, by simp [here], by simp [here], by simp [here]⟩
  · refine ⟨peer.mutex, ?_, ?_, ?_⟩
    · simpa [same] using peer.engaged
    · simpa [same] using peer.guard
    · simpa [same] using peer.pending

theorem Fine.Inv.act {atomic : Atomic Party State} {before : Fine Party State}
    (inv : before.Inv atomic) (here : before.pc party = .acting)
    (moved : atomic.step party before.shared = some result) :
    Fine.Inv atomic { before.goto party .unlocking with shared := result } := by
  have peer := inv (other party)
  obtain ⟨held, notPeer⟩ := owner_of_owns (inv party) (by simp [here, Pc.owns])
  apply Fine.Inv.ofPair party
  · exact ⟨by simp [Pc.owns, held], by simp, by simp, by simp⟩
  · have outsider : (before.pc (other party)).owns = false :=
      Bool.eq_false_iff.mpr (fun owns => notPeer (peer.mutex.mp owns))
    refine ⟨by simpa using peer.mutex, ?_, ?_, ?_⟩
    · intro member
      exact atomic.stable party _ _ moved (peer.engaged (by simpa using member))
    · intro acting
      simp only [Fine.goto_other] at acting
      simp [acting, Pc.owns] at outsider
    · intro _ _
      rw [other_other]
      simp

theorem Fine.Inv.test {atomic : Atomic Party State} {before : Fine Party State}
    (inv : before.Inv atomic) (here : before.pc party = .testing)
    (task : atomic.task party before.shared = .guarded ready) :
    Fine.Inv atomic (if ready then before.goto party .acting
      else { before.goto party .asleep with owner := none }) := by
  have peer := inv (other party)
  obtain ⟨held, notPeer⟩ := owner_of_owns (inv party) (by simp [here, Pc.owns])
  cases ready with
  | true =>
    apply Fine.Inv.ofPair party
    · exact ⟨by simp [Pc.owns, held], by simp [task, Task.isGuarded], by simp [task, Task.enabled],
        by simp⟩
    · exact peer.peer Iff.rfl (by simp [here])
  | false =>
    apply Fine.Inv.ofPair party
    · exact ⟨by simp [Pc.owns], by simp [task, Task.isGuarded], by simp,
        by simp [task, Task.enabled]⟩
    · exact peer.peer (by simp [notPeer]) (by simp [here])

theorem Fine.Inv.unlock {atomic : Atomic Party State} {before : Fine Party State}
    (inv : before.Inv atomic) (here : before.pc party = .unlocking) :
    Fine.Inv atomic { before.goto party .signalling with owner := none } := by
  obtain ⟨_, notPeer⟩ := owner_of_owns (inv party) (by simp [here, Pc.owns])
  apply Fine.Inv.ofPair party
  · exact ⟨by simp [Pc.owns], by simp, by simp, by simp⟩
  · exact (inv (other party)).peer (by simp [notPeer]) (by simp)

theorem Fine.Inv.spurious {atomic : Atomic Party State} {before : Fine Party State}
    (inv : before.Inv atomic) (here : before.pc party = .asleep) :
    Fine.Inv atomic (before.goto party .woken) := by
  have mine := inv party
  apply Fine.Inv.ofPair party
  · refine ⟨?_, fun _ => mine.engaged (by simp [here]), by simp, by simp⟩
    simpa [here, Pc.owns] using mine.mutex
  · exact (inv (other party)).peer Iff.rfl (by simp [here])

/-- The signal reaches the peer exactly when it sleeps, so afterwards it does not. -/
theorem Fine.Inv.signal {atomic : Atomic Party State} {before : Fine Party State}
    (inv : before.Inv atomic) (here : before.pc party = .signalling) :
    Fine.Inv atomic ((before.goto party .outside).goto (other party)
      (wake (before.pc (other party)))) := by
  have peer := inv (other party)
  have back := Fine.goto_other (before.goto party .outside) (other party)
    (wake (before.pc (other party)))
  rw [other_other] at back
  apply Fine.Inv.ofPair party
  · refine ⟨?_, by simp [back], by simp [back], by simp [back]⟩
    simpa [back, here, Pc.owns] using (inv party).mutex
  · have owns : (wake (before.pc (other party))).owns = (before.pc (other party)).owns := by
      cases before.pc (other party) <;> rfl
    have awake : wake (before.pc (other party)) ≠ .asleep := by
      cases before.pc (other party) <;> simp [wake]
    refine ⟨by simpa [owns] using peer.mutex, ?_, ?_, by simp [awake]⟩
    · intro member
      apply peer.engaged
      cases pc : before.pc (other party) <;> simp [pc, wake] at member ⊢
    · intro acting
      apply peer.guard
      cases pc : before.pc (other party) <;> simp [pc, wake] at acting ⊢

theorem Fine.Inv.next {atomic : Atomic Party State} {before after : Fine Party State}
    (inv : before.Inv atomic) (moved : before.next atomic label = some after) :
    after.Inv atomic := by
  cases label with
  | spurious party =>
    by_cases here : before.pc party = .asleep
    · simp only [Fine.next, here, ↓reduceIte, Option.some.injEq] at moved
      subst after
      exact inv.spurious here
    · simp [Fine.next, here] at moved
  | advance party =>
    cases here : before.pc party with
    | outside =>
      cases task : atomic.task party before.shared with
      | own =>
        simp only [Fine.next, here, task, Option.map_eq_some_iff] at moved
        obtain ⟨shared, step, rfl⟩ := moved
        exact inv.own here task step
      | guarded ready =>
        simp only [Fine.next, here, task] at moved
        exact inv.acquire (by simp [task, Task.isGuarded]) (by simp [here]) moved
      | finished => simp [Fine.next, here, task] at moved
      | stuck => simp [Fine.next, here, task] at moved
    | testing =>
      cases task : atomic.task party before.shared with
      | guarded ready =>
        have result := inv.test here task
        cases ready <;> simp only [Fine.next, here, task, Option.some.injEq] at moved <;>
          subst after <;> simpa using result
      | own => simp [Fine.next, here, task] at moved
      | finished => simp [Fine.next, here, task] at moved
      | stuck => simp [Fine.next, here, task] at moved
    | asleep => simp [Fine.next, here] at moved
    | woken =>
      simp only [Fine.next, here] at moved
      exact inv.acquire ((inv party).engaged (by simp [here])) (by simp [here]) moved
    | acting =>
      simp only [Fine.next, here, Option.map_eq_some_iff] at moved
      obtain ⟨shared, step, rfl⟩ := moved
      exact inv.act here step
    | unlocking =>
      simp only [Fine.next, here, Option.some.injEq] at moved
      subst after
      exact inv.unlock here
    | signalling =>
      simp only [Fine.next, here, Option.some.injEq] at moved
      subst after
      exact inv.signal here

theorem Fine.Inv.start (atomic : Atomic Party State) (shared : State) :
    Fine.Inv atomic (Fine.start shared) := by
  intro party
  exact ⟨by simp [Fine.start, Pc.owns], by simp [Fine.start], by simp [Fine.start],
    by simp [Fine.start]⟩

theorem Fine.reaches_inv {atomic : Atomic Party State} {state : Fine Party State}
    (path : Reaches (Fine.next atomic) (Fine.start initial) state) : state.Inv atomic :=
  path.invariant (Fine.Inv atomic) (Fine.Inv.start atomic initial) (fun _ _ _ inv moved => inv.next moved)

/-- A fine step changes the shared state by one atomic step or not at all. -/
theorem Fine.next_shared {atomic : Atomic Party State} {before after : Fine Party State}
    (moved : before.next atomic label = some after) :
    after.shared = before.shared ∨ Step atomic.step before.shared after.shared := by
  cases label with
  | spurious party =>
    by_cases here : before.pc party = .asleep
    · simp only [Fine.next, here, ↓reduceIte, Option.some.injEq] at moved
      subst after
      exact .inl rfl
    · simp [Fine.next, here] at moved
  | advance party =>
    have locked {result : Fine Party State} (taken : before.acquire party = some result) :
        result.shared = before.shared := by
      by_cases free : before.owner = none
      · simp only [Fine.acquire, free, ↓reduceIte, Option.some.injEq] at taken
        subst result
        rfl
      · simp [Fine.acquire, free] at taken
    cases here : before.pc party with
    | outside =>
      cases task : atomic.task party before.shared with
      | own =>
        simp only [Fine.next, here, task, Option.map_eq_some_iff] at moved
        obtain ⟨shared, step, rfl⟩ := moved
        exact .inr ⟨party, step⟩
      | guarded ready =>
        simp only [Fine.next, here, task] at moved
        exact .inl (locked moved)
      | finished => simp [Fine.next, here, task] at moved
      | stuck => simp [Fine.next, here, task] at moved
    | testing =>
      cases task : atomic.task party before.shared with
      | guarded ready =>
        cases ready <;> simp only [Fine.next, here, task, Option.some.injEq] at moved <;>
          subst after <;> exact .inl rfl
      | own => simp [Fine.next, here, task] at moved
      | finished => simp [Fine.next, here, task] at moved
      | stuck => simp [Fine.next, here, task] at moved
    | asleep => simp [Fine.next, here] at moved
    | woken =>
      simp only [Fine.next, here] at moved
      exact .inl (locked moved)
    | acting =>
      simp only [Fine.next, here, Option.map_eq_some_iff] at moved
      obtain ⟨shared, step, rfl⟩ := moved
      exact .inr ⟨party, step⟩
    | unlocking =>
      simp only [Fine.next, here, Option.some.injEq] at moved
      subst after
      exact .inl rfl
    | signalling =>
      simp only [Fine.next, here, Option.some.injEq] at moved
      subst after
      exact .inl rfl

/-- The locking protocol refines the atomic guarded actions. -/
theorem Fine.reaches_atomic {atomic : Atomic Party State} {state : Fine Party State}
    (path : Reaches (Fine.next atomic) (Fine.start initial) state) :
    Reaches atomic.step initial state.shared :=
  path.simulate (fun _ => True) Fine.shared trivial (fun _ _ _ _ _ => trivial)
    (fun _ _ _ _ moved => Fine.next_shared moved)

/-- A party that is awake and not blocked on the mutex can take its next step. -/
private theorem advance_enabled {atomic : Atomic Party State} {state : Fine Party State}
    (inv : state.Inv atomic) (party : Party)
    (awake : state.pc party ∈ [.testing, .acting, .unlocking, .signalling]) :
    ∃ after, state.next atomic (.advance party) = some after := by
  have sound := inv party
  cases here : state.pc party with
  | testing =>
    cases task : atomic.task party state.shared with
    | guarded ready => cases ready <;> simp [Fine.next, here, task]
    | own | finished | stuck =>
      have guarded := sound.engaged (by simp [here])
      simp [task, Task.isGuarded] at guarded
  | acting =>
    have guard := sound.guard here
    rw [← atomic.enabled] at guard
    obtain ⟨shared, step⟩ := Option.isSome_iff_exists.mp guard
    simp [Fine.next, here, step]
  | unlocking => simp [Fine.next, here]
  | signalling => simp [Fine.next, here]
  | outside | asleep | woken => simp [here] at awake

/-- No lost wake-up: while some party is unfinished and the atomic system is not
blocked, some party that is awake has a next step. -/
theorem Fine.Inv.progress {atomic : Atomic Party State} {state : Fine Party State}
    (inv : state.Inv atomic) (unfinished : ∃ party, ¬ state.Finished atomic party)
    (live : (∃ party, atomic.task party state.shared ≠ .finished) →
      ∃ party, (atomic.task party state.shared).enabled = true) :
    ∃ party after, state.pc party ≠ .asleep ∧ state.next atomic (.advance party) = some after := by
  by_cases busy : ∃ party, state.pc party ∈ [.testing, .acting, .unlocking, .signalling]
  · obtain ⟨party, awake⟩ := busy
    obtain ⟨after, moved⟩ := advance_enabled inv party awake
    refine ⟨party, after, ?_, moved⟩
    intro asleep
    simp [asleep] at awake
  · have idle (party : Party) : state.pc party = .outside ∨ state.pc party = .asleep ∨
        state.pc party = .woken := by
      have free : state.pc party ∉ [.testing, .acting, .unlocking, .signalling] :=
        fun awake => busy ⟨party, awake⟩
      cases here : state.pc party <;> simp [here] at free ⊢
    have unlocked : state.owner = none := by
      cases held : state.owner with
      | none => rfl
      | some party =>
        have owns := (inv party).mutex.mpr held
        rcases idle party with here | here | here <;> simp [here, Pc.owns] at owns
    by_cases waiting : ∃ party, state.pc party = .woken
    · obtain ⟨party, here⟩ := waiting
      refine ⟨party, { state.goto party .testing with owner := some party }, by simp [here], ?_⟩
      simp [Fine.next, here, Fine.acquire, unlocked]
    · have remaining : ∃ party, atomic.task party state.shared ≠ .finished := by
        obtain ⟨party, open_⟩ := unfinished
        refine ⟨party, fun done => ?_⟩
        rcases idle party with here | here | here
        · exact open_ ⟨here, done⟩
        · have guarded := (inv party).engaged (by simp [here])
          simp [done, Task.isGuarded] at guarded
        · exact waiting ⟨party, here⟩
      obtain ⟨party, enabled⟩ := live remaining
      rcases idle party with here | here | here
      · refine ⟨party, ?_⟩
        cases task : atomic.task party state.shared with
        | own =>
          rw [← atomic.enabled] at enabled
          obtain ⟨shared, step⟩ := Option.isSome_iff_exists.mp enabled
          exact ⟨{ state with shared }, by simp [here], by simp [Fine.next, here, task, step]⟩
        | guarded ready =>
          exact ⟨{ state.goto party .testing with owner := some party }, by simp [here],
            by simp [Fine.next, here, task, Fine.acquire, unlocked]⟩
        | finished | stuck => simp [task, Task.enabled] at enabled
      · have due := (inv party).pending here enabled
        rcases idle (other party) with peer | peer | peer <;> simp [peer] at due
      · exact absurd ⟨party, here⟩ waiting

end Lib.Monitor
