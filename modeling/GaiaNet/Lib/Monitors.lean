import GaiaNet.Lib.Diamond
import GaiaNet.Lib.Monitor
import GaiaNet.Lib.Potential

/-! Two parties that share a state under several monitors, each a mutex with a condition
variable. An action is guarded by one of them: lock it, test the guard, sleep while it fails,
act, unlock, signal. Whatever the atomic actions reach the fine steps reach and the other way
round, and where the fine steps come to rest the atomic actions do. -/

namespace Lib.Monitors

open Lib.Monitor hiding Task Pc Fine wake
open Lib.Potential Lib.Transition

/-- What a party does next, with the monitor that guards it and the value of the guard. -/
inductive Task (Object : Type u) where
  | finished
  | own
  | guarded (object : Object) (ready : Bool)
  | stuck
  deriving DecidableEq

variable {Object : Type u}

def Task.enabled : Task Object → Bool
  | .own => true
  | .guarded _ ready => ready
  | _ => false

def Task.object : Task Object → Option Object
  | .guarded object _ => some object
  | _ => none

/-- A task of a system with one monitor, at this one of several. -/
def Task.under (object : Object) : Monitor.Task → Task Object
  | .finished => .finished
  | .own => .own
  | .guarded ready => .guarded object ready
  | .stuck => .stuck

@[simp] theorem Task.enabled_under (object : Object) (task : Monitor.Task) :
    (under object task).enabled = task.enabled := by
  cases task <;> rfl

theorem Task.object_under (object : Object) (task : Monitor.Task) :
    (under object task).object = if task.isGuarded then some object else none := by
  cases task <;> rfl

/-- The atomic view. A step under a monitor may open or close a guard of the other party at the
same monitor; it changes nothing else for it. -/
structure System (Party : Type v) (Object : Type u) (State : Type w) [Pair Party] where
  task : Party → State → Task Object
  step : Party → State → Option State
  enabled : ∀ party state, (step party state).isSome = (task party state).enabled
  stable : ∀ party before after, step party before = some after →
    (task (other party) after).object = (task (other party) before).object
  apart : ∀ party before after, step party before = some after →
    (∀ object, (task party before).object = some object →
      (task (other party) before).object ≠ some object) →
    task (other party) after = task (other party) before

/-- Where a party is inside the locking protocol of a monitor. -/
inductive Pc (Object : Type u) where
  | outside
  | testing (object : Object)
  | asleep (object : Object)
  | woken (object : Object)
  | acting (object : Object)
  | unlocking (object : Object)
  | signalling (object : Object)
  deriving DecidableEq

/-- The mutex that is held. -/
def Pc.owns : Pc Object → Option Object
  | .testing object | .acting object | .unlocking object => some object
  | _ => none

/-- The monitor of an action that has not been made. -/
def Pc.engages : Pc Object → Option Object
  | .testing object | .asleep object | .woken object | .acting object => some object
  | _ => none

/-- The monitor at which an action has been made and not been signalled. -/
def Pc.signals : Pc Object → Option Object
  | .unlocking object | .signalling object => some object
  | _ => none

/-- The steps of a party before it acts or sleeps, and after it has acted, when it also wakes
the other one. -/
def Pc.rank : Pc Object → Nat
  | .asleep _ => 0
  | .acting _ => 1
  | .testing _ => 2
  | .outside | .woken _ => 3
  | .signalling _ => 7
  | .unlocking _ => 8

structure Fine (Party : Type v) (Object : Type u) (State : Type w) where
  shared : State
  owner : Object → Option Party
  pc : Party → Pc Object

variable {Party : Type v} {State : Type w} [Pair Party]

namespace Fine

def goto (party : Party) (pc : Pc Object) (state : Fine Party Object State) :
    Fine Party Object State :=
  { state with pc := Function.update state.pc party pc }

def start (shared : State) : Fine Party Object State where
  shared := shared
  owner := fun _ => none
  pc := fun _ => .outside

@[simp] theorem goto_self (party : Party) (pc : Pc Object) (state : Fine Party Object State) :
    (state.goto party pc).pc party = pc := by
  simp [goto]

@[simp] theorem goto_other (party : Party) (pc : Pc Object) (state : Fine Party Object State) :
    (state.goto party pc).pc (other party) = state.pc (other party) := by
  simp [goto, Pair.other_ne]

/-- Facts of one party: a mutex is held exactly inside its critical section, an action that is
under way is still the party's task and is made only under its guard, and a sleeper whose guard
has become true is about to be signalled. -/
structure Sound (system : System Party Object State) (state : Fine Party Object State)
    (party : Party) : Prop where
  mutex : ∀ object, (state.pc party).owns = some object ↔ state.owner object = some party
  engaged : ∀ object, (state.pc party).engages = some object →
    (system.task party state.shared).object = some object
  guard : ∀ object, state.pc party = .acting object →
    (system.task party state.shared).enabled = true
  pending : ∀ object, state.pc party = .asleep object →
    (system.task party state.shared).enabled = true →
    (state.pc (other party)).signals = some object

def Inv (system : System Party Object State) (state : Fine Party Object State) : Prop :=
  ∀ party, state.Sound system party

section

variable {system : System Party Object State} {party : Party} {object : Object}
  {before after state : Fine Party Object State}

theorem Inv.ofPair (party : Party) (mover : state.Sound system party)
    (peer : state.Sound system (other party)) : state.Inv system := by
  intro third
  rcases Pair.covers party third with same | same
  · rw [same]
    exact mover
  · rw [same]
    exact peer

/-- A move of one party that leaves the shared state alone keeps the facts of the other, unless
it withdraws a signal still to be given. -/
theorem Sound.peer {owner : Object → Option Party} {pc : Pc Object}
    (sound : before.Sound system (other party))
    (mutex : ∀ object, owner object = some (other party) ↔ before.owner object = some (other party))
    (signal : ∀ object, (before.pc party).signals = some object → pc.signals = some object) :
    Sound system ({ before with owner := owner }.goto party pc) (other party) := by
  constructor
  · intro object
    rw [goto_other]
    exact (sound.mutex object).trans (mutex object).symm
  · intro object engages
    rw [goto_other] at engages
    exact sound.engaged object engages
  · intro object acting
    rw [goto_other] at acting
    exact sound.guard object acting
  · intro object asleep ready
    rw [goto_other] at asleep
    have due := sound.pending object asleep ready
    rw [other_other] at due ⊢
    rw [goto_self]
    exact signal object due

/-- A move inside a monitor that leaves its mutex alone. -/
theorem Inv.inside {pc : Pc Object} (inv : before.Inv system)
    (owns : (before.pc party).owns = pc.owns)
    (engages : (before.pc party).engages = pc.engages) (awake : ∀ object, pc ≠ .asleep object)
    (guard : ∀ object, pc = .acting object → (system.task party before.shared).enabled = true)
    (silent : (before.pc party).signals = none) : Inv system (before.goto party pc) := by
  have mine := inv party
  apply Inv.ofPair party
  · constructor
    · intro object
      rw [goto_self, ← owns]
      exact mine.mutex object
    · intro object here
      rw [goto_self, ← engages] at here
      exact mine.engaged object here
    · intro object acting
      rw [goto_self] at acting
      exact guard object acting
    · intro object asleep
      rw [goto_self] at asleep
      exact absurd asleep (awake object)
  · refine (inv (other party)).peer (fun _ => Iff.rfl) fun object signals => ?_
    rw [silent] at signals
    cases signals

/-- A step of a party's own, outside every monitor. -/
theorem Inv.own (inv : before.Inv system) (at_ : before.pc party = .outside)
    (task : system.task party before.shared = .own)
    (acted : system.step party before.shared = some result) :
    Inv system { before with shared := result } := by
  have peer := inv (other party)
  have same : system.task (other party) result = system.task (other party) before.shared := by
    apply system.apart party before.shared result acted
    intro object guarded
    rw [task] at guarded
    cases guarded
  apply Inv.ofPair party
  · refine ⟨(inv party).mutex, ?_, ?_, ?_⟩
    · intro object engages
      rw [show ({ before with shared := result } : Fine Party Object State).pc party = .outside
        from at_] at engages
      cases engages
    · intro object acting
      cases at_.symm.trans acting
    · intro object asleep
      cases at_.symm.trans asleep
  · refine ⟨peer.mutex, ?_, ?_, ?_⟩
    · simpa only [same] using peer.engaged
    · simpa only [same] using peer.guard
    · simpa only [same] using peer.pending

end

theorem Inv.start (system : System Party Object State) (initial : State) :
    Inv system (start initial) := by
  intro party
  constructor
  · intro object
    constructor <;> intro here <;> cases here
  all_goals
    intro object here
    cases here

/-- No mutex is held, and each party is outside or asleep with no action enabled. -/
structure AtRest (system : System Party Object State) (state : Fine Party Object State) : Prop where
  free : ∀ object, state.owner object = none
  place : ∀ party, state.pc party = .outside ∨ ∃ object, state.pc party = .asleep object
  disabled : ∀ party, (system.task party state.shared).enabled = false

theorem AtRest.halted {system : System Party Object State} {state : Fine Party Object State}
    (rest : state.AtRest system) : Halted system.step state.shared := by
  intro party
  have enabled := system.enabled party state.shared
  rw [rest.disabled party] at enabled
  simpa using enabled

section

variable [Fintype Party] {before after state : Fine Party Object State} {cost : State → Nat → Prop}

/-- What the parties have still to do inside the monitors. -/
def tension (state : Fine Party Object State) : Nat := ∑ party, (state.pc party).rank

theorem tension_goto (state : Fine Party Object State) (party : Party) (pc : Pc Object) :
    (state.goto party pc).tension + (state.pc party).rank = state.tension + pc.rank :=
  sum_update Pc.rank state.pc party pc

/-- An atomic action costs as much as all the instructions it takes. -/
def Costs (cost : State → Nat → Prop) (state : Fine Party Object State) (budget : Nat) : Prop :=
  ∃ rest, cost state.shared rest ∧ budget = 8 * rest + state.tension

/-- An instruction of one party that leaves the shared state alone. -/
theorem Costs.goto {pc later : Pc Object} (costs : before.Costs cost budget)
    (at_ : before.pc party = pc) (calmer : later.rank < pc.rank)
    (shared : after.shared = before.shared) (moved : after.pc = (before.goto party later).pc) :
    ∃ rest, rest < budget ∧ after.Costs cost rest := by
  obtain ⟨rest, kept, rfl⟩ := costs
  have step := before.tension_goto party later
  have same : after.tension = (before.goto party later).tension := by
    unfold tension
    rw [moved]
  rw [at_, ← same] at step
  exact ⟨8 * rest + after.tension, by omega, rest, shared ▸ kept, rfl⟩

end

variable [DecidableEq Object]

/-- A signal moves a party from the condition variable to its mutex. -/
def wake (object : Object) (pc : Pc Object) : Pc Object :=
  if pc = .asleep object then .woken object else pc

theorem rank_wake (object : Object) (pc : Pc Object) : (wake object pc).rank ≤ pc.rank + 3 := by
  unfold wake
  split
  · rename_i asleep
    rw [asleep]
    exact Nat.le_refl _
  · exact Nat.le_add_right _ _

def hold (object : Object) (owner : Option Party) (state : Fine Party Object State) :
    Fine Party Object State :=
  { state with owner := Function.update state.owner object owner }

def acquire (party : Party) (object : Object) (state : Fine Party Object State) :
    Option (Fine Party Object State) :=
  if state.owner object = none then some ((state.hold object (some party)).goto party (.testing object))
  else none

/-- The next instruction of a party. -/
def settle (system : System Party Object State) (party : Party) (state : Fine Party Object State) :
    Option (Fine Party Object State) :=
  match state.pc party with
  | .outside =>
    match system.task party state.shared with
    | .own => (system.step party state.shared).map fun shared => { state with shared }
    | .guarded object _ => state.acquire party object
    | _ => none
  | .testing object =>
    match system.task party state.shared with
    | .guarded _ true => some (state.goto party (.acting object))
    | .guarded _ false => some ((state.hold object none).goto party (.asleep object))
    | _ => none
  | .asleep _ => none
  | .woken object => state.acquire party object
  | .acting object =>
    (system.step party state.shared).map fun shared =>
      { state.goto party (.unlocking object) with shared }
  | .unlocking object => some ((state.hold object none).goto party (.signalling object))
  | .signalling object =>
    some ((state.goto party .outside).goto (other party) (wake object (state.pc (other party))))

/-- An instruction, or a wake-up nobody signalled. -/
def next (system : System Party Object State) :
    Label Party → Fine Party Object State → Option (Fine Party Object State)
  | .advance party, state => state.settle system party
  | .spurious party, state =>
    match state.pc party with
    | .asleep object => some (state.goto party (.woken object))
    | _ => none

/-- What an instruction can be, with its guard. -/
inductive Moves (system : System Party Object State) (party : Party)
    (before : Fine Party Object State) : Fine Party Object State → Prop where
  | own (at_ : before.pc party = .outside) (task : system.task party before.shared = .own)
    (acted : system.step party before.shared = some result) :
    Moves system party before { before with shared := result }
  | lock (at_ : before.pc party = .outside)
    (task : system.task party before.shared = .guarded object ready)
    (free : before.owner object = none) :
    Moves system party before ((before.hold object (some party)).goto party (.testing object))
  | relock (at_ : before.pc party = .woken object) (free : before.owner object = none) :
    Moves system party before ((before.hold object (some party)).goto party (.testing object))
  | pass (at_ : before.pc party = .testing object)
    (task : (system.task party before.shared).enabled = true) :
    Moves system party before (before.goto party (.acting object))
  | sleep (at_ : before.pc party = .testing object)
    (task : (system.task party before.shared).enabled = false) :
    Moves system party before ((before.hold object none).goto party (.asleep object))
  | act (at_ : before.pc party = .acting object)
    (acted : system.step party before.shared = some result) :
    Moves system party before { before.goto party (.unlocking object) with shared := result }
  | unlock (at_ : before.pc party = .unlocking object) :
    Moves system party before ((before.hold object none).goto party (.signalling object))
  | signal (at_ : before.pc party = .signalling object) :
    Moves system party before
      ((before.goto party .outside).goto (other party) (wake object (before.pc (other party))))

section

variable {system : System Party Object State} {party : Party} {object : Object}
  {before after state : Fine Party Object State}

theorem acquire_eq (acquired : before.acquire party object = some after) :
    before.owner object = none ∧
      after = (before.hold object (some party)).goto party (.testing object) := by
  simp only [acquire, Option.ite_none_right_eq_some, Option.some.injEq] at acquired
  exact ⟨acquired.1, acquired.2.symm⟩

theorem settle_moves (moved : before.settle system party = some after) :
    Moves system party before after := by
  unfold settle at moved
  split at moved
  case h_1 at_ =>
    split at moved
    · rename_i task
      obtain ⟨shared, acted, rfl⟩ := Option.map_eq_some_iff.mp moved
      exact .own at_ task acted
    · rename_i object ready task
      obtain ⟨free, rfl⟩ := acquire_eq moved
      exact .lock at_ task free
    · cases moved
  case h_2 object at_ =>
    split at moved
    · rename_i task
      cases moved
      exact .pass at_ (by rw [task]; rfl)
    · rename_i task
      cases moved
      exact .sleep at_ (by rw [task]; rfl)
    · cases moved
  case h_3 => cases moved
  case h_4 object at_ =>
    obtain ⟨free, rfl⟩ := acquire_eq moved
    exact .relock at_ free
  case h_5 object at_ =>
    obtain ⟨shared, acted, rfl⟩ := Option.map_eq_some_iff.mp moved
    exact .act at_ acted
  case h_6 object at_ =>
    cases moved
    exact .unlock at_
  case h_7 object at_ =>
    cases moved
    exact .signal at_

/-- Taking a mutex that is free, for the first time or after a wake-up. -/
theorem Inv.acquire (inv : before.Inv system) (free : before.owner object = none)
    (task : (system.task party before.shared).object = some object)
    (owns : (before.pc party).owns = none) (silent : (before.pc party).signals = none) :
    Inv system ((before.hold object (some party)).goto party (.testing object)) := by
  apply Inv.ofPair party
  · constructor
    · intro another
      rw [goto_self]
      by_cases same : another = object
      · subst same
        simp [Pc.owns, hold, goto]
      · have mine := (inv party).mutex another
        rw [owns] at mine
        have differ : object ≠ another := fun here => same here.symm
        simp [Pc.owns, hold, goto, same, differ, ← mine]
    · intro another engages
      rw [goto_self] at engages
      cases engages
      exact task
    · intro another acting
      rw [goto_self] at acting
      cases acting
    · intro another asleep
      rw [goto_self] at asleep
      cases asleep
  · refine (inv (other party)).peer (fun another => ?_) fun another signals => ?_
    · by_cases same : another = object
      · subst same
        have distinct : party ≠ other party := (Pair.other_ne party).symm
        simp [free, distinct]
      · rw [Function.update_of_ne same]
    · rw [silent] at signals
      cases signals

/-- Giving the mutex back, to sleep or to signal. -/
theorem Inv.release {pc : Pc Object} (inv : before.Inv system)
    (holds : (before.pc party).owns = some object) (owns : pc.owns = none)
    (engaged : ∀ another, pc.engages = some another →
      (system.task party before.shared).object = some another)
    (passive : ∀ another, pc ≠ .acting another)
    (pending : ∀ another, pc = .asleep another → (system.task party before.shared).enabled = false)
    (signal : ∀ another, (before.pc party).signals = some another → pc.signals = some another) :
    Inv system ((before.hold object none).goto party pc) := by
  have held := ((inv party).mutex object).mp holds
  apply Inv.ofPair party
  · constructor
    · intro another
      rw [goto_self, owns]
      by_cases same : another = object
      · subst same
        simp [hold, goto]
      · have mine := (inv party).mutex another
        rw [holds] at mine
        have differ : object ≠ another := fun here => same here.symm
        simp [hold, goto, same, ← mine, differ]
    · intro another engages
      rw [goto_self] at engages
      exact engaged another engages
    · intro another acting
      rw [goto_self] at acting
      exact absurd acting (passive another)
    · intro another asleep ready
      rw [goto_self] at asleep
      have closed := pending another asleep
      rw [show system.task party ((before.hold object none).goto party pc).shared =
        system.task party before.shared from rfl] at ready
      rw [closed] at ready
      cases ready
  · refine (inv (other party)).peer (fun another => ?_) signal
    by_cases same : another = object
    · subst same
      have distinct : party ≠ other party := (Pair.other_ne party).symm
      simp [held, distinct]
    · rw [Function.update_of_ne same]

/-- The action under a monitor. The other party may find its guard open at the same monitor,
and will be signalled. -/
theorem Inv.act (inv : before.Inv system) (at_ : before.pc party = .acting object)
    (acted : system.step party before.shared = some result) :
    Inv system { before.goto party (.unlocking object) with shared := result } := by
  have mine := inv party
  have peer := inv (other party)
  have task := mine.engaged object (by rw [at_]; rfl)
  have held := (mine.mutex object).mp (by rw [at_]; rfl)
  have same (away : (system.task (other party) before.shared).object ≠ some object) :
      system.task (other party) result = system.task (other party) before.shared := by
    apply system.apart party before.shared result acted
    intro another guarded
    rw [task] at guarded
    cases guarded
    exact away
  apply Inv.ofPair party
  · refine ⟨fun another => ?_, ?_, ?_, ?_⟩
    · have kept := mine.mutex another
      rw [at_] at kept
      rw [show ({ before.goto party (.unlocking object) with shared := result } :
        Fine Party Object State).pc party = .unlocking object from goto_self ..]
      exact kept
    all_goals
      intro another here
      rw [show ({ before.goto party (.unlocking object) with shared := result } :
        Fine Party Object State).pc party = .unlocking object from goto_self ..] at here
      cases here
  · have there : ({ before.goto party (.unlocking object) with shared := result } :
        Fine Party Object State).pc (other party) = before.pc (other party) := goto_other ..
    refine ⟨fun another => ?_, ?_, ?_, ?_⟩
    · rw [there]
      exact peer.mutex another
    · intro another engages
      rw [there] at engages
      rw [← peer.engaged another engages]
      exact system.stable party before.shared result acted
    · intro another acting
      rw [there] at acting
      have busy := peer.engaged another (by rw [acting]; rfl)
      have owned := (peer.mutex another).mp (by rw [acting]; rfl)
      have elsewhere : (system.task (other party) before.shared).object ≠ some object := by
        rw [busy]
        intro here
        cases here
        exact Pair.other_ne party (Option.some.inj (owned.symm.trans held))
      rw [same elsewhere]
      exact peer.guard another acting
    · intro another asleep ready
      rw [there] at asleep
      have busy := peer.engaged another (by rw [asleep]; rfl)
      rw [other_other, show ({ before.goto party (.unlocking object) with shared := result } :
        Fine Party Object State).pc party = .unlocking object from goto_self ..]
      by_cases here : another = object
      · rw [here]
        rfl
      · have elsewhere : (system.task (other party) before.shared).object ≠ some object := by
          rw [busy]
          exact fun at_ => here (Option.some.inj at_)
        rw [same elsewhere] at ready
        have due := peer.pending another asleep ready
        rw [other_other, at_] at due
        cases due

/-- The signal reaches the other party if it sleeps at the monitor, so afterwards it does not. -/
theorem Inv.signal (inv : before.Inv system) (at_ : before.pc party = .signalling object) :
    Inv system ((before.goto party .outside).goto (other party)
      (wake object (before.pc (other party)))) := by
  have mine := inv party
  have peer := inv (other party)
  have back := goto_other (other party) (wake object (before.pc (other party)))
    (before.goto party .outside)
  rw [other_other, goto_self] at back
  apply Inv.ofPair party
  · constructor
    · intro another
      have kept := mine.mutex another
      rw [at_] at kept
      rw [back]
      exact kept
    all_goals
      intro another here
      rw [back] at here
      cases here
  · constructor
    · intro another
      have kept := peer.mutex another
      rw [goto_self]
      unfold wake
      split
      · rename_i asleep
        rw [asleep] at kept
        exact kept
      · exact kept
    · intro another engages
      rw [goto_self] at engages
      apply peer.engaged another
      unfold wake at engages
      split at engages
      · rename_i asleep
        rw [asleep]
        exact engages
      · exact engages
    · intro another acting
      rw [goto_self] at acting
      apply peer.guard another
      unfold wake at acting
      split at acting
      · cases acting
      · exact acting
    · intro another asleep ready
      rw [goto_self] at asleep
      unfold wake at asleep
      split at asleep
      · cases asleep
      · rename_i elsewhere
        have due := peer.pending another asleep ready
        rw [other_other, at_] at due
        cases due
        exact absurd asleep elsewhere

theorem Inv.moves (inv : before.Inv system) (moved : Moves system party before after) :
    after.Inv system := by
  cases moved with
  | own at_ task acted => exact inv.own at_ task acted
  | lock at_ task free =>
    exact inv.acquire free (by rw [task]; rfl) (by rw [at_]; rfl) (by rw [at_]; rfl)
  | relock at_ free =>
    have task := (inv party).engaged _ (by rw [at_]; rfl)
    exact inv.acquire free task (by rw [at_]; rfl) (by rw [at_]; rfl)
  | pass at_ task =>
    exact inv.inside (by rw [at_]; rfl) (by rw [at_]; rfl) nofun (fun _ _ => task) (by rw [at_]; rfl)
  | sleep at_ task =>
    refine inv.release (by rw [at_]; rfl) rfl (fun another engages => ?_) nofun (fun _ _ => task) ?_
    · cases engages
      exact (inv party).engaged _ (by rw [at_]; rfl)
    · intro another signals
      rw [at_] at signals
      cases signals
  | act at_ acted => exact inv.act at_ acted
  | unlock at_ =>
    refine inv.release (by rw [at_]; rfl) rfl nofun nofun nofun fun another signals => ?_
    rw [at_] at signals
    exact signals
  | signal at_ => exact inv.signal at_

theorem Inv.next (inv : before.Inv system) (moved : before.next system label = some after) :
    after.Inv system := by
  cases label with
  | advance party => exact inv.moves (settle_moves moved)
  | spurious party =>
    simp only [Fine.next] at moved
    split at moved
    · rename_i at_
      cases moved
      exact inv.inside (by rw [at_]; rfl) (by rw [at_]; rfl) nofun nofun (by rw [at_]; rfl)
    · cases moved

theorem reaches_inv (path : Reaches (Fine.next system) (Fine.start initial) state) :
    state.Inv system :=
  path.invariant (Inv system) (Inv.start system initial) fun _ _ _ inv moved => inv.next moved

/-- An instruction makes one atomic action or none. -/
theorem Moves.shared (moved : Moves system party before after) :
    after.shared = before.shared ∨ system.step party before.shared = some after.shared := by
  cases moved with
  | own _ _ acted | act _ acted => exact Or.inr acted
  | lock | relock | pass | sleep | unlock | signal => exact Or.inl rfl

theorem next_shared (moved : before.next system label = some after) :
    after.shared = before.shared ∨ Step system.step before.shared after.shared := by
  cases label with
  | advance party => exact (settle_moves moved).shared.imp_right fun acted => ⟨party, acted⟩
  | spurious party =>
    simp only [Fine.next] at moved
    split at moved
    · cases moved
      exact Or.inl rfl
    · cases moved

/-- The locking protocol refines the atomic actions. -/
theorem reaches_atomic (path : Reaches (Fine.next system) before after) :
    Reaches system.step before.shared after.shared :=
  path.simulate (fun _ => True) Fine.shared trivial (fun _ _ _ _ _ => trivial)
    fun _ _ _ _ moved => next_shared moved

theorem settle_reaches (path : Reaches (settle system) before after) :
    Reaches (Fine.next system) before after := by
  induction path with
  | refl => exact Reaches.refl _ _
  | tail _ moved ih =>
    obtain ⟨party, moved⟩ := moved
    exact ih.step (show Fine.next system (.advance party) _ = _ from moved)

/-! The atomic actions are realized, and come to rest with the instructions. -/

/-- Who holds a mutex can go on. -/
theorem Inv.owner_moves (inv : state.Inv system) (held : (state.pc party).owns = some object) :
    ∃ after, state.settle system party = some after := by
  cases at_ : state.pc party with
  | testing here =>
    have engaged := (inv party).engaged here (by rw [at_]; rfl)
    unfold settle
    cases task : system.task party state.shared with
    | guarded guard ready => cases ready <;> simp [at_]
    | finished | own | stuck =>
      rw [task] at engaged
      cases engaged
  | acting here =>
    have enabled := system.enabled party state.shared
    rw [(inv party).guard here at_] at enabled
    obtain ⟨result, acted⟩ := Option.isSome_iff_exists.mp enabled
    simp [settle, at_, acted]
  | unlocking here => simp [settle, at_]
  | outside | asleep | woken | signalling =>
    rw [at_] at held
    cases held

/-- Where the instructions come to rest no wake-up has been lost. -/
theorem Inv.atRest (inv : state.Inv system) (halted : Halted (settle system) state) :
    state.AtRest system := by
  have stops (party : Party) : ¬ ∃ after, state.settle system party = some after := by
    rintro ⟨after, moved⟩
    rw [halted party] at moved
    cases moved
  have free (object : Object) : state.owner object = none := by
    by_contra held
    obtain ⟨party, owner⟩ := Option.ne_none_iff_exists'.mp held
    exact stops party (inv.owner_moves (((inv party).mutex object).mpr owner))
  have quiet (party : Party) : (state.pc party).signals = none := by
    cases at_ : state.pc party with
    | unlocking | signalling => exact absurd ⟨_, by rw [settle, at_]⟩ (stops party)
    | _ => rfl
  have still (party : Party) :
      (state.pc party = .outside ∨ ∃ object, state.pc party = .asleep object) ∧
        (system.task party state.shared).enabled = false := by
    have stopped := halted party
    unfold settle at stopped
    cases at_ : state.pc party with
    | outside =>
      refine ⟨.inl rfl, ?_⟩
      simp only [at_] at stopped
      cases task : system.task party state.shared with
      | own =>
        have enabled := system.enabled party state.shared
        simp only [task, Option.map_eq_none_iff] at stopped enabled
        rw [stopped] at enabled
        exact enabled.symm
      | guarded object ready => simp [task, Fine.acquire, free object] at stopped
      | finished | stuck => rfl
    | asleep object =>
      refine ⟨.inr ⟨object, rfl⟩, ?_⟩
      by_contra ready
      have due := (inv party).pending object at_ (by simpa using ready)
      rw [quiet] at due
      cases due
    | woken object => simp [at_, Fine.acquire, free object] at stopped
    | testing object | acting object =>
      exact absurd (inv.owner_moves (by rw [at_]; rfl)) (stops party)
    | unlocking object | signalling object =>
      have silent := quiet party
      rw [at_] at silent
      cases silent
  exact ⟨free, fun party => (still party).1, fun party => (still party).2⟩

end

section

variable [Fintype Party] {system : System Party Object State} {before : Fine Party Object State}
  {cost : State → Nat → Prop}

/-- If the atomic actions lower a cost, all instructions do. -/
theorem Costs.lowers
    (acts : ∀ party before after budget, cost before budget → system.step party before = some after →
      ∃ rest, rest < budget ∧ cost after rest)
    (costs : before.Costs cost budget) (moved : before.settle system party = some after) :
    ∃ rest, rest < budget ∧ after.Costs cost rest := by
  cases settle_moves moved with
  | own at_ task acted =>
    obtain ⟨rest, kept, rfl⟩ := costs
    obtain ⟨less, lower, later⟩ := acts _ _ _ _ kept acted
    exact ⟨_, Nat.add_lt_add_right (by omega) _, less, later, rfl⟩
  | lock at_ | relock at_ | pass at_ | sleep at_ | unlock at_ =>
    exact costs.goto at_ (by simp [Pc.rank]) rfl rfl
  | @act object _ at_ acted =>
    obtain ⟨rest, kept, rfl⟩ := costs
    obtain ⟨less, lower, later⟩ := acts _ _ _ _ kept acted
    have step := before.tension_goto party (.unlocking object)
    rw [at_] at step
    simp only [Pc.rank] at step
    exact ⟨8 * less + (before.goto party (.unlocking object)).tension, by omega, less, later, rfl⟩
  | @signal object at_ =>
    obtain ⟨rest, kept, rfl⟩ := costs
    have back := before.tension_goto party .outside
    have woken := (before.goto party .outside).tension_goto (other party)
      (wake object (before.pc (other party)))
    rw [at_] at back
    rw [goto_other] at woken
    have rises := rank_wake object (before.pc (other party))
    simp only [Pc.rank] at back
    exact ⟨8 * rest + tension ((before.goto party .outside).goto (other party)
      (wake object (before.pc (other party)))), by omega, rest, kept, rfl⟩

end

end Fine

end Lib.Monitors
