import Mathlib.Logic.Function.Basic

/-! A mutex and the users inside the sections that run under it. -/

namespace Lib.Mutex

variable {User : Type}

/-- Whoever is inside owns the mutex. -/
def Guards (owner : Option User) (inside : User → Prop) : Prop :=
  ∀ user, inside user → owner = some user

/-- One user at a time is inside. -/
theorem Guards.alone {inside : User → Prop} (guards : Guards owner inside) (one : inside first)
    (other : inside second) : first = second :=
  Option.some.inj ((guards first one).symm.trans (guards second other))

theorem Guards.empty {inside : User → Prop} (guards : Guards none inside) (user : User) :
    ¬ inside user :=
  fun here => nomatch guards user here

/-- Whoever owns the mutex is inside: it is never left locked. -/
def Tended (owner : Option User) (inside : User → Prop) : Prop :=
  ∀ user, owner = some user → inside user

theorem Tended.free (inside : User → Prop) : Tended none inside :=
  fun _ owns => by cases owns

variable [DecidableEq User]

theorem Guards.lock {inside : User → Prop} (guards : Guards none inside) (user : User) (later : Prop) :
    Guards (some user) (Function.update inside user later) := by
  intro other entered
  by_cases same : other = user
  · rw [same]
  · rw [Function.update_of_ne same] at entered
    exact absurd entered (guards.empty other)

theorem Guards.unlock {inside : User → Prop} {later : Prop} (guards : Guards owner inside)
    (here : inside user) (leaves : ¬ later) : Guards none (Function.update inside user later) := by
  intro other entered
  by_cases same : other = user
  · rw [same, Function.update_self] at entered
    exact absurd entered leaves
  · rw [Function.update_of_ne same] at entered
    exact absurd (guards.alone entered here) same

/-- A user that stays inside, or outside, leaves the rest alone. -/
theorem Guards.stay {inside : User → Prop} {later : Prop} (guards : Guards owner inside)
    (stays : later → inside user) : Guards owner (Function.update inside user later) := by
  intro other entered
  by_cases same : other = user
  · rw [same, Function.update_self] at entered
    rw [same]
    exact guards user (stays entered)
  · rw [Function.update_of_ne same] at entered
    exact guards other entered

theorem Tended.lock {inside : User → Prop} {later : Prop} (user : User) (enters : later) :
    Tended (some user) (Function.update inside user later) := by
  intro other owns
  cases owns
  rw [Function.update_self]
  exact enters

theorem Tended.stay {inside : User → Prop} {later : Prop} (tended : Tended owner inside)
    (stays : inside user → later) : Tended owner (Function.update inside user later) := by
  intro other owns
  by_cases same : other = user
  · subst same
    rw [Function.update_self]
    exact stays (tended other owns)
  · rw [Function.update_of_ne same]
    exact tended other owns

end Lib.Mutex
