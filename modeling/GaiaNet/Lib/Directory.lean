import GaiaNet.Lib.Transition
import Mathlib.Logic.Function.Basic

/-! A directory: names bound to numbered objects that outlive their names. -/

namespace Lib.Directory

/-- The entries and the next number. An entry names an object made before, and no two
entries name the same. -/
structure Directory (Name : Type) where
  entry : Name → Option Nat
  next : Nat
  bound : ∀ name object, entry name = some object → object < next
  distinct : ∀ first second object, entry first = some object → entry second = some object →
    first = second

variable {Name : Type}

def Directory.empty : Directory Name where
  entry := fun _ => none
  next := 0
  bound := fun _ _ found => nomatch found
  distinct := fun _ _ _ found _ => nomatch found

variable [DecidableEq Name]

/-- A new object under a name. -/
def Directory.add (directory : Directory Name) (name : Name) : Directory Name where
  entry := Function.update directory.entry name (some directory.next)
  next := directory.next + 1
  bound := by
    intro other object found
    rw [Function.update_apply] at found
    split at found
    · cases found
      exact Nat.lt_succ_self _
    · exact Nat.lt_succ_of_lt (directory.bound other object found)
  distinct := by
    intro first second object found same
    rw [Function.update_apply] at found same
    split at found <;> split at same
    · simp_all
    · cases found
      exact absurd (directory.bound second _ same) (Nat.lt_irrefl _)
    · cases same
      exact absurd (directory.bound first _ found) (Nat.lt_irrefl _)
    · exact directory.distinct first second object found same

/-- The name goes; the object lives on for those who have it. -/
def Directory.unlink (directory : Directory Name) (name : Name) : Directory Name where
  entry := Function.update directory.entry name none
  next := directory.next
  bound := by
    intro other object found
    rw [Function.update_apply] at found
    split at found
    · cases found
    · exact directory.bound other object found
  distinct := by
    intro first second object found same
    rw [Function.update_apply] at found same
    split at found <;> split at same
    · simp_all
    · cases found
    · cases same
    · exact directory.distinct first second object found same

@[simp] theorem add_entry (directory : Directory Name) (name : Name) :
    (directory.add name).entry name = some directory.next := by
  simp [Directory.add]

theorem add_other (directory : Directory Name) (different : other ≠ name) :
    (directory.add name).entry other = directory.entry other := by
  simp [Directory.add, different]

@[simp] theorem unlink_entry (directory : Directory Name) (name : Name) :
    (directory.unlink name).entry name = none := by
  simp [Directory.unlink]

theorem unlink_other (directory : Directory Name) (different : other ≠ name) :
    (directory.unlink name).entry other = directory.entry other := by
  simp [Directory.unlink, different]

/-- What may happen to a directory. -/
inductive Change (Name : Type) where
  | add (name : Name)
  | unlink (name : Name)

def Directory.change : Change Name → Directory Name → Option (Directory Name)
  | .add name, directory => some (directory.add name)
  | .unlink name, directory => some (directory.unlink name)

/-- An object is found under no second name, however long ago it was found under the first. -/
theorem Directory.one_name {before after : Directory Name}
    (path : Transition.Reaches Directory.change before after)
    (found : before.entry first = some object) (later : after.entry second = some object) :
    first = second := by
  have known : object < after.next ∧ ∀ name, after.entry name = some object → first = name := by
    apply path.invariant fun directory =>
      object < directory.next ∧ ∀ name, directory.entry name = some object → first = name
    · exact ⟨before.bound first object found, fun name same => before.distinct _ _ _ found same⟩
    · rintro label directory _ ⟨old, only⟩ moved
      cases label with
      | add name =>
        cases moved
        refine ⟨Nat.lt_succ_of_lt old, fun other same => ?_⟩
        by_cases here : other = name
        · rw [here, add_entry] at same
          cases same
          exact absurd old (Nat.lt_irrefl _)
        · rw [add_other directory here] at same
          exact only other same
      | unlink name =>
        cases moved
        refine ⟨old, fun other same => ?_⟩
        by_cases here : other = name
        · rw [here, unlink_entry] at same
          cases same
        · rw [unlink_other directory here] at same
          exact only other same
  exact known.2 second later

end Lib.Directory
