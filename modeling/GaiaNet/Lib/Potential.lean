import GaiaNet.Lib.Transition
import Mathlib.Algebra.BigOperators.Group.Finset.Basic
import Mathlib.Data.Fintype.Basic

/-! Potentials: steps that lower one bound the length of a run. The potential of many
parties is the sum of theirs, of which a step changes one. -/

namespace Lib.Transition

variable {Label : Type u} {State : Type v}

/-- Steps that lower a potential: a run has no more of them than it has to spend. -/
theorem run_length_le {next : Label → State → Option State} (inv : State → Prop)
    (potential : State → Nat)
    (preserved : ∀ label before after, inv before → next label before = some after → inv after)
    (lowers : ∀ label before after, inv before → next label before = some after →
      potential after < potential before)
    (labels : List Label) (initial : inv start) (ran : run next labels start = some final) :
    labels.length + potential final ≤ potential start := by
  induction labels generalizing start with
  | nil =>
    cases ran
    exact Nat.le_of_eq (Nat.zero_add _)
  | cons label labels ih =>
    cases moved : next label start with
    | none => simp [run, moved] at ran
    | some middle =>
      have rest : run next labels middle = some final := by simpa [run, moved] using ran
      have later := ih (preserved label start middle initial moved) rest
      have lower := lowers label start middle initial moved
      rw [List.length_cons]
      omega

end Lib.Transition

namespace Lib.Potential

variable {Party : Type u} [Fintype Party] [DecidableEq Party]

/-- One party goes from one state to another. -/
theorem sum_update {State : Type v} {Amount : Type w} [AddCommMonoid Amount]
    (amount : State → Amount) (state : Party → State) (party : Party) (after : State) :
    ∑ other, amount (Function.update state party after other) + amount (state party) =
      ∑ other, amount (state other) + amount after := by
  have member := Finset.mem_univ party
  have rest : ∑ other ∈ Finset.univ.erase party, amount (Function.update state party after other) =
      ∑ other ∈ Finset.univ.erase party, amount (state other) := by
    apply Finset.sum_congr rfl
    intro other inside
    rw [Function.update_of_ne (Finset.ne_of_mem_erase inside)]
  rw [← Finset.add_sum_erase _ _ member, ← Finset.add_sum_erase _ (fun other => amount (state other))
    member, rest, Function.update_self, add_right_comm, add_comm (amount after), add_right_comm]

end Lib.Potential
