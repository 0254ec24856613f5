import GaiaNet.Lib.Hoare

/-! A loop of a bounded number of rounds: each round makes an attempt that ends
the loop or is refused, and a refused round repairs the state before the next. -/

namespace Lib.Retry

open Lib.Hoare

variable {Error State Value : Type}

/-- A loop ends with the value of the attempt that stopped it, or with the value
of the last repair. -/
inductive Ending (Value : Type) where
  | stopped (value : Value)
  | exhausted (last : Value)

def Ending.value : Ending Value → Value
  | .stopped value => value
  | .exhausted last => last

/-- `remaining` rounds from round `i` on. -/
def retry (attempt : Nat → EStateM Error State (Option Value))
    (repair : Nat → EStateM Error State Value) :
    Nat → Nat → Value → EStateM Error State (Ending Value)
  | _, 0, last => pure (.exhausted last)
  | i, remaining + 1, _ => do
    match ← attempt i with
    | some value => return .stopped value
    | none =>
      let repaired ← repair i
      retry attempt repair (i + 1) remaining repaired

section

variable (attempt : Nat → EStateM Error State (Option Value))
  (repair : Nat → EStateM Error State Value) (first : Value) (start : State)

/-- `count` refused rounds lead to this last repair's value and this state. -/
inductive Refused : Nat → Value → State → Prop where
  | zero : Refused 0 first start
  | round {count : Nat} {last next : Value} {state middle after : State}
      (before : Refused count last state) (refused : attempt count state = .ok none middle)
      (repaired : repair count middle = .ok next after) : Refused (count + 1) next after

end

variable {attempt : Nat → EStateM Error State (Option Value)}
  {repair : Nat → EStateM Error State Value} {first : Value} {start : State}

theorem retry_stop (stopped : attempt i state = .ok (some value) after) :
    retry attempt repair i (remaining + 1) last state = .ok (.stopped value) after := by
  rw [retry, run_bind, stopped]
  rfl

theorem retry_attempt_failed (failed : attempt i state = .error error after) :
    retry attempt repair i (remaining + 1) last state = .error error after := by
  rw [retry, run_bind, failed]

theorem retry_repair_failed (refused : attempt i state = .ok none middle)
    (failed : repair i middle = .error error after) :
    retry attempt repair i (remaining + 1) last state = .error error after := by
  rw [retry, run_bind, refused]
  change (repair i >>= fun last => retry attempt repair (i + 1) remaining last) middle = _
  rw [run_bind, failed]

theorem retry_round (refused : attempt i state = .ok none middle)
    (repaired : repair i middle = .ok next after) :
    retry attempt repair i (remaining + 1) last state =
      retry attempt repair (i + 1) remaining next after := by
  rw [retry, run_bind, refused]
  change (repair i >>= fun last => retry attempt repair (i + 1) remaining last) middle = _
  rw [run_bind, repaired]

/-- Refused rounds can be cut off the front of the loop. -/
theorem Refused.retry_eq (rounds : Refused attempt repair first start count last state)
    (remaining : Nat) :
    retry attempt repair 0 (count + remaining) first start =
      retry attempt repair count remaining last state := by
  induction rounds generalizing remaining with
  | zero => rw [Nat.zero_add]
  | @round count last next state middle after _ refused repaired ih =>
    rw [Nat.add_assoc, Nat.add_comm 1, ih (remaining + 1), retry_round refused repaired]

/-- The rule for refused rounds: `inv` holds before a round, `mid` between its attempt
and its repair. -/
theorem Refused.rule (inv mid : Nat → State → Prop)
    (rounds : Refused attempt repair first start count last state) (initial : inv 0 start)
    (refusal : ∀ i before middle, inv i before → attempt i before = .ok none middle → mid i middle)
    (repairs : ∀ i middle value after, mid i middle → repair i middle = .ok value after →
      inv (i + 1) after) :
    inv count state := by
  induction rounds with
  | zero => exact initial
  | round _ refused repaired ih => exact repairs _ _ _ _ (refusal _ _ _ ih refused) repaired

/-- A property that refused attempts and completed repairs keep. -/
theorem Refused.invariant (inv : State → Prop)
    (rounds : Refused attempt repair first start count last state) (initial : inv start)
    (refusal : ∀ i before middle, inv before → attempt i before = .ok none middle → inv middle)
    (repairs : ∀ i middle value after, inv middle → repair i middle = .ok value after → inv after) :
    inv state :=
  Refused.rule (fun _ => inv) (fun _ => inv) rounds initial refusal repairs

/-- The first of the refused rounds. -/
theorem Refused.first_refused (rounds : Refused attempt repair first start count last state)
    (some : 0 < count) : ∃ middle, attempt 0 start = .ok none middle := by
  induction rounds with
  | zero => exact absurd some (Nat.lt_irrefl 0)
  | @round count _ _ _ middle _ before refused _ ih =>
    cases before with
    | zero => exact ⟨middle, refused⟩
    | round => exact ih (Nat.succ_pos _)

/-- The ends of a loop: an attempt of some round stops it or aborts, a repair
aborts, or every round is refused. -/
inductive Ends (attempt : Nat → EStateM Error State (Option Value))
    (repair : Nat → EStateM Error State Value) (first : Value) (start : State) (count : Nat) :
    EStateM.Result Error State (Ending Value) → Prop where
  | stopped (inside : k < count) (rounds : Refused attempt repair first start k last state)
      (stop : attempt k state = .ok (some value) after) :
      Ends attempt repair first start count (.ok (.stopped value) after)
  | exhausted (rounds : Refused attempt repair first start count last after) :
      Ends attempt repair first start count (.ok (.exhausted last) after)
  | attemptFailed (inside : k < count) (rounds : Refused attempt repair first start k last state)
      (failed : attempt k state = .error error after) :
      Ends attempt repair first start count (.error error after)
  | repairFailed (inside : k < count) (rounds : Refused attempt repair first start k last state)
      (refused : attempt k state = .ok none middle) (failed : repair k middle = .error error after) :
      Ends attempt repair first start count (.error error after)

theorem Refused.ends (rounds : Refused attempt repair first start k last state) (remaining : Nat) :
    Ends attempt repair first start (k + remaining)
      (retry attempt repair k remaining last state) := by
  induction remaining generalizing k last state with
  | zero => exact .exhausted rounds
  | succ remaining ih =>
    have inside : k < k + (remaining + 1) := by omega
    cases tried : attempt k state with
    | error error after =>
      rw [retry_attempt_failed tried]
      exact .attemptFailed inside rounds tried
    | ok verdict middle =>
      cases verdict with
      | some value =>
        rw [retry_stop tried]
        exact .stopped inside rounds tried
      | none =>
        cases fixed : repair k middle with
        | error error after =>
          rw [retry_repair_failed tried fixed]
          exact .repairFailed inside rounds tried fixed
        | ok next after =>
          rw [retry_round tried fixed]
          have more := ih (.round rounds tried fixed)
          rwa [show k + 1 + remaining = k + (remaining + 1) by omega] at more

theorem retry_ends (count : Nat) :
    Ends attempt repair first start count (retry attempt repair 0 count first start) := by
  have none : Refused attempt repair first start 0 first start := .zero
  have all := none.ends count
  rwa [Nat.zero_add] at all

theorem retry_exhausted (rounds : Refused attempt repair first start count last state) :
    retry attempt repair 0 count first start = .ok (.exhausted last) state :=
  rounds.retry_eq 0

/-- The loop reaches every refused round it has room for. -/
theorem Refused.retry_inside (rounds : Refused attempt repair first start k last state)
    (inside : k < count) :
    ∃ remaining, retry attempt repair 0 count first start =
      retry attempt repair k (remaining + 1) last state := by
  obtain ⟨remaining, rfl⟩ : ∃ remaining, count = k + (remaining + 1) := ⟨count - k - 1, by omega⟩
  exact ⟨remaining, rounds.retry_eq _⟩

theorem Refused.retry_stopped (rounds : Refused attempt repair first start k last state)
    (inside : k < count) (stop : attempt k state = .ok (some value) after) :
    retry attempt repair 0 count first start = .ok (.stopped value) after := by
  obtain ⟨remaining, same⟩ := rounds.retry_inside inside
  rw [same, retry_stop stop]

theorem Refused.retry_attempt_error (rounds : Refused attempt repair first start k last state)
    (inside : k < count) (failed : attempt k state = .error error after) :
    retry attempt repair 0 count first start = .error error after := by
  obtain ⟨remaining, same⟩ := rounds.retry_inside inside
  rw [same, retry_attempt_failed failed]

theorem Refused.retry_repair_error (rounds : Refused attempt repair first start k last state)
    (inside : k < count) (refused : attempt k state = .ok none middle)
    (failed : repair k middle = .error error after) :
    retry attempt repair 0 count first start = .error error after := by
  obtain ⟨remaining, same⟩ := rounds.retry_inside inside
  rw [same, retry_repair_failed refused failed]

end Lib.Retry
