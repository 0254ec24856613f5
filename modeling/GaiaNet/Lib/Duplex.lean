import GaiaNet.Lib.Diamond
import Mathlib.Logic.Function.Basic

/-! Two programs joined by two bounded queues, one in each direction. The programs are
deterministic and a side only waits for its own queue operation, so the order in which
the two sides move does not matter. -/

namespace Lib.Duplex

open Lib.Transition

inductive Side where
  | left
  | right
  deriving DecidableEq

namespace Side

def other : Side → Side
  | left => right
  | right => left

@[simp] theorem other_other (side : Side) : side.other.other = side := by
  cases side <;> rfl

@[simp] theorem other_ne (side : Side) : side.other ≠ side := by
  cases side <;> exact Side.noConfusion

@[simp] theorem ne_other (side : Side) : side ≠ side.other := side.other_ne.symm

theorem eq_other_of_ne {side another : Side} (different : side ≠ another) : another = side.other := by
  cases side <;> cases another <;> first | rfl | exact absurd rfl different

theorem forall_of {holds : Side → Prop} (side : Side) (here : holds side)
    (there : holds side.other) (any : Side) : holds any := by
  by_cases same : side = any
  · rwa [← same]
  · rwa [eq_other_of_ne same]

end Side

/-- A value for each side. -/
def sides (left right : α) : Side → α
  | .left => left
  | .right => right

/-- What a program does next: append to its outgoing queue, take from its incoming one,
or move on alone. -/
inductive Move (σ : Type u) (α : Type v) where
  | write (data : List α) (next : σ)
  | read (count : Nat) (next : List α → σ)
  | silent (next : σ)

/-- Both programs, and what each side has written and the other has not read. -/
structure Net (σ : Type u) (α : Type v) where
  program : Side → σ
  queue : Side → List α

variable {σ : Type u} {α : Type v}

namespace Net

open Function

/-- A step of one side; `none` while its queue operation must wait. -/
def next (capacity : Nat) (move : Side → σ → Option (Move σ α)) (side : Side) (net : Net σ α) :
    Option (Net σ α) :=
  match move side (net.program side) with
  | none => none
  | some (.write data after) =>
    if (net.queue side).length + data.length ≤ capacity then
      some {
        program := update net.program side after
        queue := update net.queue side (net.queue side ++ data) }
    else none
  | some (.read count after) =>
    if count ≤ (net.queue side.other).length then
      some {
        program := update net.program side (after ((net.queue side.other).take count))
        queue := update net.queue side.other ((net.queue side.other).drop count) }
    else none
  | some (.silent after) => some { net with program := update net.program side after }

variable {capacity : Nat} {move : Side → σ → Option (Move σ α)} {side : Side}
  {before after : Net σ α}

/-- What a step can be, with its guard. -/
inductive Moved (capacity : Nat) (move : Side → σ → Option (Move σ α)) (side : Side)
    (before : Net σ α) : Net σ α → Prop where
  | write (data : List α) (later : σ)
      (chosen : move side (before.program side) = some (.write data later))
      (room : (before.queue side).length + data.length ≤ capacity) :
      Moved capacity move side before {
        program := update before.program side later
        queue := update before.queue side (before.queue side ++ data) }
  | read (count : Nat) (later : List α → σ)
      (chosen : move side (before.program side) = some (.read count later))
      (stored : count ≤ (before.queue side.other).length) :
      Moved capacity move side before {
        program := update before.program side (later ((before.queue side.other).take count))
        queue := update before.queue side.other ((before.queue side.other).drop count) }
  | silent (later : σ) (chosen : move side (before.program side) = some (.silent later)) :
      Moved capacity move side before { before with program := update before.program side later }

theorem next_moved (moved : before.next capacity move side = some after) :
    Moved capacity move side before after := by
  unfold next at moved
  split at moved
  · cases moved
  · rename_i chosen
    split at moved
    · rename_i room
      cases moved
      exact .write _ _ chosen room
    · cases moved
  · rename_i chosen
    split at moved
    · rename_i stored
      cases moved
      exact .read _ _ chosen stored
    · cases moved
  · rename_i chosen
    cases moved
    exact .silent _ chosen

theorem Moved.next_eq (moved : Moved capacity move side before after) :
    before.next capacity move side = some after := by
  cases moved with
  | write data later chosen room => simp [next, chosen, room]
  | read count later chosen stored => simp [next, chosen, stored]
  | silent later chosen => simp [next, chosen]

theorem Moved.program_other (moved : Moved capacity move side before after) :
    after.program side.other = before.program side.other := by
  cases moved <;> exact update_of_ne side.other_ne _ _

/-- A step of one side neither removes what the other side waits for nor takes the room
it needs. -/
theorem commutes (capacity : Nat) (move : Side → σ → Option (Move σ α)) :
    Commutes (next capacity move) := by
  intro side another start first second different leads across
  obtain rfl := Side.eq_other_of_ne different
  have apart : side.other ≠ side := side.other_ne
  cases next_moved leads with
  | write data later chosen room =>
    cases next_moved across with
    | write more final also space =>
      refine ⟨_, Moved.next_eq (.write more final (by simpa using also) (by simpa using space)), ?_⟩
      rw [Moved.next_eq (.write data later (by simpa using chosen) (by simpa using room))]
      simp [update_comm apart]
    | read count final also stored =>
      rw [Side.other_other] at stored
      refine ⟨_, Moved.next_eq (.read count final (by simpa using also) ?_), ?_⟩
      · simp only [Side.other_other, update_self, List.length_append]
        omega
      · rw [Moved.next_eq (.write data later (by simpa using chosen) ?_)]
        · simp [update_comm apart, List.take_append_of_le_length stored,
            List.drop_append_of_le_length stored]
        · simp only [Side.other_other, update_self, List.length_drop]
          omega
    | silent final also =>
      refine ⟨_, Moved.next_eq (.silent final (by simpa using also)), ?_⟩
      rw [Moved.next_eq (.write data later (by simpa using chosen) (by simpa using room))]
      simp [update_comm apart]
  | read count later chosen stored =>
    cases next_moved across with
    | write more final also space =>
      refine ⟨_, Moved.next_eq (.write more final (by simpa using also) ?_), ?_⟩
      · simp only [update_self, List.length_drop]
        omega
      · rw [Moved.next_eq (.read count later (by simpa using chosen) ?_)]
        · simp [update_comm apart, List.take_append_of_le_length stored,
            List.drop_append_of_le_length stored]
        · simp only [update_self, List.length_append]
          omega
    | read amount final also available =>
      refine ⟨_, Moved.next_eq (.read amount final (by simpa using also) ?_), ?_⟩
      · simpa using available
      · rw [Moved.next_eq (.read count later (by simpa using chosen) (by simpa using stored))]
        simp [update_comm apart]
    | silent final also =>
      refine ⟨_, Moved.next_eq (.silent final (by simpa using also)), ?_⟩
      rw [Moved.next_eq (.read count later (by simpa using chosen) (by simpa using stored))]
      simp [update_comm apart]
  | silent later chosen =>
    cases next_moved across with
    | write more final also space =>
      refine ⟨_, Moved.next_eq (.write more final (by simpa using also) (by simpa using space)), ?_⟩
      rw [Moved.next_eq (.silent later (by simpa using chosen))]
      simp [update_comm apart]
    | read amount final also available =>
      refine ⟨_, Moved.next_eq (.read amount final (by simpa using also) ?_), ?_⟩
      · simpa using available
      · rw [Moved.next_eq (.silent later (by simpa using chosen))]
        simp [update_comm apart]
    | silent final also =>
      refine ⟨_, Moved.next_eq (.silent final (by simpa using also)), ?_⟩
      rw [Moved.next_eq (.silent later (by simpa using chosen))]
      simp [update_comm apart]

/-- The queues never hold more than their capacity. -/
theorem bounded (path : Reaches (next capacity move) start final)
    (initial : ∀ side, (start.queue side).length ≤ capacity) (side : Side) :
    (final.queue side).length ≤ capacity := by
  refine path.invariant (fun net => ∀ side, (net.queue side).length ≤ capacity) initial ?_ side
  intro mover before after fits moved queue
  cases next_moved moved with
  | write data later chosen room =>
    by_cases same : queue = mover
    · subst queue
      simpa using room
    · simpa [update_of_ne same] using fits queue
  | read count later chosen stored =>
    by_cases same : queue = mover.other
    · subst queue
      have bound := fits mover.other
      simp only [update_self, List.length_drop]
      omega
    · simpa [update_of_ne same] using fits queue
  | silent later chosen => exact fits queue

/-- Which bytes a program still writes and which it still waits for; `talks` says so of a
program and its moves follow it, whatever else they do. -/
def Follows (move : Side → σ → Option (Move σ α))
    (talks : Side → σ → List α → List α → Prop) : Prop :=
  ∀ side program out awaited, talks side program out awaited →
    match move side program with
    | none => True
    | some (.write data later) => ∃ rest, out = data ++ rest ∧ talks side later rest awaited
    | some (.read count later) => ∀ data rest, data.length = count → awaited = data ++ rest →
        talks side (later data) out rest
    | some (.silent later) => talks side later out awaited

/-- What is queued and what one side still writes is what the other side waits for. -/
def Balanced (talks : Side → σ → List α → List α → Prop) (out : Side → List α)
    (net : Net σ α) : Prop :=
  ∀ side, talks side (net.program side) (out side) (net.queue side.other ++ out side.other)

variable {talks : Side → σ → List α → List α → Prop} {out : Side → List α}

theorem Balanced.of_sides (side : Side) {net : Net σ α}
    (here : talks side (net.program side) (out side) (net.queue side.other ++ out side.other))
    (there : talks side.other (net.program side.other) (out side.other)
      (net.queue side ++ out side)) : Balanced talks out net := by
  refine Side.forall_of side here ?_
  rw [Side.other_other]
  exact there

/-- Every step keeps the balance. -/
theorem Balanced.moved (balanced : Balanced talks out before) (follows : Follows move talks)
    (moved : Moved capacity move side before after) :
    ∃ later, Balanced talks later after ∧ later side.other = out side.other ∧
      (after.queue side ++ later side = before.queue side ++ out side) := by
  have mine := balanced side
  have theirs := balanced side.other
  have step := follows side _ _ _ mine
  rw [Side.other_other] at theirs
  cases moved with
  | write data later chosen room =>
    rw [chosen] at step
    obtain ⟨rest, split, talk⟩ := step
    have joined : (before.queue side ++ data) ++ rest = before.queue side ++ out side := by
      rw [split, List.append_assoc]
    refine ⟨update out side rest, Balanced.of_sides side ?_ ?_, ?_, ?_⟩
    · simpa using talk
    · simpa [← joined] using theirs
    · simp
    · simpa using joined
  | read count later chosen stored =>
    rw [chosen] at step
    have split := (List.take_append_drop count (before.queue side.other)).symm
    have talk := step ((before.queue side.other).take count)
      ((before.queue side.other).drop count ++ out side.other) (List.length_take_of_le stored)
      (by rw [← List.append_assoc, List.take_append_drop])
    refine ⟨out, Balanced.of_sides side ?_ ?_, rfl, ?_⟩
    · simpa using talk
    · simpa using theirs
    · simp
  | silent later chosen =>
    rw [chosen] at step
    refine ⟨out, Balanced.of_sides side ?_ ?_, rfl, rfl⟩
    · simpa using step
    · simpa using theirs

/-- What a move leads to has a property, whatever it reads. -/
def Keeps (kept : σ → Prop) : Option (Move σ α) → Prop
  | none => True
  | some (.write _ later) => kept later
  | some (.read _ later) => ∀ data, kept (later data)
  | some (.silent later) => kept later

theorem Follows.keeps (follows : Follows move talks) (role : Side → σ → Prop)
    (kept : ∀ side program, role side program → Keeps (role side) (move side program)) :
    Follows move fun side program out awaited =>
      talks side program out awaited ∧ role side program := by
  rintro side program out awaited ⟨talk, plays⟩
  have step := follows side program out awaited talk
  have keeps := kept side program plays
  generalize move side program = chosen at step keeps ⊢
  cases chosen with
  | none => trivial
  | some chosen =>
    cases chosen with
    | write data later =>
      obtain ⟨rest, split, next⟩ := step
      exact ⟨rest, split, next, keeps⟩
    | read count later => exact fun data rest length split => ⟨step data rest length split, keeps data⟩
    | silent later => exact ⟨step, keeps⟩

/-- The sum over both sides. -/
def total (amount : Side → Nat) : Nat := amount .left + amount .right

theorem total_eq (amount : Side → Nat) (side : Side) :
    total amount = amount side + amount side.other := by
  cases side
  · rfl
  · exact Nat.add_comm _ _

/-- Moves that write or read at least something, and lose weight when they do neither. -/
def Works (move : Side → σ → Option (Move σ α)) (talks : Side → σ → List α → List α → Prop)
    (weight : σ → Nat) : Prop :=
  ∀ side program out awaited, talks side program out awaited →
    match move side program with
    | none => True
    | some (.write data later) => 0 < data.length ∧ weight later ≤ weight program
    | some (.read count later) => 0 < count ∧
        ∀ data, data.length = count → weight (later data) ≤ weight program
    | some (.silent later) => weight later < weight program

/-- A byte costs most while it is to be written, less in the queue and nothing when read. -/
def Costs (talks : Side → σ → List α → List α → Prop) (weight : σ → Nat) (net : Net σ α)
    (budget : Nat) : Prop :=
  ∃ out, Balanced talks out net ∧ budget = total fun side =>
    weight (net.program side) + 2 * (out side).length + (net.queue side).length

theorem Costs.lowers (follows : Follows move talks) (works : Works move talks weight)
    (costs : Costs talks weight before budget) (moved : Moved capacity move side before after) :
    ∃ rest, rest < budget ∧ Costs talks weight after rest := by
  obtain ⟨out, balanced, rfl⟩ := costs
  obtain ⟨later, kept, same, joined⟩ := balanced.moved follows moved
  refine ⟨_, ?_, later, kept, rfl⟩
  have work := works side _ _ _ (balanced side)
  have length := congrArg List.length joined
  rw [List.length_append, List.length_append] at length
  rw [total_eq _ side, total_eq _ side, moved.program_other, same]
  cases moved with
  | write data later chosen room =>
    rw [chosen] at work
    simp only [update_self, update_of_ne side.other_ne, List.length_append] at length ⊢
    omega
  | read count later chosen stored =>
    rw [chosen] at work
    have lighter := work.2 ((before.queue side.other).take count) (List.length_take_of_le stored)
    simp only [update_self, update_of_ne side.ne_other, List.length_drop] at length ⊢
    omega
  | silent later chosen =>
    rw [chosen] at work
    simp only [update_self] at length ⊢
    omega

/-- A balanced net comes to a halt, still balanced. -/
theorem Balanced.halts (balanced : Balanced talks out before) (follows : Follows move talks)
    (works : Works move talks weight) (capacity : Nat) :
    ∃ final rest, Reaches (next capacity move) before final ∧
      Halted (next capacity move) final ∧ Balanced talks rest final := by
  have lowers : ∀ side (before after : Net σ α) budget, Costs talks weight before budget →
      before.next capacity move side = some after →
      ∃ rest, rest < budget ∧ Costs talks weight after rest :=
    fun _ _ _ _ costs moved => costs.lowers follows works (next_moved moved)
  obtain ⟨final, path, halted⟩ := reaches_halted _ lowers ⟨out, balanced, rfl⟩
  have kept := path.invariant (fun net => ∃ out, Balanced talks out net) ⟨out, balanced⟩ ?_
  · obtain ⟨rest, balanced⟩ := kept
    exact ⟨final, rest, path, halted, balanced⟩
  · rintro mover net later ⟨out, balanced⟩ moved
    obtain ⟨rest, kept, -, -⟩ := balanced.moved follows (next_moved moved)
    exact ⟨rest, kept⟩

end Net

end Lib.Duplex
