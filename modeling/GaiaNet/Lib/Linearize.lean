import GaiaNet.Lib.Transition

/-! Linearizable objects: every call takes its effect at one moment between its invocation and
its return, and the effects in the order of these moments are a run of a sequential object. -/

namespace Lib.Linearize

open Lib.Transition

/-- What a history records: `took` is the moment at which a call takes its effect. -/
inductive Entry (Thread : Type u) (Call : Type v) (Result : Type w) where
  | invoked (thread : Thread) (call : Call)
  | took (thread : Thread) (call : Call) (result : Result)
  | returned (thread : Thread) (result : Result)
  deriving DecidableEq, Repr

/-- Where a thread stands: outside, in a call without effect so far, in one that has had it. -/
inductive Stage (Call : Type v) (Result : Type w) where
  | idle
  | pending (call : Call)
  | done (result : Result)

/-- A sequential object: what a call returns and leaves, if it can be made in a state. -/
abbrev Object (Call : Type v) (Result : Type w) (State : Type x) :=
  Call → State → Option (Result × State)

variable {Thread : Type u} {Call : Type v} {Result : Type w} {State : Type x}

def Entry.thread : Entry Thread Call Result → Thread
  | .invoked thread _ | .took thread _ _ | .returned thread _ => thread

section

variable [DecidableEq Call] [DecidableEq Result]

/-- An entry of a thread moves it on. -/
def Stage.next : Entry Thread Call Result → Stage Call Result → Option (Stage Call Result)
  | .invoked _ call, .idle => some (.pending call)
  | .took _ call result, .pending called => if call = called then some (.done result) else none
  | .returned _ result, .done given => if result = given then some .idle else none
  | _, _ => none

/-- The entries of one thread move it, those of the others leave it alone. -/
def Stage.follow [DecidableEq Thread] (thread : Thread) (entry : Entry Thread Call Result)
    (stage : Stage Call Result) : Option (Stage Call Result) :=
  if entry.thread = thread then stage.next entry else some stage

/-- A thread stays where it is while another one goes on. -/
theorem follow_others [DecidableEq Thread] {thread other : Thread}
    {entries : List (Entry Thread Call Result)} (own : ∀ entry ∈ entries, entry.thread = thread)
    (apart : other ≠ thread) (stage : Stage Call Result) :
    run (Stage.follow other) entries stage = some stage := by
  induction entries with
  | nil => rfl
  | cons entry rest ih =>
    have foreign : entry.thread ≠ other := by
      rw [own entry List.mem_cons_self]
      exact apart.symm
    simp only [run, Stage.follow, if_neg foreign, Option.bind_some]
    exact ih fun later member => own later (List.mem_cons_of_mem _ member)

theorem follow_own [DecidableEq Thread] {thread : Thread} {entries : List (Entry Thread Call Result)}
    (own : ∀ entry ∈ entries, entry.thread = thread) (stage : Stage Call Result) :
    run (Stage.follow thread) entries stage = run Stage.next entries stage := by
  induction entries generalizing stage with
  | nil => rfl
  | cons entry rest ih =>
    have here : Stage.follow thread entry stage = stage.next entry :=
      if_pos (own entry List.mem_cons_self)
    simp only [run, here]
    exact congrArg _ (funext (ih fun later member => own later (List.mem_cons_of_mem _ member)))

/-- An effect is a call of the sequential object. -/
def Object.effect (object : Object Call Result State) :
    Entry Thread Call Result → State → Option State
  | .took _ call result, state =>
    match object call state with
    | some (given, after) => if result = given then some after else none
    | none => none
  | _, state => some state

/-- The calls of each thread follow each other, and the effects of all are a run of the object. -/
structure Linearizes [DecidableEq Thread] (object : Object Call Result State) (initial final : State)
    (stage : Thread → Stage Call Result) (history : List (Entry Thread Call Result)) : Prop where
  threads : ∀ thread, run (Stage.follow thread) history .idle = some (stage thread)
  effects : run object.effect history initial = some final

/-- The history goes on. -/
theorem Linearizes.append [DecidableEq Thread] {object : Object Call Result State}
    {stage after : Thread → Stage Call Result} {history more : List (Entry Thread Call Result)}
    (linearizes : Linearizes object initial middle stage history)
    (threads : ∀ thread, run (Stage.follow thread) more (stage thread) = some (after thread))
    (effects : run object.effect more middle = some final) :
    Linearizes object initial final after (history ++ more) := by
  constructor
  · intro thread
    rw [run_append, linearizes.threads thread]
    exact threads thread
  · rw [run_append, linearizes.effects]
    exact effects

end

variable {Label : Type y} {System : Type z}

/-- A system with its history; `emits` are the entries of a step. -/
def recording (next : Label → System → Option System)
    (emits : Label → System → List (Entry Thread Call Result)) :
    Label → System × List (Entry Thread Call Result) →
      Option (System × List (Entry Thread Call Result))
  | label, (system, history) =>
    (next label system).map fun after => (after, history ++ emits label system)

/-- The rule: the entries of every step move the threads as the system does, and its effects are
calls of the object. -/
theorem linearizes_of_steps [DecidableEq Thread] [DecidableEq Call] [DecidableEq Result]
    {next : Label → System → Option System}
    {emits : Label → System → List (Entry Thread Call Result)} {start : System}
    (object : Object Call Result State) (value : System → State)
    (stage : System → Thread → Stage Call Result) (inv : System → Prop) (initial : inv start)
    (idle : ∀ thread, stage start thread = .idle)
    (preserved : ∀ label before after, inv before → next label before = some after → inv after)
    (threads : ∀ label before after, inv before → next label before = some after → ∀ thread,
      run (Stage.follow thread) (emits label before) (stage before thread) =
        some (stage after thread))
    (effects : ∀ label before after, inv before → next label before = some after →
      run object.effect (emits label before) (value before) = some (value after))
    (path : Reaches (recording next emits) (start, []) (final, history)) :
    inv final ∧ Linearizes object (value start) (value final) (stage final) history := by
  apply path.invariant fun reached : System × List (Entry Thread Call Result) =>
    inv reached.1 ∧ Linearizes object (value start) (value reached.1) (stage reached.1) reached.2
  · refine ⟨initial, fun thread => ?_, rfl⟩
    rw [idle thread]
    rfl
  · rintro label ⟨before, past⟩ after ⟨holds, linearizes⟩ moved
    obtain ⟨system, stepped, rfl⟩ := Option.map_eq_some_iff.mp moved
    exact ⟨preserved label before system holds stepped,
      linearizes.append (threads label before system holds stepped)
        (effects label before system holds stepped)⟩

end Lib.Linearize
