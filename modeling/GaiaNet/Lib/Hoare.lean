/-! Programs with a state and an exception: how they run, and pre- and
postconditions in which each of the two ends has its own. -/

namespace Lib.Hoare

variable {Error State Value Next : Type}

theorem run_bind (prog : EStateM Error State Value) (rest : Value → EStateM Error State Next)
    (state : State) :
    (prog >>= rest) state =
      match prog state with
      | .ok value after => rest value after
      | .error error after => .error error after :=
  rfl

theorem run_pure (value : Value) (state : State) :
    (pure value : EStateM Error State Value) state = .ok value state :=
  rfl

theorem run_get (state : State) : (get : EStateM Error State State) state = .ok state state :=
  rfl

theorem run_modify (change : State → State) (state : State) :
    (modify change : EStateM Error State PUnit) state = .ok ⟨⟩ (change state) :=
  rfl

theorem run_throw (error : Error) (state : State) :
    (throw error : EStateM Error State Value) state = .error error state :=
  rfl

theorem run_ite {test : Prop} [Decidable test] (yes no : EStateM Error State Value)
    (state : State) : (if test then yes else no) state = if test then yes state else no state := by
  split <;> rfl

/-- The two ways a run can end. -/
def Ends (normal : Value → State → Prop) (exceptional : Error → State → Prop) :
    EStateM.Result Error State Value → Prop
  | .ok value state => normal value state
  | .error error state => exceptional error state

/-- The state in which a run ends, either way. -/
def finalState : EStateM.Result Error State Value → State
  | .ok _ state => state
  | .error _ state => state

/-- What a normal end gives. -/
def completed : EStateM.Result Error State Value → Option (Value × State)
  | .ok value state => some (value, state)
  | .error _ _ => none

theorem completed_eq {result : EStateM.Result Error State Value} :
    completed result = some (value, state) ↔ result = .ok value state := by
  cases result <;> simp [completed]

def Triple (pre : State → Prop) (prog : EStateM Error State Value)
    (normal : Value → State → Prop) (exceptional : Error → State → Prop) : Prop :=
  ∀ state, pre state → Ends normal exceptional (prog state)

namespace Triple

theorem bind {pre : State → Prop} {middle : Value → State → Prop} {normal : Next → State → Prop}
    {exceptional : Error → State → Prop} {prog : EStateM Error State Value}
    {rest : Value → EStateM Error State Next} (first : Triple pre prog middle exceptional)
    (second : ∀ value, Triple (middle value) (rest value) normal exceptional) :
    Triple pre (prog >>= rest) normal exceptional := by
  intro state holds
  have ended := first state holds
  change Ends normal exceptional (EStateM.bind prog rest state)
  unfold EStateM.bind
  cases result : prog state with
  | ok value after =>
    rw [result] at ended
    exact second value after ended
  | error error after =>
    rw [result] at ended
    exact ended

theorem ite {pre : State → Prop} {normal : Value → State → Prop} {exceptional : Error → State → Prop}
    {test : Prop} [Decidable test] {yes no : EStateM Error State Value}
    (whenTrue : test → Triple pre yes normal exceptional)
    (whenFalse : ¬ test → Triple pre no normal exceptional) :
    Triple pre (if test then yes else no) normal exceptional := by
  by_cases holds : test
  · rw [if_pos holds]
    exact whenTrue holds
  · rw [if_neg holds]
    exact whenFalse holds

end Triple

/-- A property that every end of the program keeps. -/
def Keeps (inv : State → Prop) (prog : EStateM Error State Value) : Prop :=
  Triple inv prog (fun _ => inv) (fun _ => inv)

namespace Keeps

theorem pure (inv : State → Prop) (value : Value) :
    Keeps inv (Pure.pure value : EStateM Error State Value) :=
  fun _ holds => holds

theorem get (inv : State → Prop) : Keeps inv (MonadState.get : EStateM Error State State) :=
  fun _ holds => holds

theorem bind {inv : State → Prop} {prog : EStateM Error State Value}
    {rest : Value → EStateM Error State Next} (first : Keeps inv prog)
    (second : ∀ value, Keeps inv (rest value)) : Keeps inv (prog >>= rest) :=
  Triple.bind first second

end Keeps

end Lib.Hoare
