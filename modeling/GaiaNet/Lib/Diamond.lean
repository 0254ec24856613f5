import GaiaNet.Lib.Transition

/-! Systems whose steps under different labels commute: the order of the steps decides
neither the length of a run nor the state it ends in. Systems in lockstep halt together. -/

namespace Lib.Transition

variable {Label : Type u} {State : Type v} {next : Label → State → Option State}

/-- Two steps under different labels join in one step each. -/
def Commutes (next : Label → State → Option State) : Prop :=
  ∀ label other before after side, label ≠ other → next label before = some after →
    next other before = some side → ∃ joined, next other after = some joined ∧
      next label side = some joined

/-- No label is enabled. -/
def Halted (next : Label → State → Option State) (state : State) : Prop :=
  ∀ label, next label state = none

/-- Every reachable state is reached by a schedule. -/
theorem Reaches.exists_run (path : Reaches next start final) :
    ∃ labels, run next labels start = some final := by
  induction path with
  | refl => exact ⟨[], rfl⟩
  | tail _ moved ih =>
    obtain ⟨labels, ran⟩ := ih
    obtain ⟨label, moved⟩ := moved
    refine ⟨labels ++ [label], ?_⟩
    rw [run_append, ran]
    simp [run, moved]

/-- After any step the way to where a run halts is one step shorter. -/
theorem Commutes.shorten (commutes : Commutes next) (labels : List Label)
    (ran : run next labels start = some final) (halted : Halted next final)
    (moved : next label start = some other) :
    ∃ rest, run next rest other = some final ∧ rest.length + 1 = labels.length := by
  classical
  induction labels generalizing start other with
  | nil =>
    cases ran
    rw [halted label] at moved
    cases moved
  | cons first labels ih =>
    cases step : next first start with
    | none => simp [run, step] at ran
    | some middle =>
      have later : run next labels middle = some final := by simpa [run, step] using ran
      by_cases same : label = first
      · subst first
        rw [moved] at step
        cases step
        exact ⟨labels, later, rfl⟩
      · obtain ⟨joined, across, along⟩ := commutes label first start other middle same moved step
        obtain ⟨rest, reached, length⟩ := ih later along
        refine ⟨first :: rest, ?_, ?_⟩
        · simpa [run, across] using reached
        · simp only [List.length_cons, length]

/-- Where one run halts, every run can be continued to, and the two lengths add up. -/
theorem Commutes.completes (commutes : Commutes next) (labels more : List Label)
    (ran : run next labels start = some final) (halted : Halted next final)
    (strayed : run next more start = some other) :
    ∃ rest, run next rest other = some final ∧ more.length + rest.length = labels.length := by
  induction more generalizing start labels with
  | nil =>
    cases strayed
    exact ⟨labels, ran, Nat.zero_add _⟩
  | cons label more ih =>
    cases step : next label start with
    | none => simp [run, step] at strayed
    | some middle =>
      have later : run next more middle = some other := by simpa [run, step] using strayed
      obtain ⟨shorter, reached, length⟩ := commutes.shorten labels ran halted step
      obtain ⟨rest, finished, total⟩ := ih shorter reached later
      refine ⟨rest, finished, ?_⟩
      rw [List.length_cons]
      omega

/-- A halting state is reached from every reachable state. -/
theorem Commutes.reaches (commutes : Commutes next) (path : Reaches next start final)
    (halted : Halted next final) (strayed : Reaches next start other) :
    Reaches next other final := by
  obtain ⟨labels, ran⟩ := path.exists_run
  obtain ⟨more, moved⟩ := strayed.exists_run
  obtain ⟨rest, finished, -⟩ := commutes.completes labels more ran halted moved
  exact Reaches.ofRun rest finished

/-- Steps that lower a cost come to a halt; the cost may be chosen anew after each step. -/
theorem reaches_halted (cost : State → Nat → Prop)
    (lowers : ∀ label before after budget, cost before budget → next label before = some after →
      ∃ rest, rest < budget ∧ cost after rest) (initial : cost start budget) :
    ∃ final, Reaches next start final ∧ Halted next final := by
  induction budget using Nat.strongRecOn generalizing start with
  | ind budget ih =>
    by_cases halted : Halted next start
    · exact ⟨start, Reaches.refl next start, halted⟩
    · obtain ⟨label, moves⟩ := Classical.not_forall.mp halted
      obtain ⟨after, moved⟩ := Option.ne_none_iff_exists'.mp moves
      obtain ⟨rest, lower, kept⟩ := lowers label start after budget initial moved
      obtain ⟨final, path, halted⟩ := ih rest lower kept
      exact ⟨final, ((Reaches.refl next start).step moved).trans path, halted⟩

/-- They make no more steps than the cost allows. -/
theorem run_length_le_cost (cost : State → Nat → Prop)
    (lowers : ∀ label before after budget, cost before budget → next label before = some after →
      ∃ rest, rest < budget ∧ cost after rest) (initial : cost start budget) (labels : List Label)
    (ran : run next labels start = some final) : labels.length ≤ budget := by
  induction labels generalizing start budget with
  | nil => exact Nat.zero_le _
  | cons label labels ih =>
    cases moved : next label start with
    | none => simp [run, moved] at ran
    | some middle =>
      have rest : run next labels middle = some final := by simpa [run, moved] using ran
      obtain ⟨less, lower, kept⟩ := lowers label start middle budget initial moved
      exact Nat.lt_of_le_of_lt (ih kept rest) lower

/-- A state without steps is where every run from it ends. -/
theorem Halted.reaches_eq (halted : Halted next state) (path : Reaches next state after) :
    after = state := by
  induction path with
  | refl => rfl
  | tail _ moved ih =>
    obtain ⟨label, moved⟩ := moved
    rw [ih, halted label] at moved
    cases moved

/-- Two systems that make the same steps have the same runs. -/
theorem run_lockstep {Coarse : Type w} {coarse : Label → Coarse → Option Coarse} {image : Coarse}
    (rel : State → Coarse → Prop)
    (step : ∀ label before old, rel before old →
      Option.Rel rel (next label before) (coarse label old))
    (labels : List Label) (related : rel start image) :
    Option.Rel rel (run next labels start) (run coarse labels image) := by
  induction labels generalizing start image with
  | nil => exact .some related
  | cons label labels ih =>
    have first := step label start image related
    simp only [run]
    generalize next label start = one at first ⊢
    generalize coarse label image = two at first ⊢
    cases first with
    | none => exact .none
    | some after => exact ih after

theorem run_lockstep_left {Coarse : Type w} {coarse : Label → Coarse → Option Coarse}
    {image : Coarse} (rel : State → Coarse → Prop)
    (step : ∀ label before old, rel before old →
      Option.Rel rel (next label before) (coarse label old))
    (labels : List Label) (related : rel start image) (ran : run next labels start = some final) :
    ∃ last, run coarse labels image = some last ∧ rel final last := by
  have both := run_lockstep rel step labels related
  rw [ran] at both
  generalize run coarse labels image = result at both ⊢
  cases both with
  | some kept => exact ⟨_, rfl, kept⟩

theorem run_lockstep_right {Coarse : Type w} {coarse : Label → Coarse → Option Coarse}
    {image last : Coarse} (rel : State → Coarse → Prop)
    (step : ∀ label before old, rel before old →
      Option.Rel rel (next label before) (coarse label old))
    (labels : List Label) (related : rel start image) (ran : run coarse labels image = some last) :
    ∃ final, run next labels start = some final ∧ rel final last := by
  have both := run_lockstep rel step labels related
  rw [ran] at both
  generalize run next labels start = result at both ⊢
  cases both with
  | some kept => exact ⟨_, rfl, kept⟩

theorem reaches_lockstep {Coarse : Type w} {coarse : Label → Coarse → Option Coarse} {image : Coarse}
    (rel : State → Coarse → Prop)
    (step : ∀ label before old, rel before old →
      Option.Rel rel (next label before) (coarse label old))
    (related : rel start image) (path : Reaches next start final) :
    ∃ last, Reaches coarse image last ∧ rel final last := by
  obtain ⟨labels, ran⟩ := path.exists_run
  obtain ⟨last, same, kept⟩ := run_lockstep_left rel step labels related ran
  exact ⟨last, Reaches.ofRun labels same, kept⟩

theorem realizes_lockstep {Coarse : Type w} {coarse : Label → Coarse → Option Coarse}
    {image last : Coarse} (rel : State → Coarse → Prop)
    (step : ∀ label before old, rel before old →
      Option.Rel rel (next label before) (coarse label old))
    (related : rel start image) (path : Reaches coarse image last) :
    ∃ final, Reaches next start final ∧ rel final last := by
  obtain ⟨labels, ran⟩ := path.exists_run
  obtain ⟨final, same, kept⟩ := run_lockstep_right rel step labels related ran
  exact ⟨final, Reaches.ofRun labels same, kept⟩

theorem halted_lockstep {Coarse : Type w} {coarse : Label → Coarse → Option Coarse} {image : Coarse}
    (rel : State → Coarse → Prop)
    (step : ∀ label before old, rel before old →
      Option.Rel rel (next label before) (coarse label old))
    (related : rel start image) : Halted next start ↔ Halted coarse image := by
  refine forall_congr' fun label => ?_
  have same := step label start image related
  generalize next label start = one at same ⊢
  generalize coarse label image = two at same ⊢
  cases same <;> simp

end Lib.Transition
