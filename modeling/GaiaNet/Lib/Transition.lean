import Mathlib.Logic.Relation

/-! Runs of a labelled step function: reachability, the invariant rule and
stuttering simulation. -/

namespace Lib.Transition

variable {Label : Type u} {State : Type v}

/-- One step under some label. -/
def Step (next : Label → State → Option State) (before after : State) : Prop :=
  ∃ label, next label before = some after

def Reaches (next : Label → State → Option State) : State → State → Prop :=
  Relation.ReflTransGen (Step next)

/-- Follow a schedule of labels; a disabled label ends the run without result. -/
def run (next : Label → State → Option State) : List Label → State → Option State
  | [], state => some state
  | label :: labels, state => (next label state).bind (run next labels)

theorem run_append (next : Label → State → Option State) (labels more : List Label)
    (state : State) : run next (labels ++ more) state = (run next labels state).bind (run next more) := by
  induction labels generalizing state with
  | nil => rfl
  | cons label labels ih =>
    simp only [List.cons_append, run, Option.bind_assoc]
    exact congrArg _ (funext ih)

theorem Reaches.refl (next : Label → State → Option State) (state : State) :
    Reaches next state state :=
  Relation.ReflTransGen.refl

theorem Reaches.step {next : Label → State → Option State} (path : Reaches next start before)
    (moved : next label before = some after) : Reaches next start after :=
  Relation.ReflTransGen.tail path ⟨label, moved⟩

theorem Reaches.trans {next : Label → State → Option State} (first : Reaches next start middle)
    (second : Reaches next middle final) : Reaches next start final :=
  Relation.ReflTransGen.trans first second

theorem Reaches.ofRun {next : Label → State → Option State} (labels : List Label)
    (finished : run next labels start = some final) : Reaches next start final := by
  induction labels generalizing start with
  | nil =>
    cases finished
    exact Reaches.refl next _
  | cons label labels ih =>
    cases moved : next label start with
    | none => simp [run, moved] at finished
    | some middle =>
      have rest : run next labels middle = some final := by simpa [run, moved] using finished
      exact Reaches.trans (Reaches.step (Reaches.refl next start) moved) (ih rest)

/-- What holds at the start and survives every step holds in every state reached. -/
theorem Reaches.invariant {next : Label → State → Option State} (inv : State → Prop)
    (path : Reaches next start final) (initial : inv start)
    (preserved : ∀ label before after, inv before → next label before = some after → inv after) :
    inv final := by
  induction path with
  | refl => exact initial
  | tail _ moved ih =>
    obtain ⟨label, moved⟩ := moved
    exact preserved label _ _ ih moved

/-- Runs whose every step meets a condition. -/
inductive Within (next : Label → State → Option State) (allowed : Label → State → Prop)
    (start : State) : State → Prop where
  | refl : Within next allowed start start
  | step (path : Within next allowed start before) (may : allowed label before)
      (moved : next label before = some after) : Within next allowed start after

/-- Every step that a schedule takes meets a condition. -/
def Meets (next : Label → State → Option State) (allowed : Label → State → Prop) :
    List Label → State → Prop
  | [], _ => True
  | label :: labels, state =>
    allowed label state ∧ ∀ after, next label state = some after → Meets next allowed labels after

theorem Within.trans {next : Label → State → Option State} {allowed : Label → State → Prop}
    (first : Within next allowed start middle) (second : Within next allowed middle final) :
    Within next allowed start final := by
  induction second with
  | refl => exact first
  | step _ may moved ih => exact ih.step may moved

theorem Within.ofMeets {next : Label → State → Option State} {allowed : Label → State → Prop}
    (labels : List Label) (finished : run next labels start = some final)
    (meets : Meets next allowed labels start) : Within next allowed start final := by
  induction labels generalizing start with
  | nil =>
    cases finished
    exact .refl
  | cons label labels ih =>
    cases moved : next label start with
    | none => simp [run, moved] at finished
    | some middle =>
      have rest : run next labels middle = some final := by simpa [run, moved] using finished
      exact (Within.step .refl meets.1 moved).trans (ih rest (meets.2 middle moved))

theorem Within.invariant {next : Label → State → Option State} {allowed : Label → State → Prop}
    (inv : State → Prop) (path : Within next allowed start final) (initial : inv start)
    (preserved : ∀ label before after, inv before → allowed label before →
      next label before = some after → inv after) : inv final := by
  induction path with
  | refl => exact initial
  | step _ may moved ih => exact preserved _ _ _ ih may moved

/-- A run that does not meet the condition has a first step that breaks it. -/
theorem Meets.broken {next : Label → State → Option State} {allowed : Label → State → Prop}
    (labels : List Label) (finished : run next labels start = some final)
    (breaks : ¬ Meets next allowed labels start) :
    ∃ before label after, Within next allowed start before ∧ ¬ allowed label before ∧
      next label before = some after ∧ Reaches next after final := by
  induction labels generalizing start with
  | nil => exact absurd trivial breaks
  | cons label labels ih =>
    cases moved : next label start with
    | none => simp [run, moved] at finished
    | some middle =>
      have rest : run next labels middle = some final := by simpa [run, moved] using finished
      by_cases may : allowed label start
      · have later : ¬ Meets next allowed labels middle := by
          intro meets
          refine breaks ⟨may, fun after same => ?_⟩
          rw [moved] at same
          cases same
          exact meets
        obtain ⟨before, broken, after, path, rest⟩ := ih rest later
        exact ⟨before, broken, after, (Within.step .refl may moved).trans path, rest⟩
      · exact ⟨start, label, middle, .refl, may, moved, Reaches.ofRun labels rest⟩

/-- A condition on the steps implies another along a run, by an invariant that it keeps. -/
theorem Meets.weaken {next : Label → State → Option State} {allowed wider : Label → State → Prop}
    (inv : State → Prop)
    (preserved : ∀ label before after, inv before → allowed label before →
      next label before = some after → inv after)
    (weaker : ∀ label state, inv state → allowed label state → wider label state)
    (labels : List Label) (initial : inv start) (meets : Meets next allowed labels start) :
    Meets next wider labels start := by
  induction labels generalizing start with
  | nil => exact trivial
  | cons label labels ih =>
    obtain ⟨may, later⟩ := meets
    constructor
    · exact weaker label start initial may
    · intro after moved
      exact ih (preserved label start after initial may moved) (later after moved)

/-- What every step that meets a condition keeps, and every other step breaks for good. -/
theorem Meets.iff_of_run {next : Label → State → Option State} {allowed : Label → State → Prop}
    (inv good : State → Prop)
    (invariant : ∀ label before after, inv before → next label before = some after → inv after)
    (step : ∀ label before after, inv before → next label before = some after →
      (good after ↔ good before ∧ allowed label before))
    (labels : List Label) (initial : inv start) (finished : run next labels start = some final) :
    good final ↔ good start ∧ Meets next allowed labels start := by
  induction labels generalizing start with
  | nil =>
    cases finished
    exact (and_iff_left trivial).symm
  | cons label labels ih =>
    cases moved : next label start with
    | none => simp [run, moved] at finished
    | some middle =>
      have rest : run next labels middle = some final := by simpa [run, moved] using finished
      have later := ih (invariant _ _ _ initial moved) rest
      rw [later, step _ _ _ initial moved, Meets, moved, and_assoc]
      simp only [Option.some.injEq, forall_eq']

/-- A property of every state that a schedule goes through. -/
def Always (next : Label → State → Option State) (good : State → Prop) :
    List Label → State → Prop
  | [], state => good state
  | label :: labels, state =>
    good state ∧ ∀ after, next label state = some after → Always next good labels after

theorem Always.head {next : Label → State → Option State} {good : State → Prop}
    {labels : List Label} (always : Always next good labels state) : good state := by
  cases labels with
  | nil => exact always
  | cons => exact always.1

theorem Always.mono {next : Label → State → Option State} {good wider : State → Prop}
    {labels : List Label} (always : Always next good labels state)
    (weaker : ∀ state, good state → wider state) : Always next wider labels state := by
  induction labels generalizing state with
  | nil => exact weaker state always
  | cons label labels ih => exact ⟨weaker state always.1, fun after moved => ih (always.2 after moved)⟩

theorem Always.last {next : Label → State → Option State} {good : State → Prop}
    (labels : List Label) (always : Always next good labels start)
    (finished : run next labels start = some final) : good final := by
  induction labels generalizing start with
  | nil =>
    cases finished
    exact always
  | cons label labels ih =>
    cases moved : next label start with
    | none => simp [run, moved] at finished
    | some middle =>
      have rest : run next labels middle = some final := by simpa [run, moved] using finished
      exact ih (always.2 middle moved) rest

theorem Always.of_invariant {next : Label → State → Option State} {good : State → Prop}
    (inv : State → Prop) (sound : ∀ state, inv state → good state)
    (preserved : ∀ label before after, inv before → next label before = some after → inv after)
    (labels : List Label) (initial : inv start) : Always next good labels start := by
  induction labels generalizing start with
  | nil => exact sound start initial
  | cons label labels ih =>
    exact ⟨sound start initial, fun after moved => ih (preserved label start after initial moved)⟩

/-- A condition on the steps that keeps a property, and that every violation of it breaks
at once. -/
theorem Always.iff_meets {next : Label → State → Option State} {good : State → Prop}
    {allowed : Label → State → Prop} (inv strong : State → Prop)
    (invariant : ∀ label before after, inv before → next label before = some after → inv after)
    (keeps : ∀ label before after, inv before → strong before → allowed label before →
      next label before = some after → strong after)
    (sound : ∀ state, inv state → strong state → good state)
    (breaks : ∀ label before, inv before → strong before → ¬ allowed label before →
      ∃ after, next label before = some after ∧ ¬ good after)
    (labels : List Label) (initial : inv start) (holds : strong start) :
    Always next good labels start ↔ Meets next allowed labels start := by
  induction labels generalizing start with
  | nil => exact ⟨fun _ => trivial, fun _ => sound start initial holds⟩
  | cons label labels ih =>
    constructor
    · rintro ⟨-, later⟩
      have may : allowed label start := Classical.byContradiction fun broken => by
        obtain ⟨after, moved, bad⟩ := breaks label start initial holds broken
        exact bad (later after moved).head
      exact ⟨may, fun after moved => (ih (invariant _ _ _ initial moved)
        (keeps _ _ _ initial holds may moved)).mp (later after moved)⟩
    · rintro ⟨may, later⟩
      exact ⟨sound start initial holds, fun after moved => (ih (invariant _ _ _ initial moved)
        (keeps _ _ _ initial holds may moved)).mpr (later after moved)⟩

/-- Every concrete step is matched by at most one abstract step of its image. -/
theorem Reaches.simulate {Coarse : Type w} {CoarseLabel : Type x}
    {next : Label → State → Option State} {coarse : CoarseLabel → Coarse → Option Coarse}
    (inv : State → Prop) (image : State → Coarse)
    (path : Reaches next start final) (initial : inv start)
    (preserved : ∀ label before after, inv before → next label before = some after → inv after)
    (matched : ∀ label before after, inv before → next label before = some after →
      image after = image before ∨ Step coarse (image before) (image after)) :
    Reaches coarse (image start) (image final) := by
  have joint : inv final ∧ Reaches coarse (image start) (image final) := by
    induction path with
    | refl => exact ⟨initial, Reaches.refl coarse _⟩
    | @tail before after _ moved ih =>
      obtain ⟨label, moved⟩ := moved
      refine ⟨preserved label _ _ ih.1 moved, ?_⟩
      rcases matched label _ _ ih.1 moved with same | step
      · rw [same]
        exact ih.2
      · exact Relation.ReflTransGen.tail ih.2 step
  exact joint.2

/-- Every concrete step is matched by at most one abstract step, along a relation. -/
theorem Reaches.related {Coarse : Type w} {CoarseLabel : Type x}
    {next : Label → State → Option State} {coarse : CoarseLabel → Coarse → Option Coarse}
    {image : Coarse} (rel : State → Coarse → Prop) (path : Reaches next start final)
    (initial : rel start image)
    (matched : ∀ label before after old, Reaches coarse image old → rel before old →
      next label before = some after → ∃ new, (new = old ∨ Step coarse old new) ∧ rel after new) :
    ∃ last, Reaches coarse image last ∧ rel final last := by
  induction path with
  | refl => exact ⟨image, Reaches.refl coarse image, initial⟩
  | tail _ moved ih =>
    obtain ⟨label, moved⟩ := moved
    obtain ⟨old, reached, related⟩ := ih
    obtain ⟨new, same | step, after⟩ := matched label _ _ old reached related moved
    · exact ⟨new, same ▸ reached, after⟩
    · exact ⟨new, Relation.ReflTransGen.tail reached step, after⟩

/-- Where every state that has not reached the goal allows a step of lower rank, the goal is
reached. -/
theorem reaches_of_lowers [WellFoundedRelation Rank] {next : Label → State → Option State}
    (rank : State → Rank) (good goal : State → Prop)
    (lowers : ∀ state, good state → goal state ∨ ∃ label after, next label state = some after ∧
      good after ∧ WellFoundedRelation.rel (rank after) (rank state))
    (initial : good start) : ∃ final, Reaches next start final ∧ good final ∧ goal final := by
  revert initial
  apply (InvImage.wf rank WellFoundedRelation.wf).induction start
  intro state ih initial
  rcases lowers state initial with there | ⟨label, after, moved, kept, lower⟩
  · exact ⟨state, Reaches.refl next state, initial, there⟩
  · obtain ⟨final, path, still, there⟩ := ih after lower kept
    exact ⟨final, ((Reaches.refl next state).step moved).trans path, still, there⟩

end Lib.Transition
