/-! A loop whose body may end by calling the whole function again: the nested calls, and the
single loop that starts anew instead. -/

namespace Lib.TailCall

variable {State Result : Type}

/-- How one pass through the body ends. -/
inductive Turn (State Result : Type) where
  | next (later : State)
  | again (later : State)
  | done (result : Result)

/-- The loop of one call; `self` is the function. -/
def loop (body : State → Turn State Result) (self : State → Option Result) :
    Nat → State → Option Result
  | 0, _ => none
  | fuel + 1, state =>
    match body state with
    | .next later => loop body self fuel later
    | .again later => self later
    | .done result => some result

/-- Calls up to a depth, each of which enters its loop and has some fuel for it. -/
def call (body : State → Turn State Result) (enter : State → State) (fuel : Nat) :
    Nat → State → Option Result
  | 0, _ => none
  | depth + 1, state => loop body (call body enter fuel depth) fuel (enter state)

/-- The single loop. -/
def flat (body : State → Turn State Result) (enter : State → State) : Nat → State → Option Result
  | 0, _ => none
  | rounds + 1, state =>
    match body state with
    | .next later => flat body enter rounds later
    | .again later => flat body enter rounds (enter later)
    | .done result => some result

/-- A pass uses up the budget of its call, and a further call something that does not come back. -/
structure Progress (body : State → Turn State Result) (enter : State → State) (inv : State → Prop)
    (left budget : State → Nat) (limit : Nat) : Prop where
  next : ∀ state later, inv state → body state = .next later →
    inv later ∧ left later ≤ left state ∧ budget later < budget state
  again : ∀ state later, inv state → body state = .again later →
    inv (enter later) ∧ left (enter later) < left state ∧ 0 < budget state
  fits : ∀ state, inv state → budget state ≤ limit

variable {body : State → Turn State Result} {enter : State → State} {inv : State → Prop}
  {left budget : State → Nat} {limit : Nat}

/-- The single loop ends: every further call may cost one budget. -/
theorem Progress.flat_ends (progress : Progress body enter inv left budget limit)
    (holds : inv state) (enough : left state * limit + budget state < rounds) :
    ∃ result, flat body enter rounds state = some result := by
  induction rounds generalizing state with
  | zero => omega
  | succ rounds ih =>
    cases turned : body state with
    | done result => exact ⟨result, by simp only [flat, turned]⟩
    | next later =>
      obtain ⟨kept, fewer, smaller⟩ := progress.next state later holds turned
      have cost : left later * limit ≤ left state * limit := Nat.mul_le_mul_right limit fewer
      obtain ⟨result, ended⟩ := ih kept (by omega)
      exact ⟨result, by simpa only [flat, turned] using ended⟩
    | again later =>
      obtain ⟨kept, fewer, positive⟩ := progress.again state later holds turned
      have fits := progress.fits _ kept
      have cost : (left (enter later) + 1) * limit ≤ left state * limit :=
        Nat.mul_le_mul_right limit fewer
      rw [Nat.succ_mul] at cost
      obtain ⟨result, ended⟩ := ih kept (by omega)
      exact ⟨result, by simpa only [flat, turned] using ended⟩

/-- The nested calls end as the single loop does, no deeper than there is something left. -/
theorem Progress.loop_of_flat (progress : Progress body enter inv left budget limit)
    (holds : inv state) (ended : flat body enter rounds state = some result)
    (deep : left state ≤ depth) (long : budget state < fuel) (whole : limit < callFuel) :
    loop body (call body enter callFuel depth) fuel state = some result := by
  induction rounds generalizing state fuel depth with
  | zero => cases ended
  | succ rounds ih =>
    obtain ⟨fuel, rfl⟩ : ∃ rest, fuel = rest + 1 := ⟨fuel - 1, by omega⟩
    cases turned : body state with
    | done result =>
      simp only [flat, turned] at ended
      simp only [loop, turned, ended]
    | next later =>
      obtain ⟨kept, fewer, smaller⟩ := progress.next state later holds turned
      simp only [flat, turned] at ended
      simp only [loop, turned]
      exact ih kept ended (by omega) (by omega)
    | again later =>
      obtain ⟨kept, fewer, positive⟩ := progress.again state later holds turned
      have fits := progress.fits _ kept
      simp only [flat, turned] at ended
      simp only [loop, turned]
      obtain ⟨depth, rfl⟩ : ∃ rest, depth = rest + 1 := ⟨depth - 1, by omega⟩
      exact ih kept ended (by omega) (by omega)

theorem flat_more (ended : flat body enter rounds state = some result) (more : rounds ≤ others) :
    flat body enter others state = some result := by
  induction rounds generalizing state others with
  | zero => cases ended
  | succ rounds ih =>
    obtain ⟨others, rfl⟩ : ∃ rest, others = rest + 1 := ⟨others - 1, by omega⟩
    cases turned : body state with
    | done result =>
      simp only [flat, turned] at ended ⊢
      exact ended
    | next later | again later =>
      simp only [flat, turned] at ended ⊢
      exact ih ended (by omega)

/-- The function terminates, and as the single loop does. -/
theorem Progress.call_eq_flat (progress : Progress body enter inv left budget limit)
    (holds : inv (enter state)) :
    ∃ result, (∀ depth fuel, left (enter state) < depth → limit < fuel →
      call body enter fuel depth state = some result) ∧
      ∀ rounds, (left (enter state) + 1) * limit < rounds →
        flat body enter rounds (enter state) = some result := by
  have fits := progress.fits _ holds
  have bound : left (enter state) * limit + budget (enter state) <
      (left (enter state) + 1) * limit + 1 := by
    rw [Nat.succ_mul]
    omega
  obtain ⟨result, ended⟩ := progress.flat_ends holds bound
  refine ⟨result, fun depth fuel deep long => ?_, fun rounds enough => flat_more ended enough⟩
  obtain ⟨depth, rfl⟩ : ∃ rest, depth = rest + 1 := ⟨depth - 1, by omega⟩
  exact progress.loop_of_flat holds ended (by omega) (by omega) long

end Lib.TailCall
