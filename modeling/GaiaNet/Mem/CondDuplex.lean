import GaiaNet.Lib.Monitors
import GaiaNet.Mem.CondVar
import GaiaNet.Mem.Deadlock

/-! Both directions of a pair whose rings have mutexes: each ring is a monitor of its own, and a
`read` or a `write` of either end locks one of them. -/

namespace GaiaNet.Mem

open Lib Lib.Duplex Lib.Transition Function

instance : Monitor.Pair Side where
  decEq := inferInstance
  other := Side.other
  other_ne := Side.other_ne
  covers side peer := by
    cases side <;> cases peer <;> decide

instance : Fintype Side := ⟨{.left, .right}, fun side => by cases side <;> decide⟩

/-- What an end does next, and the ring whose mutex it takes to do it. -/
def Duplex.task (chunkSize : Side → UInt32) (side : Side) (duplex : Duplex) : Monitors.Task Side :=
  match (duplex.endpoint side).action (chunkSize side) with
  | none => .finished
  | some action => .under (action.ring side) (action.task (duplex.ring (action.ring side)))

section

variable {chunkSize : Side → UInt32} {side : Side} {duplex after : Duplex}

theorem Duplex.task_some {action : Action Endpoint}
    (chosen : (duplex.endpoint side).action (chunkSize side) = some action) :
    duplex.task chunkSize side =
      .under (action.ring side) (action.task (duplex.ring (action.ring side))) := by
  unfold task
  rw [chosen]

theorem Duplex.next_isSome (chunkSize : Side → UInt32) (side : Side) (duplex : Duplex) :
    (duplex.next chunkSize side).isSome = (duplex.task chunkSize side).enabled := by
  cases chosen : (duplex.endpoint side).action (chunkSize side) with
  | none =>
    rw [Duplex.next_none chosen]
    unfold task
    rw [chosen]
    rfl
  | some action =>
    rw [Duplex.next_eq chosen, Duplex.task_some chosen, Option.isSome_map,
      Action.perform_isSome, Monitors.Task.enabled_under]

/-- A step of an end is an action, on one ring and on nothing else of the other end. -/
theorem Duplex.next_performs (moved : duplex.next chunkSize side = some after) :
    ∃ action view, (duplex.endpoint side).action (chunkSize side) = some action ∧
      (∃ endpoint, action.perform (duplex.ring (action.ring side)) = some (view, endpoint)) ∧
      after.endpoint side.other = duplex.endpoint side.other ∧
      after.ring = update duplex.ring (action.ring side) view := by
  cases chosen : (duplex.endpoint side).action (chunkSize side) with
  | none =>
    rw [Duplex.next_none chosen] at moved
    cases moved
  | some action =>
    rw [Duplex.next_eq chosen] at moved
    obtain ⟨⟨view, endpoint⟩, performed, rfl⟩ := Option.map_eq_some_iff.mp moved
    exact ⟨action, view, rfl, ⟨endpoint, performed⟩, update_of_ne side.other_ne _ _, rfl⟩

/-- The task of an end as a step of the other one finds it and leaves it. -/
theorem Duplex.task_kept (moved : duplex.next chunkSize side = some after)
    {action : Action Endpoint}
    (chosen : (duplex.endpoint side.other).action (chunkSize side.other) = some action) :
    after.task chunkSize side.other = .under (action.ring side.other)
      (action.task (after.ring (action.ring side.other))) := by
  obtain ⟨-, -, -, -, kept, -⟩ := Duplex.next_performs moved
  exact Duplex.task_some (kept.symm ▸ chosen)

theorem Duplex.task_finished (moved : duplex.next chunkSize side = some after)
    (chosen : (duplex.endpoint side.other).action (chunkSize side.other) = none) :
    after.task chunkSize side.other = duplex.task chunkSize side.other := by
  obtain ⟨-, -, -, -, kept, -⟩ := Duplex.next_performs moved
  unfold task
  rw [kept, chosen]

/-- A step of an end does not change which ring the other end is at. -/
theorem Duplex.next_stable (moved : duplex.next chunkSize side = some after) :
    (after.task chunkSize side.other).object = (duplex.task chunkSize side.other).object := by
  cases chosen : (duplex.endpoint side.other).action (chunkSize side.other) with
  | none => rw [Duplex.task_finished moved chosen]
  | some action =>
    rw [Duplex.task_kept moved chosen, Duplex.task_some chosen, Monitors.Task.object_under,
      Monitors.Task.object_under, action.task_isGuarded]

theorem Action.task_unguarded {action : Action σ} (free : (action.task view).isGuarded = false)
    (later : SharedMemoryView) : action.task later = action.task view := by
  cases action with
  | write | read => cases free
  | «local» | outside => rfl

/-- Nor anything else for it, unless both are at the same ring. -/
theorem Duplex.next_apart (moved : duplex.next chunkSize side = some after)
    (apart : ∀ ring, (duplex.task chunkSize side).object = some ring →
      (duplex.task chunkSize side.other).object ≠ some ring) :
    after.task chunkSize side.other = duplex.task chunkSize side.other := by
  obtain ⟨mine, view, performs, ⟨endpoint, performed⟩, -, rings⟩ := Duplex.next_performs moved
  cases chosen : (duplex.endpoint side.other).action (chunkSize side.other) with
  | none => exact Duplex.task_finished moved chosen
  | some action =>
    rw [Duplex.task_kept moved chosen, Duplex.task_some chosen, rings]
    rw [Duplex.task_some performs, Duplex.task_some chosen] at apart
    simp only [Monitors.Task.object_under] at apart
    by_cases same : action.ring side.other = mine.ring side
    · rw [same] at apart ⊢
      rw [update_self]
      cases guarded : (action.task (duplex.ring (mine.ring side))).isGuarded with
      | false => rw [Action.task_unguarded guarded]
      | true =>
        -- The step was under no mutex, so it left the ring alone.
        have own : mine.task (duplex.ring (mine.ring side)) = .own := by
          cases mine with
          | «local» => rfl
          | outside => cases performed
          | write | read =>
            refine absurd ?_ (apart _ (if_pos rfl))
            rw [guarded]
            exact if_pos rfl
        rw [Action.perform_own own performed]
    · rw [update_of_ne same]

end

/-- The two rings of a pair as monitors. -/
def rings (chunkSize : Side → UInt32) : Monitors.System Side Side Duplex where
  task := Duplex.task chunkSize
  step := Duplex.next chunkSize
  enabled := Duplex.next_isSome chunkSize
  stable := fun _ _ _ moved => Duplex.next_stable moved
  apart := fun _ _ _ moved apart => Duplex.next_apart moved apart

/-- Two ends that have made no call, over rings whose mutexes are free. -/
def CondDuplex.start (segment : Side → SharedMemoryView) (bufSize : UInt32)
    (script : Side → List Call) : Monitors.Fine Side Side Duplex :=
  .start (Duplex.start segment bufSize script)

/-- What both ends have still to do, byte by byte. -/
def Duplex.Costs (bufSize : UInt32) (chunkSize : Side → UInt32) (messages : Side → List Bytes)
    (duplex : Duplex) (budget : Nat) : Prop :=
  ∃ net, duplex.Refines bufSize net ∧
    Net.Costs (Talking chunkSize messages) Endpoint.weight net budget

namespace CondDuplex

variable {bufSize : UInt32} {chunkSize : Side → UInt32} {messages : Side → List Bytes}
  {script : Side → List Call} {exchange : Exchange} {duplex after : Duplex}

theorem costs_lower (legal : ∀ side, LegalSize (chunkSize side)) (side : Side)
    (costs : duplex.Costs bufSize chunkSize messages budget)
    (moved : duplex.next chunkSize side = some after) :
    ∃ rest, rest < budget ∧ after.Costs bufSize chunkSize messages rest := by
  obtain ⟨net, refines, out, balanced, rfl⟩ := costs
  have step := refines.step balanced legal side
  rw [moved] at step
  generalize stepped : net.next bufSize.toNat (moves chunkSize) side = later at step
  cases step with
  | some refined =>
    obtain ⟨rest, lower, kept⟩ := Net.Costs.lowers (talking_follows legal) (talking_works legal)
      ⟨out, balanced, rfl⟩ (Net.next_moved stepped)
    exact ⟨rest, lower, _, refined, kept⟩

theorem costs_start (sized : Sized bufSize chunkSize) (segment : Side → SharedMemoryView)
    (short : ∀ side, ∀ body ∈ sent (script side), body.length ≤ 2 ^ 31) :
    ∃ budget, (Duplex.start segment bufSize script).Costs bufSize chunkSize (incoming script)
      budget := by
  obtain ⟨refines, out, balanced⟩ :
      Coupled bufSize chunkSize (incoming script) _ (startNet script) := sized.coupled segment short
  exact ⟨_, _, refines, out, balanced, rfl⟩

/-- Every state of a run has a budget for the instructions that are left. -/
theorem costs_reached (sized : Sized bufSize chunkSize) (segment : Side → SharedMemoryView)
    (short : ∀ side, ∀ body ∈ sent (script side), body.length ≤ 2 ^ 31)
    (path : Reaches (Monitors.Fine.next (rings chunkSize)) (start segment bufSize script) state) :
    ∃ budget, state.Costs (Duplex.Costs bufSize chunkSize (incoming script)) budget := by
  have initial := costs_start sized segment short
  have atomic : Reaches (Duplex.next chunkSize) (Duplex.start segment bufSize script) state.shared :=
    Monitors.Fine.reaches_atomic path
  have kept := atomic.invariant
    (fun duplex => ∃ budget, duplex.Costs bufSize chunkSize (incoming script) budget)
    initial ?_
  · obtain ⟨budget, costs⟩ := kept
    exact ⟨_, budget, costs, rfl⟩
  · rintro side before after ⟨budget, costs⟩ moved
    obtain ⟨rest, -, later⟩ := costs_lower sized.legal side costs moved
    exact ⟨rest, later⟩

theorem settle_lowers (sized : Sized bufSize chunkSize) (side : Side)
    (before after : Monitors.Fine Side Side Duplex) (budget : Nat)
    (costs : before.Costs (Duplex.Costs bufSize chunkSize messages) budget)
    (moved : before.settle (rings chunkSize) side = some after) :
    ∃ rest, rest < budget ∧ after.Costs (Duplex.Costs bufSize chunkSize messages) rest :=
  costs.lowers (fun side _ _ _ costs acted => costs_lower sized.legal side costs acted) moved

/-- A state in which nobody can move, all calls made and these messages received, and both ends
outside the monitors. -/
def Done (received : Side → List Bytes) (state : Monitors.Fine Side Side Duplex) : Prop :=
  state.shared.Done received ∧ ∀ side, state.pc side = .outside

/-- An end without calls is in no monitor. -/
theorem atRest_done (rest : state.AtRest (rings chunkSize)) (inv : state.Inv (rings chunkSize))
    (done : state.shared.Done received) : CondDuplex.Done received state := by
  refine ⟨done, fun side => (rest.place side).resolve_right ?_⟩
  rintro ⟨ring, asleep⟩
  obtain ⟨idle, script, -⟩ := done side
  have engaged := (inv side).engaged ring (by rw [asleep]; rfl)
  have finished : (rings chunkSize).task side state.shared = .finished := by
    show Duplex.task chunkSize side state.shared = .finished
    unfold Duplex.task Endpoint.action
    rw [idle, script]
  rw [finished] at engaged
  cases engaged

end CondDuplex

/-- No wake-up is lost: from every state, wake-ups nobody signalled included, the instructions
come to rest after a bounded number of them, in whatever order, and where they do no mutex is held
and no ring operation of either end can be made. -/
theorem cond_settles (segment : Side → SharedMemoryView) (bufSize : UInt32)
    (chunkSize : Side → UInt32) (script : Side → List Call)
    (state : Monitors.Fine Side Side Duplex) (sized : Sized bufSize chunkSize)
    (short : ∀ side, ∀ body ∈ sent (script side), body.length ≤ 2 ^ 31)
    (path : Reaches (Monitors.Fine.next (rings chunkSize)) (CondDuplex.start segment bufSize script)
      state) :
    (∃ bound, ∀ labels final, run (Monitors.Fine.settle (rings chunkSize)) labels state = some final →
      labels.length ≤ bound) ∧
    ∀ final, Reaches (Monitors.Fine.settle (rings chunkSize)) state final →
      Halted (Monitors.Fine.settle (rings chunkSize)) final →
      final.AtRest (rings chunkSize) ∧ Halted (Duplex.next chunkSize) final.shared := by
  obtain ⟨budget, costs⟩ := CondDuplex.costs_reached sized segment short path
  refine ⟨⟨budget, fun labels final ran => ?_⟩, fun final settled halted => ?_⟩
  · exact run_length_le_cost _ (CondDuplex.settle_lowers sized) costs labels ran
  · have inv := Monitors.Fine.reaches_inv (path.trans (Monitors.Fine.settle_reaches settled))
    exact ⟨inv.atRest halted, (inv.atRest halted).halted⟩

/-- The right end has found its ring empty and sleeps. -/
theorem cond_settles_asleep :
    ∃ state, state.pc .right = .asleep .left ∧
      ∀ final, Reaches (Monitors.Fine.settle (rings fun _ => 8)) state final →
        Halted (Monitors.Fine.settle (rings fun _ => 8)) final →
        final.AtRest (rings fun _ => 8) ∧ Halted (Duplex.next fun _ => 8) final.shared := by
  refine ⟨_, ?_, (cond_settles (fun _ => .zeroed) 8 (fun _ => 8)
    (sides [.send [1, 2, 3]] [.recv [9]]) _ Sized.eight
    (fun side => by cases side <;> simp [sides, sent])
    (Reaches.ofRun [.advance .right, .advance .right, .advance .right] rfl)).2⟩
  rfl

/-- Two scripts come to their end, whatever the ends have done so far and in whatever order they
go on, exactly if their whole calls do. -/
theorem cond_completes_iff (segment : Side → SharedMemoryView) (bufSize : UInt32)
    (chunkSize : Side → UInt32) (script : Side → List Call) (exchange : Exchange)
    (sized : Sized bufSize chunkSize) (fits : ∀ side, (chunkSize side).toNat ≤ bufSize.toNat)
    (short : ∀ side, ∀ body ∈ sent (script side), body.length ≤ 2 ^ 31)
    (path : Reaches (Exchange.next bufSize.toNat) (Exchange.start script) exchange)
    (stopped : Halted (Exchange.next bufSize.toNat) exchange) :
    (∀ state, Reaches (Monitors.Fine.next (rings chunkSize))
        (CondDuplex.start segment bufSize script) state →
      ∀ final, Reaches (Monitors.Fine.settle (rings chunkSize)) state final →
        Halted (Monitors.Fine.settle (rings chunkSize)) final →
        CondDuplex.Done exchange.received final) ↔
    exchange.Finished := by
  constructor
  · intro returns
    refine Classical.byContradiction fun unfinished => ?_
    have reached := Reaches.refl (Monitors.Fine.next (rings chunkSize))
      (CondDuplex.start segment bufSize script)
    obtain ⟨budget, costs⟩ := CondDuplex.costs_reached sized segment short reached
    obtain ⟨final, settled, halted⟩ := reaches_halted _ (CondDuplex.settle_lowers sized) costs
    have atomic := Monitors.Fine.reaches_atomic (Monitors.Fine.settle_reaches settled)
    have done := (returns _ reached final settled halted).1
    exact sized.stuck segment fits short path stopped unfinished final.shared done atomic
  · intro finished state reached final settled halted
    have whole := reached.trans (Monitors.Fine.settle_reaches settled)
    have inv := Monitors.Fine.reaches_inv whole
    have rest := inv.atRest halted
    obtain ⟨net, run, clean, -⟩ := sized.follows fits short path
    obtain ⟨last, more, done⟩ := sized.finishes segment short run clean finished final.shared
      (Monitors.Fine.reaches_atomic whole)
    rw [rest.halted.reaches_eq more] at done
    exact CondDuplex.atRest_done rest inv done

/-- Two ends that both send first: three bytes fit into segments of eight, five do not. -/
theorem cond_completes_three_not_five :
    (∀ final, Reaches (Monitors.Fine.settle (rings fun _ => 8)) (CondDuplex.start (fun _ => .zeroed) 8
        fun _ => [.send [1, 2, 3], .recv []]) final →
      Halted (Monitors.Fine.settle (rings fun _ => 8)) final →
      CondDuplex.Done (fun _ => [[1, 2, 3]]) final) ∧
    ¬ ∀ state, Reaches (Monitors.Fine.next (rings fun _ => 8)) (CondDuplex.start (fun _ => .zeroed) 8
        fun _ => [.send [1, 2, 3, 4, 5], .recv []]) state →
      ∀ final, Reaches (Monitors.Fine.settle (rings fun _ => 8)) state final →
        Halted (Monitors.Fine.settle (rings fun _ => 8)) final →
        CondDuplex.Done (fun _ => []) final := by
  constructor
  · exact (cond_completes_iff (fun _ => .zeroed) 8 (fun _ => 8) _ _ Sized.eight (fun _ => by decide)
      (fun side => by simp [sent]) (Reaches.ofRun _ Exchange.three_crosses)
      Exchange.three_stops).mpr (fun _ => rfl) _ (Reaches.refl _ _)
  · intro returns
    have finished := (cond_completes_iff (fun _ => .zeroed) 8 (fun _ => 8) _ _ Sized.eight
      (fun _ => by decide) (fun side => by cases side <;> simp [sent]) (Reaches.refl _ _)
      Exchange.five_stops).mp returns
    cases finished .left

end GaiaNet.Mem
