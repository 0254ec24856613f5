import GaiaNet.Pool.Rest
import GaiaNet.Pool.WakeUp

/-! Whether a pool without `shutdown` runs all its tasks. A wake-up can only be lost while all
other workers are gone to sleep; with a second worker there is always one that looks again. -/

namespace GaiaNet.Pool

open Lib.Potential Lib.Transition

/-- The task that a `submit` has still to enqueue. -/
def SubmitPc.pending {Task : Type} : SubmitPc Task → Multiset Task
  | .locking task | .enqueuing task => {task}
  | .outside | .notifying => 0

namespace ThreadPool

variable {workers : Nat} {Submitter Task : Type}

def pending [Fintype Submitter] (pool : ThreadPool workers Submitter Task) : Multiset Task :=
  ∑ submitter, (pool.submitter submitter).pending

/-- A pool in service that watches its queue has run all tasks when it comes to rest. -/
theorem AtRest.drained {pool : ThreadPool workers Submitter Task} (atRest : pool.AtRest)
    (service : pool.InService) (watched : pool.Watched) : pool.queue = [] := by
  by_contra tasks
  rcases watched tasks with ⟨worker, watches⟩ | ⟨submitter, running⟩
  · rcases atRest.resting worker with at_ | at_
    · rw [at_] at watches
      cases watches
    · exact service.none worker at_
  · exact running (atRest.submitters submitter)

theorem AtRest.finished {pool : ThreadPool workers Submitter Task} (atRest : pool.AtRest)
    (empty : pool.queue = []) : (pool.enqueued : Multiset Task) = pool.finished := by
  rw [atRest.tasks, empty]
  exact zero_add _

theorem pending_quiet [Fintype Submitter] {pool : ThreadPool workers Submitter Task}
    (quiet : ∀ submitter, pool.submitter submitter = .outside) : pool.pending = 0 := by
  apply Finset.sum_eq_zero
  intro submitter _
  rw [quiet submitter]
  rfl

variable [DecidableEq Submitter]

theorem service_of_work {pool : ThreadPool workers Submitter Task}
    (path : Reaches work (start : ThreadPool workers Submitter Task) pool) : pool.InService :=
  path.invariant InService ⟨rfl, rfl, nofun⟩ fun _ _ _ service moved => service.step moved

theorem next_of_work {pool after : ThreadPool workers Submitter Task}
    (path : Reaches work pool after) : Reaches next pool after := by
  induction path with
  | refl => exact Reaches.refl next pool
  | tail _ moved ih =>
    obtain ⟨label, moved⟩ := moved
    exact ih.step (show next (.work label) _ = _ from moved)

theorem InService.settle {label : PoolLabel workers Submitter Task}
    {pool after : ThreadPool workers Submitter Task} (service : pool.InService)
    (moved : pool.settle label = some after) : ∃ work, pool.work work = some after := by
  cases label with
  | shutdown => simp [ThreadPool.settle, service.shutdown] at moved
  | work work => exact ⟨work, settle_next moved⟩

/-- A pool in service stays so when it is left alone. -/
theorem InService.reaches {pool final : ThreadPool workers Submitter Task}
    (service : pool.InService) (rest : Reaches ThreadPool.settle pool final) :
    Reaches work pool final := by
  have both : final.InService ∧ Reaches work pool final := by
    apply rest.invariant (fun state => state.InService ∧ Reaches work pool state)
    · exact ⟨service, Reaches.refl work pool⟩
    · rintro label before after ⟨service, path⟩ moved
      obtain ⟨work, stepped⟩ := service.settle moved
      exact ⟨service.step stepped, path.step stepped⟩
  exact both.2

section

variable [Fintype Submitter] {pool after final : ThreadPool workers Submitter Task}

theorem pending_gotoSubmit {submitter : Submitter} {before : SubmitPc Task}
    (at_ : pool.submitter submitter = before) (pc : SubmitPc Task) :
    ∑ other, (Function.update pool.submitter submitter pc other).pending + before.pending =
      pool.pending + pc.pending := by
  rw [← at_]
  exact sum_update SubmitPc.pending pool.submitter submitter pc

/-- A running `submit` enqueues its task. -/
theorem pending_submitStep {submitter : Submitter} {wakes : Option (Fin workers)}
    (moved : pool.submitStep submitter wakes = some after) :
    (after.enqueued : Multiset Task) + after.pending = pool.enqueued + pool.pending := by
  cases submitStep_moves moved with
  | @lock task at_ free =>
    have goes := pending_gotoSubmit at_ (.enqueuing task)
    exact congrArg _ (add_right_cancel goes)
  | @enqueue task at_ =>
    have goes := pending_gotoSubmit at_ .notifying
    change ((pool.enqueued ++ [task] : List Task) : Multiset Task) +
      ∑ other, (Function.update pool.submitter submitter .notifying other).pending = _
    change _ + ({task} : Multiset Task) = _ + 0 at goes
    rw [add_zero] at goes
    rw [← Multiset.coe_add, ← goes, Multiset.coe_singleton]
    abel
  | @notify worker at_ asleep =>
    have goes := pending_gotoSubmit at_ .outside
    have same : pool.wake worker = pool.goto worker .woken := if_pos asleep
    rw [same]
    exact congrArg _ (add_right_cancel goes)
  | unheard at_ awake =>
    have goes := pending_gotoSubmit at_ .outside
    exact congrArg _ (add_right_cancel goes)

theorem pending_settle {label : PoolLabel workers Submitter Task}
    (moved : pool.settle label = some after) :
    (after.enqueued : Multiset Task) + after.pending = pool.enqueued + pool.pending := by
  cases label with
  | shutdown =>
    simp only [ThreadPool.settle, Option.ite_none_left_eq_some] at moved
    cases shutdownStep_moves moved.2 <;> rfl
  | work work =>
    cases work with
    | worker worker => cases workerStep_moves moved <;> rfl
    | submitter submitter wakes => exact pending_submitStep moved
    | spurious worker => cases moved
    | submit submitter task => cases moved

theorem pending_reaches (rest : Reaches ThreadPool.settle pool final) :
    (final.enqueued : Multiset Task) + final.pending = pool.enqueued + pool.pending := by
  apply rest.invariant fun state =>
    (state.enqueued : Multiset Task) + state.pending = pool.enqueued + pool.pending
  · rfl
  · exact fun _ _ _ same moved => (pending_settle moved).trans same

end

/-- With two workers or more no wake-up is lost: in whatever order the threads go on, every
submitted task has been run when they come to rest, also those of `submit`s still running. -/
theorem pool_drains [Fintype Submitter] (pool : ThreadPool workers Submitter Task)
    (several : 2 ≤ workers)
    (path : Reaches work (start : ThreadPool workers Submitter Task) pool) :
    ∀ final, Reaches settle pool final → Halted settle final →
      final.queue = [] ∧ (final.finished : Multiset Task) = pool.enqueued + pool.pending := by
  intro final rest halted
  have whole := path.trans ((service_of_work path).reaches rest)
  have kept : final.InService ∧ final.Locked ∧ final.Watched := by
    apply whole.invariant fun state => state.InService ∧ state.Locked ∧ state.Watched
    · exact ⟨⟨rfl, rfl, nofun⟩, Locked.start, fun tasks => absurd rfl tasks⟩
    · rintro label before after ⟨service, locked, watched⟩ moved
      exact ⟨service.step moved, locked.work moved, watched.step service locked several moved⟩
  obtain ⟨service, -, watched⟩ := kept
  have atRest := halted_atRest halted (reaches_orderly (next_of_work whole))
  have empty := atRest.drained service watched
  refine ⟨empty, ?_⟩
  rw [← atRest.finished empty, ← pending_reaches rest, pending_quiet atRest.submitters,
    add_zero]

/-- The second worker runs the task that the first has missed. -/
theorem pool_drains_two :
    ∃ pool : ThreadPool 2 Unit String, Reaches work start pool ∧ pool.worker 0 = .asleep ∧
      pool.queue = ["task"] ∧ ∀ final, Reaches settle pool final → Halted settle final →
        final.queue = [] ∧ (final.finished : Multiset String) = {"task"} := by
  have ran : (run work (overtaken 0) (start : ThreadPool 2 Unit String)).map
      (fun pool => (pool.worker 0, pool.queue, pool.enqueued, pool.submitter ())) =
      some (.asleep, ["task"], ["task"], .outside) := by
    decide +kernel
  obtain ⟨pool, finished, seen⟩ := Option.map_eq_some_iff.mp ran
  simp only [Prod.mk.injEq] at seen
  obtain ⟨asleep, queue, enqueued, quiet⟩ := seen
  have path := Reaches.ofRun _ finished
  have drains := pool_drains pool (by decide) path
  rw [enqueued, pending_quiet fun _ => quiet] at drains
  exact ⟨pool, path, asleep, queue, drains⟩

/-- Where no `submit` is running only the workers go on. -/
theorem quiet_settle {label : PoolLabel workers Submitter Task}
    {pool after : ThreadPool workers Submitter Task} (service : pool.InService)
    (quiet : ∀ submitter, pool.submitter submitter = .outside)
    (moved : pool.settle label = some after) :
    ∃ worker, pool.workerStep worker = some after ∧ after.submitter = pool.submitter := by
  cases label with
  | shutdown => simp [ThreadPool.settle, service.shutdown] at moved
  | work work =>
    cases work with
    | worker worker =>
      obtain ⟨pc, -, -, -, -, submits⟩ := workerStep_follows moved
      exact ⟨worker, moved, submits⟩
    | submitter submitter wakes => simp [ThreadPool.settle, submitStep, quiet] at moved
    | spurious worker => cases moved
    | submit submitter task => cases moved

/-- Nobody looks at the queue any more. -/
structure Blind (queue : List Task) (pool : ThreadPool workers Submitter Task) : Prop where
  service : pool.InService
  quiet : ∀ submitter, pool.submitter submitter = .outside
  queue : pool.queue = queue
  blind : ∀ worker, (pool.worker worker).watches = false

theorem Blind.settle {queue : List Task} {label : PoolLabel workers Submitter Task}
    {pool after : ThreadPool workers Submitter Task} (blind : pool.Blind queue)
    (moved : pool.settle label = some after) : after.Blind queue := by
  obtain ⟨work, worked⟩ := blind.service.settle moved
  obtain ⟨worker, stepped, submits⟩ := quiet_settle blind.service blind.quiet moved
  have closed := blind.blind worker
  refine ⟨blind.service.step worked, fun submitter => by rw [submits, blind.quiet], ?_, ?_⟩
  · rw [← blind.queue]
    cases workerStep_moves stepped with
    | dequeue at_ =>
      rw [at_] at closed
      cases closed
    | leave | enter | lock | look | wait | skip | sleep | relock | take | miss | run | retry
    | finish => rfl
  · intro other
    obtain ⟨pc, follows, whole, -⟩ := workerStep_follows stepped
    rw [whole]
    by_cases same : other = worker
    · subst same
      rw [Function.update_self]
      generalize pool.worker other = before at follows closed
      cases follows with
      | sleep => rfl
      | leave | enter | lock | look | wait | skip | relock | take | unlock | run | retry | again =>
        cases closed
    · rw [Function.update_of_ne same]
      exact blind.blind other

/-- Where no `submit` is running, any number of workers run all tasks, in every order of their
steps, exactly if the queue is empty or one of them looks at it again before it sleeps. -/
theorem pool_drains_iff [Fintype Submitter] (pool : ThreadPool workers Submitter Task)
    (path : Reaches work (start : ThreadPool workers Submitter Task) pool)
    (quiet : ∀ submitter, pool.submitter submitter = .outside) :
    (∀ final, Reaches settle pool final → Halted settle final →
      (final.finished : Multiset Task) = pool.enqueued) ↔
    (pool.queue = [] ∨ ∃ worker, (pool.worker worker).watches = true) := by
  have service := service_of_work path
  have orderly := reaches_orderly (next_of_work path)
  constructor
  · intro all
    by_contra lost
    obtain ⟨tasks, closed⟩ := not_or.mp lost
    have blind : pool.Blind pool.queue :=
      ⟨service, quiet, rfl, fun worker => by simpa using not_exists.mp closed worker⟩
    obtain ⟨final, rest, halted⟩ := orderly.settles
    have atRest := halted_atRest halted
      (reaches_orderly (next_of_work (path.trans (service.reaches rest))))
    have kept := rest.invariant (Blind pool.queue) blind fun _ _ _ blind moved => blind.settle moved
    have same := pending_reaches rest
    rw [pending_quiet kept.quiet, pending_quiet quiet, add_zero, add_zero, atRest.tasks,
      all final rest halted, kept.queue] at same
    exact tasks ((Multiset.coe_eq_zero _).mp (add_eq_right.mp same))
  · intro watches final rest halted
    have kept := rest.invariant
      (fun state => state.InService ∧ state.Watched ∧ ∀ submitter, state.submitter submitter = .outside)
      ⟨service, fun tasks => Or.inl (watches.resolve_left tasks), quiet⟩ ?_
    · obtain ⟨served, watched, still⟩ := kept
      have atRest := halted_atRest halted
        (reaches_orderly (next_of_work (path.trans (service.reaches rest))))
      have same := pending_reaches rest
      rw [pending_quiet still, pending_quiet quiet, add_zero, add_zero] at same
      rw [← same]
      exact (atRest.finished (atRest.drained served watched)).symm
    · rintro label before after ⟨service, watched, still⟩ moved
      obtain ⟨work, worked⟩ := service.settle moved
      obtain ⟨worker, stepped, submits⟩ := quiet_settle service still moved
      refine ⟨service.step worked, watched.workerStep service stepped, fun submitter => ?_⟩
      rw [submits]
      exact still submitter

/-- A worker that has missed a task does not run it when it is the only one. -/
theorem pool_drains_iff_one :
    ∃ pool : ThreadPool 1 Unit String, Reaches work start pool ∧ pool.queue = ["task"] ∧
      ¬ ∀ final, Reaches settle pool final → Halted settle final →
        (final.finished : Multiset String) = pool.enqueued := by
  have ran : (run work (overtaken 0) (start : ThreadPool 1 Unit String)).map
      (fun pool => (pool.worker 0, pool.queue, pool.submitter ())) =
      some (.asleep, ["task"], .outside) := by
    decide +kernel
  obtain ⟨pool, finished, seen⟩ := Option.map_eq_some_iff.mp ran
  simp only [Prod.mk.injEq] at seen
  obtain ⟨asleep, queue, quiet⟩ := seen
  have path := Reaches.ofRun _ finished
  refine ⟨pool, path, queue, fun all => ?_⟩
  rcases (pool_drains_iff pool path fun _ => quiet).mp all with empty | ⟨worker, watches⟩
  · rw [queue] at empty
    cases empty
  · rw [Subsingleton.elim worker 0, asleep] at watches
    cases watches

end ThreadPool

end GaiaNet.Pool
