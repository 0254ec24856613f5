import GaiaNet.Pool.ThreadPool
import Mathlib.Algebra.BigOperators.Group.Finset.Basic
import Mathlib.Algebra.Order.Group.Multiset
import Mathlib.Data.Fintype.Basic
import Mathlib.Tactic.Abel

/-! Where the tasks of a pool are: in the queue, with a worker, or finished, over every
interleaving of `submit`, the workers and `shutdown`. -/

namespace GaiaNet.Pool

open Lib.Transition

/-- The worker has dequeued a task that it has not finished: it is about to run, or runs. -/
def WorkerPc.holds : WorkerPc → Bool
  | .unlocking true | .running => true
  | _ => false

namespace ThreadPool

variable {workers : Nat} {Submitter Task : Type}

/-- The task of a worker. What `func` keeps from an earlier round is none. -/
def held (pool : ThreadPool workers Submitter Task) (worker : Fin workers) : Multiset Task :=
  if (pool.worker worker).holds then ((pool.func worker).toList : Multiset Task) else 0

def heldTasks (pool : ThreadPool workers Submitter Task) : Multiset Task := ∑ worker, pool.held worker

/-- `submitted`: a task that has been enqueued is in one place, as often as it was enqueued. -/
structure Conserved (pool : ThreadPool workers Submitter Task) : Prop where
  submitted : (pool.enqueued : Multiset Task) = pool.queue + pool.heldTasks + pool.finished
  order : pool.enqueued = pool.dequeued ++ pool.queue
  engaged : ∀ worker, (pool.worker worker).holds = true → ∃ task, pool.func worker = some task

/-- A step that moves no task. -/
structure Quiet (before after : ThreadPool workers Submitter Task) : Prop where
  queue : after.queue = before.queue
  func : after.func = before.func
  enqueued : after.enqueued = before.enqueued
  dequeued : after.dequeued = before.dequeued
  finished : after.finished = before.finished
  holds : ∀ worker, (after.worker worker).holds = (before.worker worker).holds

theorem Quiet.conserved {before after : ThreadPool workers Submitter Task} (quiet : Quiet before after)
    (conserved : before.Conserved) : after.Conserved := by
  have held : after.heldTasks = before.heldTasks := by
    unfold heldTasks ThreadPool.held
    rw [quiet.func]
    simp only [quiet.holds]
  constructor
  · rw [quiet.enqueued, quiet.queue, quiet.finished, held]
    exact conserved.submitted
  · rw [quiet.enqueued, quiet.queue, quiet.dequeued]
    exact conserved.order
  · intro worker holding
    rw [quiet.func]
    exact conserved.engaged worker ((quiet.holds worker).symm.trans holding)

/-- A step of one worker changes the sum by what that worker holds. -/
theorem heldTasks_change (before after : ThreadPool workers Submitter Task) (worker : Fin workers)
    (others : ∀ other, other ≠ worker → after.held other = before.held other) :
    after.heldTasks + before.held worker = before.heldTasks + after.held worker := by
  have member := Finset.mem_univ worker
  have rest : ∑ other ∈ Finset.univ.erase worker, after.held other =
      ∑ other ∈ Finset.univ.erase worker, before.held other :=
    Finset.sum_congr rfl fun other inside => others other (Finset.ne_of_mem_erase inside)
  unfold heldTasks
  rw [← Finset.add_sum_erase _ _ member, ← Finset.add_sum_erase _ before.held member, rest,
    add_comm (after.held worker), add_comm (before.held worker), add_right_comm]

theorem Quiet.goto {worker : Fin workers} {pc : WorkerPc} {queueMutex : Option (QueueUser workers Submitter)}
    {conditionalMutex : Option (Locker workers)} {pool : ThreadPool workers Submitter Task}
    (same : pc.holds = (pool.worker worker).holds) :
    Quiet pool ({ pool with
      queueMutex := queueMutex
      conditionalMutex := conditionalMutex }.goto worker pc) := by
  refine ⟨rfl, rfl, rfl, rfl, rfl, fun other => ?_⟩
  by_cases here : other = worker
  · subst here
    simp [ThreadPool.goto, same]
  · simp [ThreadPool.goto, Function.update_of_ne here]

/-- What a step does to the tasks: nothing, or it moves one. -/
inductive Move (before : ThreadPool workers Submitter Task) :
    ThreadPool workers Submitter Task → Prop where
  | quiet (quiet : Quiet before after) : Move before after
  | enqueue {submitter : Submitter → SubmitPc Task} (task : Task) :
    Move before { before with
      queueMutex := none
      queue := before.queue ++ [task]
      enqueued := before.enqueued ++ [task]
      submitter := submitter }
  | dequeue {worker : Fin workers} {task : Task} {rest : List Task}
    (at_ : before.worker worker = .taking) (tasks : before.queue = task :: rest) :
    Move before (before.taken worker task rest)
  | finish {worker : Fin workers} (at_ : before.worker worker = .running) :
    Move before (before.ran worker)

theorem workerStep_move {worker : Fin workers} {pool after : ThreadPool workers Submitter Task}
    (moved : pool.workerStep worker = some after) : Move pool after := by
  cases workerStep_moves moved with
  | dequeue at_ tasks => exact .dequeue at_ tasks
  | finish at_ => exact .finish at_
  | leave at_ | enter at_ | lock at_ | look at_ | wait at_ | skip at_ | sleep at_ | relock at_
  | take at_ | miss at_ | run at_ | retry at_ => exact .quiet (Quiet.goto (at_ ▸ rfl))

theorem wake_quiet {worker : Fin workers} (pool : ThreadPool workers Submitter Task) :
    Quiet pool (pool.wake worker) := by
  unfold wake
  split
  · rename_i asleep
    exact Quiet.goto (asleep ▸ rfl)
  · exact ⟨rfl, rfl, rfl, rfl, rfl, fun _ => rfl⟩

theorem shutdownStep_quiet {pool after : ThreadPool workers Submitter Task}
    (moved : pool.shutdownStep = some after) : Quiet pool after := by
  cases shutdownStep_moves moved with
  | notify =>
    refine ⟨rfl, rfl, rfl, rfl, rfl, fun worker => ?_⟩
    simp only [notifyAll]
    split
    · rename_i asleep
      rw [asleep]
      rfl
    · rfl
  | call | lock | set | unlock | join | joined => exact ⟨rfl, rfl, rfl, rfl, rfl, fun _ => rfl⟩

theorem Conserved.enqueue {submitter : Submitter → SubmitPc Task} {pool : ThreadPool workers Submitter Task}
    (conserved : pool.Conserved) (task : Task) :
    Conserved { pool with
      queueMutex := none
      queue := pool.queue ++ [task]
      enqueued := pool.enqueued ++ [task]
      submitter := submitter } := by
  constructor
  · change ((pool.enqueued ++ [task] : List Task) : Multiset Task) =
      ((pool.queue ++ [task] : List Task) : Multiset Task) + pool.heldTasks + pool.finished
    rw [← Multiset.coe_add, ← Multiset.coe_add, conserved.submitted]
    abel
  · simp only [conserved.order, List.append_assoc]
  · exact conserved.engaged

theorem held_taken {worker : Fin workers} {task : Task} {rest : List Task}
    (pool : ThreadPool workers Submitter Task) : (pool.taken worker task rest).held worker = {task} := by
  simp [held, taken, WorkerPc.holds]

theorem held_taken_of_ne {worker other : Fin workers} {task : Task} {rest : List Task}
    {pool : ThreadPool workers Submitter Task} (apart : other ≠ worker) :
    (pool.taken worker task rest).held other = pool.held other := by
  simp [held, taken, apart, ThreadPool.goto]

/-- The task goes from the head of the queue to a worker that had none. -/
theorem Conserved.taken {worker : Fin workers} {task : Task} {rest : List Task}
    {pool : ThreadPool workers Submitter Task} (conserved : pool.Conserved)
    (at_ : pool.worker worker = .taking) (tasks : pool.queue = task :: rest) :
    (pool.taken worker task rest).Conserved := by
  have idle : pool.held worker = 0 := by
    unfold held
    rw [at_]
    rfl
  have change := heldTasks_change pool (pool.taken worker task rest) worker fun _ => held_taken_of_ne
  rw [idle, held_taken, add_zero] at change
  constructor
  · change (pool.enqueued : Multiset Task) = rest + (pool.taken worker task rest).heldTasks + pool.finished
    rw [conserved.submitted, tasks, change, ← Multiset.cons_coe, ← Multiset.singleton_add]
    abel
  · change pool.enqueued = pool.dequeued ++ [task] ++ rest
    rw [conserved.order, tasks, List.append_assoc]
    rfl
  · intro other holding
    by_cases same : other = worker
    · subst same
      exact ⟨task, Function.update_self ..⟩
    · have old : (pool.worker other).holds = true := by simpa [ThreadPool.taken, same] using holding
      obtain ⟨func, found⟩ := conserved.engaged other old
      exact ⟨func, (Function.update_of_ne same ..).trans found⟩

theorem held_ran (worker : Fin workers) (pool : ThreadPool workers Submitter Task) :
    (pool.ran worker).held worker = 0 := by
  simp [held, ran, WorkerPc.holds]

theorem held_ran_of_ne {worker other : Fin workers} {pool : ThreadPool workers Submitter Task}
    (apart : other ≠ worker) : (pool.ran worker).held other = pool.held other := by
  simp [held, ran, apart, ThreadPool.goto]

/-- The task of a worker goes to the finished ones. -/
theorem Conserved.ran {worker : Fin workers} {pool : ThreadPool workers Submitter Task}
    (conserved : pool.Conserved) (at_ : pool.worker worker = .running) :
    (pool.ran worker).Conserved := by
  have busy : pool.held worker = ((pool.func worker).toList : Multiset Task) := by
    unfold held
    rw [at_]
    rfl
  have change := heldTasks_change pool (pool.ran worker) worker fun _ => held_ran_of_ne
  rw [busy, held_ran, add_zero] at change
  constructor
  · change (pool.enqueued : Multiset Task) = pool.queue + (pool.ran worker).heldTasks +
      ((pool.finished ++ (pool.func worker).toList : List Task) : Multiset Task)
    rw [conserved.submitted, ← change, ← Multiset.coe_add]
    abel
  · exact conserved.order
  · intro other holding
    by_cases same : other = worker
    · subst same
      simp [ThreadPool.ran, WorkerPc.holds] at holding
    · exact conserved.engaged other (by simpa [ThreadPool.ran, same] using holding)

theorem Move.conserved {before after : ThreadPool workers Submitter Task} (move : Move before after)
    (conserved : before.Conserved) : after.Conserved := by
  cases move with
  | quiet quiet => exact quiet.conserved conserved
  | enqueue task => exact conserved.enqueue task
  | dequeue at_ tasks => exact conserved.taken at_ tasks
  | finish at_ => exact conserved.ran at_

theorem start_conserved : (start : ThreadPool workers Submitter Task).Conserved := by
  constructor
  · simp [start, heldTasks, held, WorkerPc.holds]
  · rfl
  · exact fun _ holding => nomatch holding

variable [DecidableEq Submitter]

theorem work_move {label : Work workers Submitter Task}
    {pool after : ThreadPool workers Submitter Task} (moved : pool.work label = some after) :
    Move pool after := by
  cases work_moves moved with
  | worker moved => exact workerStep_move moved
  | spurious asleep => exact .quiet pool.wake_quiet
  | submit | lock | unheard => exact .quiet ⟨rfl, rfl, rfl, rfl, rfl, fun _ => rfl⟩
  | @enqueue _ task _ at_ => exact .enqueue task
  | @notify _ worker _ asleep =>
    obtain ⟨queue, func, enqueued, dequeued, finished, holds⟩ : Quiet pool (pool.wake worker) :=
      pool.wake_quiet
    exact .quiet ⟨queue, func, enqueued, dequeued, finished, holds⟩

theorem next_move {label : PoolLabel workers Submitter Task}
    {pool after : ThreadPool workers Submitter Task} (moved : pool.next label = some after) :
    Move pool after := by
  cases label with
  | work label => exact work_move moved
  | shutdown => exact .quiet (shutdownStep_quiet moved)

/-- Every task is in one place, so that it runs at most once, and the tasks leave the queue in
the order in which they entered it. -/
theorem tasks_conserved {pool : ThreadPool workers Submitter Task}
    (path : Reaches next (start : ThreadPool workers Submitter Task) pool) :
    pool.Conserved ∧ (pool.finished : Multiset Task) + pool.heldTasks ≤ pool.enqueued := by
  have conserved := path.invariant Conserved start_conserved fun _ _ _ conserved moved =>
    (next_move moved).conserved conserved
  refine ⟨conserved, ?_⟩
  rw [conserved.submitted, add_assoc, add_comm (pool.finished : Multiset Task)]
  exact Multiset.le_add_left _ _

/-- Two tasks are submitted; one worker has finished the first, another runs the second. -/
def shared (first second : Fin workers) : List (PoolLabel workers Bool String) :=
  [[.work (.submit false "first")], List.replicate 3 (.work (.submitter false none)),
    [.work (.submit true "second")], List.replicate 3 (.work (.submitter true none)),
    List.replicate 8 (.work (.worker first)), List.replicate 7 (.work (.worker second))].flatten

theorem tasks_conserved_shared :
    ∃ pool : ThreadPool 2 Bool String, pool.finished = ["first"] ∧ pool.worker 1 = .running ∧
      pool.Conserved ∧ (pool.finished : Multiset String) + pool.heldTasks ≤ pool.enqueued := by
  have ran : (run next (shared 0 1) (start : ThreadPool 2 Bool String)).map
      (fun pool => (pool.finished, pool.worker 1)) = some (["first"], .running) := by
    decide +kernel
  obtain ⟨pool, finished, same⟩ := Option.map_eq_some_iff.mp ran
  exact ⟨pool, (Prod.mk.inj same).1, (Prod.mk.inj same).2, tasks_conserved (Reaches.ofRun _ finished)⟩

end ThreadPool

end GaiaNet.Pool
