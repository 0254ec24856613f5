import GaiaNet.Lib.Potential
import GaiaNet.Pool.Conservation
import GaiaNet.Pool.Locks
import Mathlib.Algebra.Group.Action.Defs
import Mathlib.Algebra.Order.BigOperators.Group.Finset
import Mathlib.Data.Fintype.Card

/-! A pool that is left alone: the steps of the workers, of running `submit`s and of a running
`shutdown`. They come to an end, and what they leave behind. -/

namespace GaiaNet.Pool

open Lib.Mutex Lib.Potential Lib.Transition

/-- The steps a worker has before it sleeps; one that knows of a task has fewer before it
takes it. -/
def WorkerPc.rank (empty : Bool) : WorkerPc → Nat
  | .asleep | .exited => 0
  | .waits => 1
  | .taking => if empty then 15 else 8
  | .dequeuing => if empty then 16 else 9
  | .looking => 10
  | .emptying => 11
  | .locking => 12
  | .testing => 13
  | .running | .unlocking false => 14
  | .unlocking true => 15
  | .woken => 17

/-- A `submit` adds a task and wakes a worker. -/
def SubmitPc.rank {Task : Type} : SubmitPc Task → Nat
  | .outside => 0
  | .notifying => 18
  | .enqueuing _ => 27
  | .locking _ => 28

/-- `notify_all` wakes every worker. -/
def ShutdownPc.rank (workers : Nat) : ShutdownPc → Nat
  | .outside | .returned => 0
  | .joining worker => workers - worker + 1
  | .notifying => 18 * workers + 2
  | .unlocking => 18 * workers + 3
  | .setting => 18 * workers + 4
  | .locking => 18 * workers + 5

theorem WorkerPc.rank_le (pc : WorkerPc) (empty : Bool) : pc.rank false ≤ pc.rank empty := by
  cases pc with
  | taking | dequeuing => cases empty <;> decide
  | testing | locking | emptying | looking | waits | asleep | woken | running | exited => rfl
  | unlocking dequeued => cases dequeued <;> rfl

/-- Outside the mutex a worker knows of no task. -/
theorem WorkerPc.rank_eq {pc : WorkerPc} (outside : pc.locked = false) (empty : Bool) :
    pc.rank empty = pc.rank false := by
  cases pc with
  | taking | dequeuing => cases outside
  | testing | locking | emptying | looking | waits | asleep | woken | running | exited => rfl
  | unlocking dequeued => cases dequeued <;> rfl

namespace ThreadPool

variable {workers : Nat} {Submitter Task : Type}

def ranks (pool : ThreadPool workers Submitter Task) : Nat :=
  ∑ worker, (pool.worker worker).rank pool.queue.isEmpty

def submitRanks [Fintype Submitter] (pcs : Submitter → SubmitPc Task) : Nat :=
  ∑ submitter, (pcs submitter).rank

def potential [Fintype Submitter] (pool : ThreadPool workers Submitter Task) : Nat :=
  8 * pool.queue.length + submitRanks pool.submitter + pool.ranks + pool.shutdown.rank workers

/-- Neither mutex is left locked. -/
structure Attained (pool : ThreadPool workers Submitter Task) : Prop where
  conditional : Tended pool.conditionalMutex pool.InLock
  queue : Tended pool.queueMutex pool.AtQueue

theorem ranks_goto (worker : Fin workers) (pc : WorkerPc) (pool : ThreadPool workers Submitter Task) :
    (pool.goto worker pc).ranks + (pool.worker worker).rank pool.queue.isEmpty =
      pool.ranks + pc.rank pool.queue.isEmpty :=
  sum_update (WorkerPc.rank pool.queue.isEmpty) pool.worker worker pc

/-- A step of a worker that moves no task out of the queue. -/
theorem lowers_goto [Fintype Submitter] {worker : Fin workers} {before pc : WorkerPc}
    {queueMutex : Option (QueueUser workers Submitter)} {conditionalMutex : Option (Locker workers)}
    {finished : List Task} {pool : ThreadPool workers Submitter Task}
    (at_ : pool.worker worker = before)
    (less : pc.rank pool.queue.isEmpty < before.rank pool.queue.isEmpty) :
    ({ pool with
      queueMutex := queueMutex
      conditionalMutex := conditionalMutex
      finished := finished }.goto worker pc).potential < pool.potential := by
  have moved := ranks_goto worker pc pool
  rw [at_] at moved
  change 8 * pool.queue.length + submitRanks pool.submitter + (pool.goto worker pc).ranks +
    pool.shutdown.rank workers < pool.potential
  unfold potential
  omega

/-- A worker that goes on to `dequeue` has seen a task. -/
theorem skip_tasks {worker : Fin workers} {pool : ThreadPool workers Submitter Task}
    (at_ : pool.worker worker = .looking)
    (moved : pool.workerStep worker =
      some ({ pool with queueMutex := none }.goto worker .dequeuing)) : pool.queue ≠ [] := by
  intro empty
  simp only [workerStep, at_, empty, if_true, Option.some.injEq] at moved
  have same := congrFun (congrArg ThreadPool.worker moved) worker
  simp at same

/-- `dequeue` fails on an empty queue only. -/
theorem miss_empty {worker : Fin workers} {pool : ThreadPool workers Submitter Task}
    (at_ : pool.worker worker = .taking)
    (moved : pool.workerStep worker =
      some ({ pool with queueMutex := none }.goto worker (.unlocking false))) : pool.queue = [] := by
  simp only [workerStep, at_, dequeue, Option.some.injEq] at moved
  split at moved
  · rename_i empty
    exact empty
  · have same := congrFun (congrArg ThreadPool.worker moved) worker
    simp at same

/-- The task that leaves the queue pays for the loop that follows. -/
theorem lowers_taken [Fintype Submitter] {worker : Fin workers} {task : Task} {rest : List Task}
    {pool : ThreadPool workers Submitter Task} (locked : pool.Locked)
    (at_ : pool.worker worker = .taking) (tasks : pool.queue = task :: rest) :
    (pool.taken worker task rest).potential < pool.potential := by
  have moved := ranks_goto worker (.unlocking true) pool
  have same : (pool.taken worker task rest).ranks = (pool.goto worker (.unlocking true)).ranks := by
    apply Finset.sum_congr rfl
    intro other _
    change (Function.update pool.worker worker (.unlocking true) other).rank rest.isEmpty =
      (Function.update pool.worker worker (.unlocking true) other).rank pool.queue.isEmpty
    rw [tasks, List.isEmpty_cons]
    by_cases self : other = worker
    · subst self
      rw [Function.update_self]
      rfl
    · rw [Function.update_of_ne self]
      apply WorkerPc.rank_eq
      -- The mutex keeps the others away from the queue.
      rw [Bool.eq_false_iff]
      intro inside
      have here : pool.InLock (.worker worker) := inLock_worker at_ rfl
      have there : pool.InLock (.worker other) := inside
      exact self (Locker.worker.inj (locked.conditional.alone there here))
  rw [at_, tasks] at moved
  change 8 * rest.length + submitRanks pool.submitter + (pool.taken worker task rest).ranks +
    pool.shutdown.rank workers < pool.potential
  simp only [potential, tasks, same, List.length_cons]
  simp only [WorkerPc.rank, List.isEmpty_cons, Bool.false_eq_true, if_false] at moved
  omega

theorem lowers_workerStep [Fintype Submitter] {worker : Fin workers}
    {pool after : ThreadPool workers Submitter Task} (locked : pool.Locked)
    (moved : pool.workerStep worker = some after) : after.potential < pool.potential := by
  cases workerStep_moves moved with
  | leave at_ | enter at_ | lock at_ | look at_ | wait at_ | sleep at_ | run at_ | retry at_
  | finish at_ => exact lowers_goto at_ (by simp only [WorkerPc.rank]; omega)
  | relock at_ | take at_ => exact lowers_goto at_ (by simp only [WorkerPc.rank]; split <;> omega)
  | skip at_ =>
    have tasks := skip_tasks at_ moved
    rw [← List.isEmpty_eq_false_iff] at tasks
    exact lowers_goto at_ (by rw [tasks]; decide)
  | miss at_ =>
    have empty := miss_empty at_ moved
    exact lowers_goto at_ (by rw [empty, List.isEmpty_nil]; decide)
  | dequeue at_ tasks => exact lowers_taken locked at_ tasks

theorem ranks_notifyAll (pool : ThreadPool workers Submitter Task) :
    pool.notifyAll.ranks ≤ pool.ranks + 17 * workers := by
  have each (worker : Fin workers) : (pool.notifyAll.worker worker).rank pool.queue.isEmpty ≤
      (pool.worker worker).rank pool.queue.isEmpty + 17 := by
    simp only [notifyAll]
    split
    · exact Nat.le_add_left _ _
    · exact Nat.le_add_right _ _
  calc pool.notifyAll.ranks
      ≤ ∑ worker, ((pool.worker worker).rank pool.queue.isEmpty + 17) :=
        Finset.sum_le_sum fun worker _ => each worker
    _ = pool.ranks + 17 * workers := by
        rw [Finset.sum_add_distrib, Finset.sum_const, Finset.card_univ, Fintype.card_fin,
          smul_eq_mul, Nat.mul_comm]
        rfl

theorem lowers_shutdownStep [Fintype Submitter] {pool after : ThreadPool workers Submitter Task}
    (called : pool.shutdown ≠ .outside) (moved : pool.shutdownStep = some after) :
    after.potential < pool.potential := by
  have only {pc : ShutdownPc} (less : pc.rank workers < pool.shutdown.rank workers) :
      8 * pool.queue.length + submitRanks pool.submitter + pool.ranks + pc.rank workers <
        pool.potential := Nat.add_lt_add_left less _
  unfold shutdownStep at moved
  split at moved
  case h_1 outside => exact absurd outside called
  case h_2 at_ =>
    obtain ⟨locked, took, rfl⟩ := Option.map_eq_some_iff.mp moved
    obtain ⟨-, rfl⟩ := lockConditional_eq took
    exact only (by rw [at_]; simp [ShutdownPc.rank])
  case h_3 at_ =>
    cases moved
    exact only (by rw [at_]; simp [ShutdownPc.rank])
  case h_4 at_ =>
    cases moved
    exact only (by rw [at_]; simp [ShutdownPc.rank])
  case h_5 at_ =>
    cases moved
    have woken := pool.ranks_notifyAll
    change 8 * pool.queue.length + submitRanks pool.submitter + pool.notifyAll.ranks +
      (workers - 0 + 1) < pool.potential
    simp only [potential, at_, ShutdownPc.rank]
    omega
  case h_6 i at_ =>
    split at moved
    · split at moved
      · cases moved
        exact only (by rw [at_]; simp only [ShutdownPc.rank]; omega)
      · cases moved
    · cases moved
      exact only (by rw [at_]; simp only [ShutdownPc.rank]; omega)
  case h_7 => cases moved

theorem Attained.shutdown (pool : ThreadPool workers Submitter Task) (pc : ShutdownPc)
    (conditional : Tended pool.conditionalMutex
      (Function.update pool.InLock .shutdown (pc = .setting ∨ pc = .unlocking)))
    (queue : Tended pool.queueMutex pool.AtQueue) : Attained { pool with shutdown := pc } := by
  constructor
  · rw [inLock_shutdown]
    exact conditional
  · exact queue

/-- A worker asleep is at neither mutex, and so it is when it is woken. -/
theorem Attained.notifyAll {pool : ThreadPool workers Submitter Task} (attained : pool.Attained) :
    pool.notifyAll.Attained := by
  have awake {worker : Fin workers} (away : pool.worker worker ≠ .asleep) :
      pool.notifyAll.worker worker = pool.worker worker := if_neg away
  constructor
  · intro user owns
    have inside := attained.conditional user owns
    cases user with
    | shutdown => exact inside
    | worker worker =>
      have away : pool.worker worker ≠ .asleep := fun asleep => by
        rw [InLock, asleep] at inside
        cases inside
      exact (congrArg WorkerPc.locked (awake away)).trans inside
  · intro user owns
    have inside := attained.queue user owns
    cases user with
    | submitter submitter => exact inside
    | worker worker =>
      have away : pool.worker worker ≠ .asleep := fun asleep => by
        rw [AtQueue, asleep] at inside
        cases inside
      exact (congrArg WorkerPc.atQueue (awake away)).trans inside

theorem Attained.shutdownStep {pool after : ThreadPool workers Submitter Task}
    (attained : pool.Attained) (moved : pool.shutdownStep = some after) : after.Attained := by
  have outside (base : ThreadPool workers Submitter Task) (kept : base.Attained) (pc : ShutdownPc)
      (away : ¬ (base.shutdown = .setting ∨ base.shutdown = .unlocking)) :
      Attained { base with shutdown := pc } :=
    Attained.shutdown base pc (kept.conditional.stay fun inside => absurd inside away) kept.queue
  cases shutdownStep_moves moved with
  | call at_ | join at_ | joined at_ => exact outside pool attained _ (by simp [at_])
  | lock free =>
    exact Attained.shutdown { pool with conditionalMutex := some .shutdown } _
      (Tended.lock _ (Or.inl rfl)) attained.queue
  | set at_ =>
    exact Attained.shutdown { pool with shutdownFlag := true } _
      (attained.conditional.stay fun _ => Or.inr rfl) attained.queue
  | unlock at_ =>
    exact Attained.shutdown { pool with conditionalMutex := none } _ (Tended.free _) attained.queue
  | notify at_ =>
    exact outside pool.notifyAll attained.notifyAll _ (by simp [ThreadPool.notifyAll, at_])

theorem Attained.start : (start : ThreadPool workers Submitter Task).Attained :=
  ⟨Tended.free _, Tended.free _⟩

variable [DecidableEq Submitter]

theorem Attained.goto {worker : Fin workers} {pc : WorkerPc} {pool : ThreadPool workers Submitter Task}
    (conditional : Tended pool.conditionalMutex
      (Function.update pool.InLock (.worker worker) (pc.locked = true)))
    (queue : Tended pool.queueMutex
      (Function.update pool.AtQueue (.worker worker) (pc.atQueue = true))) :
    (pool.goto worker pc).Attained := by
  constructor
  · rw [inLock_goto]
    exact conditional
  · rw [atQueue_goto]
    exact queue

theorem Attained.workerStep {worker : Fin workers} {pool after : ThreadPool workers Submitter Task}
    (attained : pool.Attained) (moved : pool.workerStep worker = some after) : after.Attained := by
  obtain ⟨conditional, queue⟩ := attained
  -- A step that does not touch a mutex stays on its side of it.
  have inLock {pc : WorkerPc} (stays : (pool.worker worker).locked = true → pc.locked = true) :
      Tended pool.conditionalMutex
        (Function.update pool.InLock (.worker worker) (pc.locked = true)) :=
    conditional.stay stays
  have atQueue {pc : WorkerPc} (stays : (pool.worker worker).atQueue = true → pc.atQueue = true) :
      Tended pool.queueMutex (Function.update pool.AtQueue (.worker worker) (pc.atQueue = true)) :=
    queue.stay stays
  cases workerStep_moves moved with
  | leave at_ | enter at_ | finish at_ =>
    exact Attained.goto (inLock (by rw [at_]; decide)) (atQueue (by rw [at_]; decide))
  | lock at_ | relock at_ => exact Attained.goto (Tended.lock _ rfl) (atQueue (by rw [at_]; decide))
  | look at_ | take at_ => exact Attained.goto (inLock (by rw [at_]; decide)) (Tended.lock _ rfl)
  | wait at_ | skip at_ | miss at_ | dequeue at_ =>
    exact Attained.goto (inLock (by rw [at_]; decide)) (Tended.free _)
  | sleep at_ | run at_ | retry at_ =>
    exact Attained.goto (Tended.free _) (atQueue (by rw [at_]; decide))

theorem Attained.wake {worker : Fin workers} {pool : ThreadPool workers Submitter Task}
    (attained : pool.Attained) : (pool.wake worker).Attained := by
  unfold ThreadPool.wake
  split
  · rename_i asleep
    exact Attained.goto (attained.conditional.stay (by rw [InLock, asleep]; decide))
      (attained.queue.stay (by rw [AtQueue, asleep]; decide))
  · exact attained

theorem Attained.gotoSubmit {submitter : Submitter} {pc : SubmitPc Task}
    {pool : ThreadPool workers Submitter Task} (conditional : Tended pool.conditionalMutex pool.InLock)
    (queue : Tended pool.queueMutex
      (Function.update pool.AtQueue (.submitter submitter) (∃ task, pc = .enqueuing task))) :
    (pool.gotoSubmit submitter pc).Attained := by
  constructor
  · exact conditional
  · rw [atQueue_gotoSubmit]
    exact queue

/-- The steps of a running `submit`. -/
inductive SubmitMoves (submitter : Submitter) (before : ThreadPool workers Submitter Task) :
    ThreadPool workers Submitter Task → Prop where
  | lock (at_ : before.submitter submitter = .locking task) (free : before.queueMutex = none) :
    SubmitMoves submitter before
      ({ before with queueMutex := some (.submitter submitter) }.gotoSubmit submitter
        (.enqueuing task))
  | enqueue (at_ : before.submitter submitter = .enqueuing task) :
    SubmitMoves submitter before
      ({ before with
        queueMutex := none
        queue := before.queue ++ [task]
        enqueued := before.enqueued ++ [task] }.gotoSubmit submitter .notifying)
  | notify {worker : Fin workers} (at_ : before.submitter submitter = .notifying)
    (asleep : before.worker worker = .asleep) :
    SubmitMoves submitter before ((before.wake worker).gotoSubmit submitter .outside)
  | unheard (at_ : before.submitter submitter = .notifying)
    (awake : ∀ worker, before.worker worker ≠ .asleep) :
    SubmitMoves submitter before (before.gotoSubmit submitter .outside)

theorem submitStep_moves {submitter : Submitter} {wakes : Option (Fin workers)}
    {pool after : ThreadPool workers Submitter Task}
    (moved : pool.submitStep submitter wakes = some after) : SubmitMoves submitter pool after := by
  unfold submitStep at moved
  split at moved
  case h_1 => cases moved
  case h_2 task at_ =>
    obtain ⟨locked, took, rfl⟩ := Option.map_eq_some_iff.mp moved
    obtain ⟨free, rfl⟩ := lockQueue_eq took
    exact .lock at_ free
  case h_3 task at_ =>
    cases moved
    exact .enqueue at_
  case h_4 at_ =>
    obtain ⟨notified, woke, rfl⟩ := Option.map_eq_some_iff.mp moved
    obtain ⟨worker, asleep, rfl⟩ | ⟨awake, rfl, -⟩ := notifyOne_eq woke
    · exact .notify at_ asleep
    · exact .unheard at_ awake

theorem Attained.submitStep {submitter : Submitter} {wakes : Option (Fin workers)}
    {pool after : ThreadPool workers Submitter Task} (attained : pool.Attained)
    (moved : pool.submitStep submitter wakes = some after) : after.Attained := by
  cases submitStep_moves moved with
  | lock at_ free => exact Attained.gotoSubmit attained.conditional (Tended.lock _ ⟨_, rfl⟩)
  | enqueue at_ => exact Attained.gotoSubmit attained.conditional (Tended.free _)
  | @notify worker at_ asleep =>
    have kept : (pool.wake worker).Attained := attained.wake
    refine Attained.gotoSubmit kept.conditional (kept.queue.stay ?_)
    simp [AtQueue, ThreadPool.wake, asleep, ThreadPool.goto, at_]
  | unheard at_ awake =>
    exact Attained.gotoSubmit attained.conditional (attained.queue.stay (by simp [AtQueue, at_]))

theorem Attained.next {label : PoolLabel workers Submitter Task}
    {pool after : ThreadPool workers Submitter Task} (attained : pool.Attained)
    (moved : pool.next label = some after) : after.Attained := by
  cases label with
  | shutdown => exact attained.shutdownStep moved
  | work work =>
    cases work with
    | worker worker => exact attained.workerStep moved
    | submitter submitter wakes => exact attained.submitStep moved
    | spurious worker =>
      simp only [ThreadPool.next, work, Option.ite_none_right_eq_some, Option.some.injEq] at moved
      obtain ⟨asleep, rfl⟩ := moved
      exact attained.wake
    | submit submitter task =>
      simp only [ThreadPool.next, work] at moved
      split at moved
      · rename_i outside
        cases moved
        exact Attained.gotoSubmit attained.conditional
          (attained.queue.stay (by simp [AtQueue, outside]))
      · cases moved

theorem submitRanks_update [Fintype Submitter] {submitter : Submitter}
    {pcs : Submitter → SubmitPc Task} {before : SubmitPc Task} (at_ : pcs submitter = before) (pc : SubmitPc Task) :
    submitRanks (Function.update pcs submitter pc) + before.rank = submitRanks pcs + pc.rank := by
  rw [← at_]
  exact sum_update SubmitPc.rank pcs submitter pc

theorem lowers_submitStep [Fintype Submitter] {submitter : Submitter} {wakes : Option (Fin workers)}
    {pool after : ThreadPool workers Submitter Task}
    (moved : pool.submitStep submitter wakes = some after) : after.potential < pool.potential := by
  cases submitStep_moves moved with
  | @lock task at_ free =>
    have goes := submitRanks_update at_ (.enqueuing task)
    change _ + 28 = _ + 27 at goes
    change 8 * pool.queue.length +
      submitRanks (Function.update pool.submitter submitter (.enqueuing task)) + pool.ranks +
      pool.shutdown.rank workers < pool.potential
    unfold potential
    omega
  | @enqueue task at_ =>
    have goes := submitRanks_update at_ .notifying
    change _ + 27 = _ + 18 at goes
    have fewer : ∑ worker, (pool.worker worker).rank (pool.queue ++ [task]).isEmpty ≤ pool.ranks := by
      apply Finset.sum_le_sum
      intro worker _
      rw [show (pool.queue ++ [task]).isEmpty = false by simp]
      exact WorkerPc.rank_le _ _
    change 8 * (pool.queue ++ [task]).length +
      submitRanks (Function.update pool.submitter submitter .notifying) +
      ∑ worker, (pool.worker worker).rank (pool.queue ++ [task]).isEmpty +
      pool.shutdown.rank workers < pool.potential
    simp only [potential, List.length_append, List.length_singleton]
    omega
  | @notify worker at_ asleep =>
    have goes := submitRanks_update at_ .outside
    change _ + 18 = _ + 0 at goes
    have woken := ranks_goto worker .woken pool
    rw [asleep] at woken
    change _ + 0 = _ + 17 at woken
    have same : pool.wake worker = pool.goto worker .woken := if_pos asleep
    rw [same]
    change 8 * pool.queue.length +
      submitRanks (Function.update pool.submitter submitter .outside) +
      (pool.goto worker .woken).ranks + pool.shutdown.rank workers < pool.potential
    unfold potential
    omega
  | unheard at_ awake =>
    have goes := submitRanks_update at_ .outside
    change _ + 18 = _ + 0 at goes
    change 8 * pool.queue.length +
      submitRanks (Function.update pool.submitter submitter .outside) + pool.ranks +
      pool.shutdown.rank workers < pool.potential
    unfold potential
    omega

/-- The steps for which nobody has to call the pool and no worker wakes up unasked. -/
def settle : PoolLabel workers Submitter Task → ThreadPool workers Submitter Task →
    Option (ThreadPool workers Submitter Task)
  | .work (.worker worker), pool => pool.workerStep worker
  | .work (.submitter submitter wakes), pool => pool.submitStep submitter wakes
  | .shutdown, pool => if pool.shutdown = .outside then none else pool.shutdownStep
  | _, _ => none

theorem settle_next {label : PoolLabel workers Submitter Task}
    {pool after : ThreadPool workers Submitter Task} (moved : pool.settle label = some after) :
    pool.next label = some after := by
  cases label with
  | shutdown =>
    simp only [settle, Option.ite_none_left_eq_some] at moved
    exact moved.2
  | work work =>
    cases work with
    | worker worker => exact moved
    | submitter submitter wakes => exact moved
    | spurious worker => cases moved
    | submit submitter task => cases moved

theorem settle_reaches {pool after : ThreadPool workers Submitter Task}
    (path : Reaches settle pool after) : Reaches next pool after := by
  induction path with
  | refl => exact Reaches.refl next pool
  | tail _ moved ih =>
    obtain ⟨label, moved⟩ := moved
    exact ih.step (settle_next moved)

end ThreadPool

end GaiaNet.Pool
