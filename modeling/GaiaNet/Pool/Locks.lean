import GaiaNet.Lib.Mutex
import GaiaNet.Pool.ThreadPool

/-! The two mutexes of the pool: who owns them, and that one thread at a time is at the queue. -/

namespace GaiaNet.Pool

open Lib.Mutex Lib.Transition

/-- The worker stands in the block that locks `m_conditional_mutex`. -/
def WorkerPc.locked : WorkerPc → Bool
  | .emptying | .looking | .waits | .dequeuing | .taking | .unlocking _ => true
  | _ => false

/-- The worker is in a function of the queue. -/
def WorkerPc.atQueue : WorkerPc → Bool
  | .looking | .taking => true
  | _ => false

namespace ThreadPool

variable {workers : Nat} {Submitter Task : Type}

def InLock (pool : ThreadPool workers Submitter Task) : Locker workers → Prop
  | .worker worker => (pool.worker worker).locked = true
  | .shutdown => pool.shutdown = .setting ∨ pool.shutdown = .unlocking

def AtQueue (pool : ThreadPool workers Submitter Task) : QueueUser workers Submitter → Prop
  | .worker worker => (pool.worker worker).atQueue = true
  | .submitter submitter => ∃ task, pool.submitter submitter = .enqueuing task

structure Locked (pool : ThreadPool workers Submitter Task) : Prop where
  conditional : Guards pool.conditionalMutex pool.InLock
  queue : Guards pool.queueMutex pool.AtQueue

theorem inLock_goto (worker : Fin workers) (pc : WorkerPc) (pool : ThreadPool workers Submitter Task) :
    (pool.goto worker pc).InLock =
      Function.update pool.InLock (.worker worker) (pc.locked = true) := by
  funext user
  cases user with
  | shutdown => simp [InLock, ThreadPool.goto]
  | worker other =>
    by_cases same : other = worker
    · subst same
      simp [InLock]
    · have apart : Locker.worker other ≠ .worker worker := fun eq => same (Locker.worker.inj eq)
      simp [InLock, same, apart]

theorem inLock_worker {worker : Fin workers} {pool : ThreadPool workers Submitter Task}
    (at_ : pool.worker worker = pc) (inside : pc.locked = true) : pool.InLock (.worker worker) :=
  (congrArg WorkerPc.locked at_).trans inside

theorem atQueue_worker {worker : Fin workers} {pool : ThreadPool workers Submitter Task}
    (at_ : pool.worker worker = pc) (inside : pc.atQueue = true) : pool.AtQueue (.worker worker) :=
  (congrArg WorkerPc.atQueue at_).trans inside

theorem inLock_shutdown (pool : ThreadPool workers Submitter Task) (pc : ShutdownPc) :
    InLock { pool with shutdown := pc } =
      Function.update pool.InLock .shutdown (pc = .setting ∨ pc = .unlocking) := by
  funext user
  cases user with
  | worker worker => simp [InLock]
  | shutdown => simp [InLock]

theorem Locked.shutdown (pool : ThreadPool workers Submitter Task) (pc : ShutdownPc)
    (conditional : Guards pool.conditionalMutex
      (Function.update pool.InLock .shutdown (pc = .setting ∨ pc = .unlocking)))
    (queue : Guards pool.queueMutex pool.AtQueue) : Locked { pool with shutdown := pc } := by
  constructor
  · rw [inLock_shutdown]
    exact conditional
  · exact queue

theorem Locked.notifyAll {pool : ThreadPool workers Submitter Task} (locked : pool.Locked) :
    pool.notifyAll.Locked := by
  constructor
  · intro user inside
    apply locked.conditional user
    cases user with
    | worker worker =>
      change (if pool.worker worker = .asleep then WorkerPc.woken else pool.worker worker).locked = true
        at inside
      split at inside
      · cases inside
      · exact inside
    | shutdown => exact inside
  · intro user inside
    apply locked.queue user
    cases user with
    | worker worker =>
      change (if pool.worker worker = .asleep then WorkerPc.woken else pool.worker worker).atQueue = true
        at inside
      split at inside
      · cases inside
      · exact inside
    | submitter submitter => exact inside

theorem Locked.shutdownStep {pool after : ThreadPool workers Submitter Task} (locked : pool.Locked)
    (moved : pool.shutdownStep = some after) : after.Locked := by
  have outside (base : ThreadPool workers Submitter Task) (kept : base.Locked) (pc : ShutdownPc)
      (away : ¬ (pc = .setting ∨ pc = .unlocking)) : Locked { base with shutdown := pc } :=
    Locked.shutdown base pc (kept.conditional.stay fun inside => absurd inside away) kept.queue
  cases shutdownStep_moves moved with
  | call | join | joined => exact outside pool locked _ (by simp)
  | lock free =>
    have conditional := locked.conditional
    rw [free] at conditional
    exact Locked.shutdown { pool with conditionalMutex := some .shutdown } _ (conditional.lock _ _)
      locked.queue
  | set at_ =>
    exact Locked.shutdown { pool with shutdownFlag := true } _
      (locked.conditional.stay fun _ => Or.inl at_) locked.queue
  | unlock at_ =>
    exact Locked.shutdown { pool with conditionalMutex := none } _
      (locked.conditional.unlock (Or.inr at_) (by simp)) locked.queue
  | notify at_ => exact outside pool.notifyAll locked.notifyAll _ (by simp)

theorem Locked.start : (start : ThreadPool workers Submitter Task).Locked := by
  constructor
  · rintro (worker | _) inside
    · cases inside
    · simp [InLock, ThreadPool.start] at inside
  · rintro (worker | submitter) inside
    · cases inside
    · obtain ⟨task, inside⟩ := inside
      cases inside

variable [DecidableEq Submitter]

theorem atQueue_goto (worker : Fin workers) (pc : WorkerPc) (pool : ThreadPool workers Submitter Task) :
    (pool.goto worker pc).AtQueue =
      Function.update pool.AtQueue (.worker worker) (pc.atQueue = true) := by
  funext user
  cases user with
  | submitter submitter => simp [AtQueue]
  | worker other =>
    by_cases same : other = worker
    · subst same
      simp [AtQueue]
    · have apart : (QueueUser.worker other : QueueUser workers Submitter) ≠ .worker worker :=
        fun eq => same (QueueUser.worker.inj eq)
      simp [AtQueue, same, apart]

theorem Locked.goto {worker : Fin workers} {pc : WorkerPc} {pool : ThreadPool workers Submitter Task}
    (conditional : Guards pool.conditionalMutex
      (Function.update pool.InLock (.worker worker) (pc.locked = true)))
    (queue : Guards pool.queueMutex
      (Function.update pool.AtQueue (.worker worker) (pc.atQueue = true))) :
    (pool.goto worker pc).Locked := by
  constructor
  · rw [inLock_goto]
    exact conditional
  · rw [atQueue_goto]
    exact queue

theorem Locked.workerStep {worker : Fin workers} {pool after : ThreadPool workers Submitter Task}
    (locked : pool.Locked) (moved : pool.workerStep worker = some after) : after.Locked := by
  obtain ⟨conditional, queue⟩ := locked
  -- A step that does not touch a mutex stays on its side of it.
  have inLock {pc : WorkerPc} (stays : pc.locked = true → (pool.worker worker).locked = true) :
      Guards pool.conditionalMutex
        (Function.update pool.InLock (.worker worker) (pc.locked = true)) :=
    conditional.stay stays
  have atQueue {pc : WorkerPc} (stays : pc.atQueue = true → (pool.worker worker).atQueue = true) :
      Guards pool.queueMutex (Function.update pool.AtQueue (.worker worker) (pc.atQueue = true)) :=
    queue.stay stays
  cases workerStep_moves moved with
  | leave at_ | enter at_ => exact Locked.goto (inLock nofun) (atQueue nofun)
  | lock at_ free | relock at_ free =>
    rw [free] at conditional
    exact Locked.goto (conditional.lock _ _) (atQueue nofun)
  | look at_ free | take at_ free =>
    rw [free] at queue
    exact Locked.goto (inLock fun _ => inLock_worker at_ rfl) (queue.lock _ _)
  | wait at_ | skip at_ | miss at_ | dequeue at_ =>
    exact Locked.goto (inLock fun _ => inLock_worker at_ rfl)
      (queue.unlock (atQueue_worker at_ rfl) nofun)
  | sleep at_ | run at_ | retry at_ =>
    exact Locked.goto (conditional.unlock (inLock_worker at_ rfl) nofun) (atQueue nofun)
  | finish at_ => exact Locked.goto (conditional.stay nofun) (queue.stay nofun)

theorem Locked.wake {worker : Fin workers} {pool : ThreadPool workers Submitter Task}
    (locked : pool.Locked) : (pool.wake worker).Locked := by
  unfold ThreadPool.wake
  split
  · exact Locked.goto (locked.conditional.stay nofun) (locked.queue.stay nofun)
  · exact locked

theorem atQueue_gotoSubmit (submitter : Submitter) (pc : SubmitPc Task)
    (pool : ThreadPool workers Submitter Task) :
    (pool.gotoSubmit submitter pc).AtQueue =
      Function.update pool.AtQueue (.submitter submitter) (∃ task, pc = .enqueuing task) := by
  funext user
  cases user with
  | worker worker => simp [AtQueue, gotoSubmit]
  | submitter other =>
    by_cases same : other = submitter
    · subst same
      simp [AtQueue, gotoSubmit]
    · have apart : (QueueUser.submitter other : QueueUser workers Submitter) ≠ .submitter submitter :=
        fun eq => same (QueueUser.submitter.inj eq)
      simp [AtQueue, gotoSubmit, same, apart]

theorem Locked.gotoSubmit {submitter : Submitter} {pc : SubmitPc Task}
    {pool : ThreadPool workers Submitter Task} (conditional : Guards pool.conditionalMutex pool.InLock)
    (queue : Guards pool.queueMutex
      (Function.update pool.AtQueue (.submitter submitter) (∃ task, pc = .enqueuing task))) :
    (pool.gotoSubmit submitter pc).Locked := by
  constructor
  · exact conditional
  · rw [atQueue_gotoSubmit]
    exact queue

theorem Locked.work {label : Work workers Submitter Task}
    {pool after : ThreadPool workers Submitter Task} (locked : pool.Locked)
    (moved : pool.work label = some after) : after.Locked := by
  cases work_moves moved with
  | worker moved => exact locked.workerStep moved
  | spurious asleep => exact locked.wake
  | submit | unheard => exact Locked.gotoSubmit locked.conditional (locked.queue.stay nofun)
  | lock free =>
    have queue := locked.queue
    rw [free] at queue
    exact Locked.gotoSubmit locked.conditional (queue.lock _ _)
  | @enqueue _ task _ at_ =>
    exact Locked.gotoSubmit locked.conditional (locked.queue.unlock ⟨task, at_⟩ nofun)
  | @notify _ worker _ asleep =>
    have kept : (pool.wake worker).Locked := locked.wake
    exact Locked.gotoSubmit kept.conditional (kept.queue.stay nofun)

theorem Locked.next {label : PoolLabel workers Submitter Task}
    {pool after : ThreadPool workers Submitter Task} (locked : pool.Locked)
    (moved : pool.next label = some after) : after.Locked := by
  cases label with
  | work label => exact locked.work moved
  | shutdown => exact locked.shutdownStep moved

/-- One thread at a time works on the queue, so that each of its functions is one step. -/
theorem queue_alone {pool : ThreadPool workers Submitter Task}
    (path : Reaches next (start : ThreadPool workers Submitter Task) pool)
    (one : pool.AtQueue first) (other : pool.AtQueue second) : first = second := by
  have locked := path.invariant Locked Locked.start fun _ _ _ locked moved => locked.next moved
  exact locked.queue.alone one other

end ThreadPool

end GaiaNet.Pool
