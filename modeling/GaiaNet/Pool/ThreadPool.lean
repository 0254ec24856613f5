import GaiaNet.Lib.Transition
import Mathlib.Logic.Function.Basic

/-! `ThreadPool` of ThreadPool.h with its `SafeQueue`: the loops of the workers, `submit`
in any number of threads and `shutdown`, one step at a time. -/

namespace GaiaNet.Pool

open Lib.Transition

/-- Where a worker stands in its loop. From `emptying` to `waits` and from `dequeuing` to
`unlocking` it owns `m_conditional_mutex`, in `looking` and `taking` the mutex of the queue. -/
inductive WorkerPc where
  | testing
  | locking
  | emptying
  | looking
  | waits
  | asleep
  | woken
  | dequeuing
  | taking
  | unlocking (dequeued : Bool)
  | running
  | exited
  deriving DecidableEq, Repr

/-- The steps of a worker's loop; `m_shutdown` is looked at in the first of them. -/
inductive WorkerPc.Follows (shutdownFlag : Bool) : WorkerPc → WorkerPc → Prop where
  | leave (set : shutdownFlag = true) : Follows shutdownFlag .testing .exited
  | enter (unset : shutdownFlag = false) : Follows shutdownFlag .testing .locking
  | lock : Follows shutdownFlag .locking .emptying
  | look : Follows shutdownFlag .emptying .looking
  | wait : Follows shutdownFlag .looking .waits
  | skip : Follows shutdownFlag .looking .dequeuing
  | sleep : Follows shutdownFlag .waits .asleep
  | relock : Follows shutdownFlag .woken .dequeuing
  | take : Follows shutdownFlag .dequeuing .taking
  | unlock : Follows shutdownFlag .taking (.unlocking dequeued)
  | run : Follows shutdownFlag (.unlocking true) .running
  | retry : Follows shutdownFlag (.unlocking false) .testing
  | again : Follows shutdownFlag .running .testing

/-- A thread in `submit`: before and inside `enqueue`, and before `notify_one`. -/
inductive SubmitPc (Task : Type) where
  | outside
  | locking (task : Task)
  | enqueuing (task : Task)
  | notifying
  deriving DecidableEq, Repr

/-- The thread in `shutdown`; it joins the workers one after the other. -/
inductive ShutdownPc where
  | outside
  | locking
  | setting
  | unlocking
  | notifying
  | joining (worker : Nat)
  | returned
  deriving DecidableEq, Repr

inductive Locker (workers : Nat) where
  | worker (worker : Fin workers)
  | shutdown
  deriving DecidableEq, Repr

inductive QueueUser (workers : Nat) (Submitter : Type) where
  | worker (worker : Fin workers)
  | submitter (submitter : Submitter)
  deriving DecidableEq, Repr

/-- `func` is the local variable of each worker; `enqueued`, `dequeued` and `finished` are the
tasks in the order in which this happened to them. -/
structure ThreadPool (workers : Nat) (Submitter Task : Type) where
  queue : List Task
  queueMutex : Option (QueueUser workers Submitter)
  conditionalMutex : Option (Locker workers)
  shutdownFlag : Bool
  worker : Fin workers → WorkerPc
  func : Fin workers → Option Task
  submitter : Submitter → SubmitPc Task
  shutdown : ShutdownPc
  enqueued : List Task
  dequeued : List Task
  finished : List Task

/-- A step of a worker, a wake-up nobody asked for, a call or a step of `submit`, with the
worker that `notify_one` wakes. -/
inductive Work (workers : Nat) (Submitter Task : Type) where
  | worker (worker : Fin workers)
  | spurious (worker : Fin workers)
  | submit (submitter : Submitter) (task : Task)
  | submitter (submitter : Submitter) (wakes : Option (Fin workers))

inductive PoolLabel (workers : Nat) (Submitter Task : Type) where
  | work (work : Work workers Submitter Task)
  | shutdown

namespace ThreadPool

variable {workers : Nat} {Submitter Task : Type}

def goto (worker : Fin workers) (pc : WorkerPc) (pool : ThreadPool workers Submitter Task) :
    ThreadPool workers Submitter Task :=
  { pool with worker := Function.update pool.worker worker pc }

def lockQueue (user : QueueUser workers Submitter) (pool : ThreadPool workers Submitter Task) :
    Option (ThreadPool workers Submitter Task) :=
  match pool.queueMutex with
  | none => some { pool with queueMutex := some user }
  | some _ => none

def lockConditional (locker : Locker workers) (pool : ThreadPool workers Submitter Task) :
    Option (ThreadPool workers Submitter Task) :=
  match pool.conditionalMutex with
  | none => some { pool with conditionalMutex := some locker }
  | some _ => none

/-- `dequeue(func)`, which leaves `func` alone when the queue is empty. -/
def dequeue (worker : Fin workers) (pool : ThreadPool workers Submitter Task) :
    ThreadPool workers Submitter Task :=
  match pool.queue with
  | [] => { pool with queueMutex := none }.goto worker (.unlocking false)
  | task :: rest =>
    { pool with
      queueMutex := none
      queue := rest
      func := Function.update pool.func worker (some task)
      dequeued := pool.dequeued ++ [task] }.goto worker (.unlocking true)

/-- The next step of a worker. -/
def workerStep (worker : Fin workers) (pool : ThreadPool workers Submitter Task) :
    Option (ThreadPool workers Submitter Task) :=
  match pool.worker worker with
  | .testing => some (pool.goto worker (if pool.shutdownFlag then .exited else .locking))
  | .locking => (pool.lockConditional (.worker worker)).map (goto worker .emptying)
  | .emptying => (pool.lockQueue (.worker worker)).map (goto worker .looking)
  | .looking =>
    some ({ pool with queueMutex := none }.goto worker
      (if pool.queue = [] then .waits else .dequeuing))
  | .waits => some ({ pool with conditionalMutex := none }.goto worker .asleep)
  | .asleep => none
  | .woken => (pool.lockConditional (.worker worker)).map (goto worker .dequeuing)
  | .dequeuing => (pool.lockQueue (.worker worker)).map (goto worker .taking)
  | .taking => some (pool.dequeue worker)
  | .unlocking dequeued =>
    some ({ pool with conditionalMutex := none }.goto worker (if dequeued then .running else .testing))
  | .running =>
    some ({ pool with finished := pool.finished ++ (pool.func worker).toList }.goto worker .testing)
  | .exited => none

/-- A worker asleep goes on to take the mutex again. -/
def wake (worker : Fin workers) (pool : ThreadPool workers Submitter Task) :
    ThreadPool workers Submitter Task :=
  if pool.worker worker = .asleep then pool.goto worker .woken else pool

/-- `notify_one` wakes a worker that is asleep, if there is one. -/
def notifyOne (wakes : Option (Fin workers)) (pool : ThreadPool workers Submitter Task) :
    Option (ThreadPool workers Submitter Task) :=
  match wakes with
  | some worker => if pool.worker worker = .asleep then some (pool.wake worker) else none
  | none => if ∀ worker, pool.worker worker ≠ .asleep then some pool else none

def notifyAll (pool : ThreadPool workers Submitter Task) : ThreadPool workers Submitter Task :=
  { pool with
    worker := fun worker => if pool.worker worker = .asleep then .woken else pool.worker worker }

def shutdownStep (pool : ThreadPool workers Submitter Task) :
    Option (ThreadPool workers Submitter Task) :=
  match pool.shutdown with
  | .outside => some { pool with shutdown := .locking }
  | .locking => (pool.lockConditional .shutdown).map fun pool => { pool with shutdown := .setting }
  | .setting => some { pool with shutdownFlag := true, shutdown := .unlocking }
  | .unlocking => some { pool with conditionalMutex := none, shutdown := .notifying }
  | .notifying => some { pool.notifyAll with shutdown := .joining 0 }
  | .joining i =>
    if inside : i < workers then
      if pool.worker ⟨i, inside⟩ = .exited then some { pool with shutdown := .joining (i + 1) }
      else none
    else some { pool with shutdown := .returned }
  | .returned => none

@[simp] theorem goto_worker (worker : Fin workers) (pc : WorkerPc)
    (pool : ThreadPool workers Submitter Task) :
    (pool.goto worker pc).worker = Function.update pool.worker worker pc := rfl

@[simp] theorem goto_submitter (worker : Fin workers) (pc : WorkerPc)
    (pool : ThreadPool workers Submitter Task) :
    (pool.goto worker pc).submitter = pool.submitter := rfl

@[simp] theorem goto_func (worker : Fin workers) (pc : WorkerPc)
    (pool : ThreadPool workers Submitter Task) : (pool.goto worker pc).func = pool.func := rfl

theorem lockQueue_eq {pool after : ThreadPool workers Submitter Task}
    (locked : pool.lockQueue user = some after) :
    pool.queueMutex = none ∧ after = { pool with queueMutex := some user } := by
  unfold lockQueue at locked
  split at locked
  · rename_i free
    exact ⟨free, (Option.some.inj locked).symm⟩
  · cases locked

theorem lockConditional_eq {pool after : ThreadPool workers Submitter Task}
    (locked : pool.lockConditional locker = some after) :
    pool.conditionalMutex = none ∧ after = { pool with conditionalMutex := some locker } := by
  unfold lockConditional at locked
  split at locked
  · rename_i free
    exact ⟨free, (Option.some.inj locked).symm⟩
  · cases locked

/-- `notify_one` wakes one worker, or finds none asleep. -/
theorem notifyOne_eq {wakes : Option (Fin workers)} {pool after : ThreadPool workers Submitter Task}
    (notified : pool.notifyOne wakes = some after) :
    (∃ worker, pool.worker worker = .asleep ∧ after = pool.wake worker) ∨
      ((∀ worker, pool.worker worker ≠ .asleep) ∧ after = pool ∧ wakes = none) := by
  cases wakes with
  | some worker =>
    simp only [notifyOne, Option.ite_none_right_eq_some, Option.some.injEq] at notified
    obtain ⟨asleep, rfl⟩ := notified
    exact Or.inl ⟨worker, asleep, rfl⟩
  | none =>
    simp only [notifyOne, Option.ite_none_right_eq_some, Option.some.injEq] at notified
    obtain ⟨awake, rfl⟩ := notified
    exact Or.inr ⟨awake, rfl, rfl⟩

/-- `dequeue` on a queue that is not empty. -/
def taken (worker : Fin workers) (task : Task) (rest : List Task)
    (pool : ThreadPool workers Submitter Task) : ThreadPool workers Submitter Task :=
  { pool with
    queueMutex := none
    queue := rest
    func := Function.update pool.func worker (some task)
    dequeued := pool.dequeued ++ [task] }.goto worker (.unlocking true)

/-- `func()` has returned. -/
def ran (worker : Fin workers) (pool : ThreadPool workers Submitter Task) :
    ThreadPool workers Submitter Task :=
  { pool with finished := pool.finished ++ (pool.func worker).toList }.goto worker .testing

/-- The step that each place in its loop lets a worker take. -/
inductive WorkerMoves (worker : Fin workers) (before : ThreadPool workers Submitter Task) :
    ThreadPool workers Submitter Task → Prop where
  | leave (at_ : before.worker worker = .testing) (set : before.shutdownFlag = true) :
    WorkerMoves worker before (before.goto worker .exited)
  | enter (at_ : before.worker worker = .testing) (unset : before.shutdownFlag = false) :
    WorkerMoves worker before (before.goto worker .locking)
  | lock (at_ : before.worker worker = .locking) (free : before.conditionalMutex = none) :
    WorkerMoves worker before
      ({ before with conditionalMutex := some (.worker worker) }.goto worker .emptying)
  | look (at_ : before.worker worker = .emptying) (free : before.queueMutex = none) :
    WorkerMoves worker before
      ({ before with queueMutex := some (.worker worker) }.goto worker .looking)
  | wait (at_ : before.worker worker = .looking) (empty : before.queue = []) :
    WorkerMoves worker before ({ before with queueMutex := none }.goto worker .waits)
  | skip (at_ : before.worker worker = .looking) :
    WorkerMoves worker before ({ before with queueMutex := none }.goto worker .dequeuing)
  | sleep (at_ : before.worker worker = .waits) :
    WorkerMoves worker before ({ before with conditionalMutex := none }.goto worker .asleep)
  | relock (at_ : before.worker worker = .woken) (free : before.conditionalMutex = none) :
    WorkerMoves worker before
      ({ before with conditionalMutex := some (.worker worker) }.goto worker .dequeuing)
  | take (at_ : before.worker worker = .dequeuing) (free : before.queueMutex = none) :
    WorkerMoves worker before
      ({ before with queueMutex := some (.worker worker) }.goto worker .taking)
  | miss (at_ : before.worker worker = .taking) :
    WorkerMoves worker before ({ before with queueMutex := none }.goto worker (.unlocking false))
  | dequeue (at_ : before.worker worker = .taking) (tasks : before.queue = task :: rest) :
    WorkerMoves worker before (before.taken worker task rest)
  | run (at_ : before.worker worker = .unlocking true) :
    WorkerMoves worker before ({ before with conditionalMutex := none }.goto worker .running)
  | retry (at_ : before.worker worker = .unlocking false) :
    WorkerMoves worker before ({ before with conditionalMutex := none }.goto worker .testing)
  | finish (at_ : before.worker worker = .running) :
    WorkerMoves worker before (before.ran worker)

theorem workerStep_moves {worker : Fin workers} {pool after : ThreadPool workers Submitter Task}
    (moved : pool.workerStep worker = some after) : WorkerMoves worker pool after := by
  unfold workerStep at moved
  split at moved
  case h_6 | h_12 => cases moved
  case h_1 at_ =>
    cases moved
    split
    · rename_i set
      exact .leave at_ set
    · rename_i unset
      exact .enter at_ (by simpa using unset)
  case h_2 at_ =>
    obtain ⟨locked, took, rfl⟩ := Option.map_eq_some_iff.mp moved
    obtain ⟨free, rfl⟩ := lockConditional_eq took
    exact .lock at_ free
  case h_3 at_ =>
    obtain ⟨locked, took, rfl⟩ := Option.map_eq_some_iff.mp moved
    obtain ⟨free, rfl⟩ := lockQueue_eq took
    exact .look at_ free
  case h_4 at_ =>
    cases moved
    split
    · rename_i empty
      exact .wait at_ empty
    · exact .skip at_
  case h_5 at_ =>
    cases moved
    exact .sleep at_
  case h_7 at_ =>
    obtain ⟨locked, took, rfl⟩ := Option.map_eq_some_iff.mp moved
    obtain ⟨free, rfl⟩ := lockConditional_eq took
    exact .relock at_ free
  case h_8 at_ =>
    obtain ⟨locked, took, rfl⟩ := Option.map_eq_some_iff.mp moved
    obtain ⟨free, rfl⟩ := lockQueue_eq took
    exact .take at_ free
  case h_9 at_ =>
    cases moved
    unfold dequeue
    split
    · exact .miss at_
    · rename_i tasks
      exact .dequeue at_ tasks
  case h_10 dequeued at_ =>
    cases moved
    cases dequeued with
    | true => exact .run at_
    | false => exact .retry at_
  case h_11 at_ =>
    cases moved
    exact .finish at_

/-- The step of a worker moves that worker along its loop. -/
theorem workerStep_follows {worker : Fin workers} {pool after : ThreadPool workers Submitter Task}
    (moved : pool.workerStep worker = some after) :
    ∃ pc, (pool.worker worker).Follows pool.shutdownFlag pc ∧
      after.worker = Function.update pool.worker worker pc ∧ after.shutdown = pool.shutdown ∧
      after.shutdownFlag = pool.shutdownFlag ∧ after.submitter = pool.submitter := by
  cases workerStep_moves moved with
  | leave at_ set => exact ⟨_, at_ ▸ .leave set, rfl, rfl, rfl, rfl⟩
  | enter at_ unset => exact ⟨_, at_ ▸ .enter unset, rfl, rfl, rfl, rfl⟩
  | lock at_ => exact ⟨_, at_ ▸ .lock, rfl, rfl, rfl, rfl⟩
  | look at_ => exact ⟨_, at_ ▸ .look, rfl, rfl, rfl, rfl⟩
  | wait at_ => exact ⟨_, at_ ▸ .wait, rfl, rfl, rfl, rfl⟩
  | skip at_ => exact ⟨_, at_ ▸ .skip, rfl, rfl, rfl, rfl⟩
  | sleep at_ => exact ⟨_, at_ ▸ .sleep, rfl, rfl, rfl, rfl⟩
  | relock at_ => exact ⟨_, at_ ▸ .relock, rfl, rfl, rfl, rfl⟩
  | take at_ => exact ⟨_, at_ ▸ .take, rfl, rfl, rfl, rfl⟩
  | miss at_ | dequeue at_ => exact ⟨_, at_ ▸ .unlock, rfl, rfl, rfl, rfl⟩
  | run at_ => exact ⟨_, at_ ▸ .run, rfl, rfl, rfl, rfl⟩
  | retry at_ => exact ⟨_, at_ ▸ .retry, rfl, rfl, rfl, rfl⟩
  | finish at_ => exact ⟨_, at_ ▸ .again, rfl, rfl, rfl, rfl⟩

/-- The steps of `shutdown`. -/
inductive ShutdownMoves (before : ThreadPool workers Submitter Task) :
    ThreadPool workers Submitter Task → Prop where
  | call (at_ : before.shutdown = .outside) :
    ShutdownMoves before { before with shutdown := .locking }
  | lock (free : before.conditionalMutex = none) :
    ShutdownMoves before { before with
      conditionalMutex := some .shutdown
      shutdown := .setting }
  | set (at_ : before.shutdown = .setting) :
    ShutdownMoves before { before with
      shutdownFlag := true
      shutdown := .unlocking }
  | unlock (at_ : before.shutdown = .unlocking) :
    ShutdownMoves before { before with
      conditionalMutex := none
      shutdown := .notifying }
  | notify (at_ : before.shutdown = .notifying) :
    ShutdownMoves before { before.notifyAll with shutdown := .joining 0 }
  | join (at_ : before.shutdown = .joining i) :
    ShutdownMoves before { before with shutdown := .joining (i + 1) }
  | joined (at_ : before.shutdown = .joining i) :
    ShutdownMoves before { before with shutdown := .returned }

theorem shutdownStep_moves {pool after : ThreadPool workers Submitter Task}
    (moved : pool.shutdownStep = some after) : ShutdownMoves pool after := by
  unfold shutdownStep at moved
  split at moved
  case h_1 at_ =>
    cases moved
    exact .call at_
  case h_2 =>
    obtain ⟨locked, took, rfl⟩ := Option.map_eq_some_iff.mp moved
    obtain ⟨free, rfl⟩ := lockConditional_eq took
    exact .lock free
  case h_3 at_ =>
    cases moved
    exact .set at_
  case h_4 at_ =>
    cases moved
    exact .unlock at_
  case h_5 at_ =>
    cases moved
    exact .notify at_
  case h_6 i at_ =>
    split at moved
    · split at moved
      · cases moved
        exact .join at_
      · cases moved
    · cases moved
      exact .joined at_
  case h_7 => cases moved

variable [DecidableEq Submitter]

def gotoSubmit (submitter : Submitter) (pc : SubmitPc Task)
    (pool : ThreadPool workers Submitter Task) : ThreadPool workers Submitter Task :=
  { pool with submitter := Function.update pool.submitter submitter pc }

/-- The next step of a thread in `submit`. -/
def submitStep (submitter : Submitter) (wakes : Option (Fin workers))
    (pool : ThreadPool workers Submitter Task) : Option (ThreadPool workers Submitter Task) :=
  match pool.submitter submitter with
  | .outside => none
  | .locking task =>
    (pool.lockQueue (.submitter submitter)).map (gotoSubmit submitter (.enqueuing task))
  | .enqueuing task =>
    some ({ pool with
      queueMutex := none
      queue := pool.queue ++ [task]
      enqueued := pool.enqueued ++ [task] }.gotoSubmit submitter .notifying)
  | .notifying => (pool.notifyOne wakes).map (gotoSubmit submitter .outside)

/-- Everything but `shutdown`. -/
def work : Work workers Submitter Task → ThreadPool workers Submitter Task →
    Option (ThreadPool workers Submitter Task)
  | .worker worker, pool => pool.workerStep worker
  | .spurious worker, pool =>
    if pool.worker worker = .asleep then some (pool.wake worker) else none
  | .submit submitter task, pool =>
    match pool.submitter submitter with
    | .outside => some (pool.gotoSubmit submitter (.locking task))
    | _ => none
  | .submitter submitter wakes, pool => pool.submitStep submitter wakes

/-- The steps of the workers and of `submit`. -/
inductive WorkMoves (before : ThreadPool workers Submitter Task) :
    Work workers Submitter Task → ThreadPool workers Submitter Task → Prop where
  | worker {worker : Fin workers} (moved : before.workerStep worker = some after) :
    WorkMoves before (.worker worker) after
  | spurious {worker : Fin workers} (asleep : before.worker worker = .asleep) :
    WorkMoves before (.spurious worker) (before.wake worker)
  | submit {submitter : Submitter} {task : Task} :
    WorkMoves before (.submit submitter task) (before.gotoSubmit submitter (.locking task))
  | lock {submitter : Submitter} {task : Task} {wakes : Option (Fin workers)}
    (free : before.queueMutex = none) :
    WorkMoves before (.submitter submitter wakes)
      ({ before with queueMutex := some (.submitter submitter) }.gotoSubmit submitter
        (.enqueuing task))
  | enqueue {submitter : Submitter} {task : Task} {wakes : Option (Fin workers)}
    (at_ : before.submitter submitter = .enqueuing task) :
    WorkMoves before (.submitter submitter wakes)
      ({ before with
        queueMutex := none
        queue := before.queue ++ [task]
        enqueued := before.enqueued ++ [task] }.gotoSubmit submitter .notifying)
  | notify {submitter : Submitter} {worker : Fin workers} {wakes : Option (Fin workers)}
    (asleep : before.worker worker = .asleep) :
    WorkMoves before (.submitter submitter wakes)
      ((before.wake worker).gotoSubmit submitter .outside)
  | unheard {submitter : Submitter} (awake : ∀ worker, before.worker worker ≠ .asleep)
    (at_ : before.submitter submitter = .notifying) :
    WorkMoves before (.submitter submitter none) (before.gotoSubmit submitter .outside)

theorem work_moves {label : Work workers Submitter Task}
    {pool after : ThreadPool workers Submitter Task} (moved : pool.work label = some after) :
    WorkMoves pool label after := by
  cases label with
  | worker worker => exact .worker moved
  | spurious worker =>
    simp only [work, Option.ite_none_right_eq_some, Option.some.injEq] at moved
    obtain ⟨asleep, rfl⟩ := moved
    exact .spurious asleep
  | submit submitter task =>
    simp only [work] at moved
    split at moved
    · cases moved
      exact .submit
    · cases moved
  | submitter submitter wakes =>
    simp only [work, submitStep] at moved
    split at moved
    case h_1 => cases moved
    case h_2 =>
      obtain ⟨locked, took, rfl⟩ := Option.map_eq_some_iff.mp moved
      obtain ⟨free, rfl⟩ := lockQueue_eq took
      exact .lock free
    case h_3 at_ =>
      cases moved
      exact .enqueue at_
    case h_4 at_ =>
      obtain ⟨notified, woke, rfl⟩ := Option.map_eq_some_iff.mp moved
      obtain ⟨worker, asleep, rfl⟩ | ⟨awake, rfl, rfl⟩ := notifyOne_eq woke
      · exact .notify asleep
      · exact .unheard awake at_

def next : PoolLabel workers Submitter Task → ThreadPool workers Submitter Task →
    Option (ThreadPool workers Submitter Task)
  | .work work, pool => pool.work work
  | .shutdown, pool => pool.shutdownStep

/-- The workers have been started. -/
def start : ThreadPool workers Submitter Task where
  queue := []
  queueMutex := none
  conditionalMutex := none
  shutdownFlag := false
  worker := fun _ => .testing
  func := fun _ => none
  submitter := fun _ => .outside
  shutdown := .outside
  enqueued := []
  dequeued := []
  finished := []

end ThreadPool

end GaiaNet.Pool
