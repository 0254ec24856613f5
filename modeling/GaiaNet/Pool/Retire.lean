import GaiaNet.Pool.Rest

/-! When `shutdown` returns, whatever the order of the steps: which workers can still go to
sleep once the flag is set, and how the others can make them. -/

namespace GaiaNet.Pool

open Lib.Potential Lib.Transition

/-- The worker will look for a task, and take one if there is one. -/
def WorkerPc.takes : WorkerPc → Bool
  | .locking | .emptying | .looking | .asleep | .woken | .dequeuing | .taking => true
  | _ => false

def WorkerPc.taker (pc : WorkerPc) : Nat := if pc.takes then 1 else 0

namespace ThreadPool

variable {workers : Nat} {Submitter Task : Type}

def takers (pool : ThreadPool workers Submitter Task) : Nat :=
  ∑ worker, (pool.worker worker).taker

/-- Nobody submits, and `shutdown` has set the flag. -/
structure Closing (pool : ThreadPool workers Submitter Task) : Prop where
  quiet : ∀ submitter, pool.submitter submitter = .outside
  flagged : pool.shutdown.flagged = true
  flag : pool.shutdownFlag = true

/-- No worker can go to sleep after `notify_all`: none is asleep then or about to wait, the one
that looks at the queue finds a task, and for one before the mutex the tasks suffice even if
all others come first. -/
structure Prepared (pool : ThreadPool workers Submitter Task) : Prop where
  awake : pool.shutdown.notified = true → ∀ worker, pool.worker worker ≠ .asleep
  waits : ∀ worker, pool.worker worker ≠ .waits
  looks : ∀ worker, pool.worker worker = .emptying ∨ pool.worker worker = .looking →
    pool.queue ≠ []
  enough : ∀ worker, pool.worker worker = .locking → pool.takers ≤ pool.queue.length

theorem takers_goto {worker : Fin workers} {before : WorkerPc}
    {pool : ThreadPool workers Submitter Task} (at_ : pool.worker worker = before) (pc : WorkerPc) :
    (pool.goto worker pc).takers + before.taker = pool.takers + pc.taker := by
  rw [← at_]
  exact sum_update WorkerPc.taker pool.worker worker pc

theorem takers_pos {pool : ThreadPool workers Submitter Task} (worker : Fin workers)
    (takes : (pool.worker worker).takes = true) : 0 < pool.takers := by
  have one : (pool.worker worker).taker = 1 := if_pos takes
  have among := Finset.single_le_sum (f := fun other => (pool.worker other).taker)
    (fun _ _ => Nat.zero_le _) (Finset.mem_univ worker)
  exact Nat.lt_of_lt_of_le (by rw [one]; decide) among

/-- Where two take, there is another. -/
theorem takers_other {pool : ThreadPool workers Submitter Task} (worker : Fin workers)
    (several : 2 ≤ pool.takers) :
    ∃ other, other ≠ worker ∧ (pool.worker other).takes = true := by
  by_contra alone
  have single : pool.takers = (pool.worker worker).taker := by
    apply Finset.sum_eq_single worker
    · intro other _ apart
      exact if_neg fun takes => alone ⟨other, apart, takes⟩
    · exact fun absent => absurd (Finset.mem_univ worker) absent
  have one : (pool.worker worker).taker ≤ 1 := by
    unfold WorkerPc.taker
    split <;> decide
  omega

theorem takers_notifyAll (pool : ThreadPool workers Submitter Task) :
    pool.notifyAll.takers = pool.takers := by
  apply Finset.sum_congr rfl
  intro worker _
  simp only [notifyAll]
  split
  · rename_i asleep
    rw [asleep]
    rfl
  · rfl

/-- A worker goes on, which takes no task from the queue. -/
theorem Prepared.goto {worker : Fin workers} {before pc : WorkerPc}
    {queueMutex : Option (QueueUser workers Submitter)} {conditionalMutex : Option (Locker workers)}
    {finished : List Task} {pool : ThreadPool workers Submitter Task} (prepared : pool.Prepared)
    (at_ : pool.worker worker = before) (asleep : pc ≠ .asleep) (waits : pc ≠ .waits)
    (locking : pc ≠ .locking) (looks : pc = .emptying ∨ pc = .looking → pool.queue ≠ [])
    (fewer : pc.taker ≤ before.taker) :
    ({ pool with
      queueMutex := queueMutex
      conditionalMutex := conditionalMutex
      finished := finished }.goto worker pc).Prepared := by
  have moved := takers_goto at_ pc
  have place (other : Fin workers) : Function.update pool.worker worker pc other = pc ∨
      Function.update pool.worker worker pc other = pool.worker other := by
    by_cases same : other = worker
    · exact Or.inl (by rw [same, Function.update_self])
    · exact Or.inr (Function.update_of_ne same ..)
  refine ⟨fun notified other here => ?_, fun other here => ?_, fun other here => ?_,
    fun other here => ?_⟩
  · rcases place other with there | there
    · exact asleep (there.symm.trans here)
    · exact prepared.awake notified other (there.symm.trans here)
  · rcases place other with there | there
    · exact waits (there.symm.trans here)
    · exact prepared.waits other (there.symm.trans here)
  · rw [goto_worker] at here
    rcases place other with there | there
    · rw [there] at here
      exact looks here
    · rw [there] at here
      exact prepared.looks other here
  · rcases place other with there | there
    · exact absurd (there.symm.trans here) locking
    · have enough := prepared.enough other (there.symm.trans here)
      change (pool.goto worker pc).takers ≤ pool.queue.length
      omega

/-- A taken task leaves one taker less. -/
theorem Prepared.taken {worker : Fin workers} {task : Task} {rest : List Task}
    {pool : ThreadPool workers Submitter Task} (prepared : pool.Prepared) (locked : pool.Locked)
    (at_ : pool.worker worker = .taking) (tasks : pool.queue = task :: rest) :
    (pool.taken worker task rest).Prepared := by
  have moved := takers_goto at_ (.unlocking true)
  change _ + 1 = _ + 0 at moved
  have place {other : Fin workers} {pc : WorkerPc}
      (here : (pool.taken worker task rest).worker other = pc) (apart : pc ≠ .unlocking true) :
      pool.worker other = pc := by
    change Function.update pool.worker worker (.unlocking true) other = pc at here
    by_cases same : other = worker
    · rw [same, Function.update_self] at here
      exact absurd here.symm apart
    · rwa [Function.update_of_ne same] at here
  refine ⟨fun notified other here => ?_, fun other here => ?_, fun other here => ?_,
    fun other here => ?_⟩
  · exact prepared.awake notified other (place here (by decide))
  · exact prepared.waits other (place here (by decide))
  · have apart : other ≠ worker := by
      rintro rfl
      rcases here with here | here <;> simp [ThreadPool.taken] at here
    -- The mutex keeps the others from looking.
    have inside : pool.InLock (.worker other) := by
      rcases here with here | here
      · exact inLock_worker (place here (by decide)) rfl
      · exact inLock_worker (place here (by decide)) rfl
    have same := locked.conditional.alone inside (inLock_worker at_ rfl)
    exact absurd (Locker.worker.inj same) apart
  · have enough := prepared.enough other (place here (by decide))
    rw [tasks, List.length_cons] at enough
    change (pool.goto worker (.unlocking true)).takers ≤ rest.length
    omega

theorem Prepared.workerStep {worker : Fin workers} {pool after : ThreadPool workers Submitter Task}
    (prepared : pool.Prepared) (locked : pool.Locked) (flag : pool.shutdownFlag = true)
    (moved : pool.workerStep worker = some after) : after.Prepared := by
  cases workerStep_moves moved with
  | enter at_ unset => cases flag.symm.trans unset
  | wait at_ empty => exact absurd empty (prepared.looks worker (Or.inr at_))
  | sleep at_ => exact absurd at_ (prepared.waits worker)
  | dequeue at_ tasks => exact prepared.taken locked at_ tasks
  | lock at_ =>
    have enough := prepared.enough worker at_
    have some := takers_pos worker (show (pool.worker worker).takes = true by rw [at_]; rfl)
    refine prepared.goto at_ nofun nofun nofun (fun _ empty => ?_) (by decide)
    rw [empty] at enough
    exact absurd (Nat.lt_of_lt_of_le some enough) (Nat.not_lt_zero _)
  | look at_ =>
    exact prepared.goto at_ nofun nofun nofun (fun _ => prepared.looks worker (Or.inl at_)) (by decide)
  | leave at_ | skip at_ | relock at_ | take at_ | miss at_ | run at_ | retry at_ | finish at_ =>
    exact prepared.goto at_ nofun nofun nofun nofun (by decide)

theorem Prepared.shutdownStep {pool after : ThreadPool workers Submitter Task}
    (prepared : pool.Prepared) (moved : pool.shutdownStep = some after) : after.Prepared := by
  cases shutdownStep_moves moved with
  | call | lock | set | unlock => exact ⟨nofun, prepared.waits, prepared.looks, prepared.enough⟩
  | join at_ | joined at_ =>
    exact ⟨fun _ => prepared.awake (by rw [at_]; rfl), prepared.waits, prepared.looks, prepared.enough⟩
  | notify at_ =>
    have place {worker : Fin workers} {pc : WorkerPc} (here : pool.notifyAll.worker worker = pc)
        (apart : pc ≠ .woken) : pool.worker worker = pc ∧ pc ≠ .asleep := by
      simp only [notifyAll] at here
      split at here
      · exact absurd here.symm apart
      · rename_i awake
        exact ⟨here, fun same => awake (here.trans same)⟩
    refine ⟨fun _ worker here => ?_, fun worker here => ?_, fun worker here => ?_,
      fun worker here => ?_⟩
    · exact (place here (by decide)).2 rfl
    · exact prepared.waits worker (place here (by decide)).1
    · refine prepared.looks worker ?_
      rcases here with here | here
      · exact Or.inl (place here (by decide)).1
      · exact Or.inr (place here (by decide)).1
    · have enough := prepared.enough worker (place here (by decide)).1
      change pool.notifyAll.takers ≤ pool.queue.length
      rw [takers_notifyAll]
      exact enough

/-- A worker is asleep after `notify_all`, or the others can bring one there. -/
inductive Endangered (pool : ThreadPool workers Submitter Task) : Prop where
  | sleeps (worker : Fin workers) (notified : pool.shutdown.notified = true)
    (at_ : pool.worker worker = .asleep)
  | waits (worker : Fin workers) (at_ : pool.worker worker = .waits)
  | looks (worker : Fin workers)
    (at_ : pool.worker worker = .emptying ∨ pool.worker worker = .looking) (empty : pool.queue = [])
  | short (worker : Fin workers) (at_ : pool.worker worker = .locking)
    (fewer : pool.queue.length < pool.takers)

theorem endangered_of_not_prepared {pool : ThreadPool workers Submitter Task}
    (unprepared : ¬ pool.Prepared) : pool.Endangered := by
  by_contra safe
  refine unprepared ⟨fun notified worker asleep => ?_, fun worker at_ => ?_, fun worker at_ empty => ?_,
    fun worker at_ => ?_⟩
  · exact safe (.sleeps worker notified asleep)
  · exact safe (.waits worker at_)
  · exact safe (.looks worker at_ empty)
  · exact Nat.le_of_not_lt fun fewer => safe (.short worker at_ fewer)

/-- Another worker goes on; the one before the mutex stays there. -/
theorem short_goto {worker other : Fin workers} {before pc : WorkerPc}
    {queueMutex : Option (QueueUser workers Submitter)} {conditionalMutex : Option (Locker workers)}
    {finished : List Task} {pool : ThreadPool workers Submitter Task}
    (at_ : pool.worker worker = .locking) (fewer : pool.queue.length < pool.takers)
    (apart : worker ≠ other) (goes : pool.worker other = before) (same : before.taker ≤ pc.taker) :
    ({ pool with
      queueMutex := queueMutex
      conditionalMutex := conditionalMutex
      finished := finished }.goto other pc).Endangered := by
  have moved := takers_goto goes pc
  apply Endangered.short worker
  · rw [goto_worker, Function.update_of_ne apart]
    exact at_
  · change pool.queue.length < (pool.goto other pc).takers
    omega

/-- Another worker takes a task away. -/
theorem short_taken {worker other : Fin workers} {task : Task} {rest : List Task}
    {pool : ThreadPool workers Submitter Task} (at_ : pool.worker worker = .locking)
    (fewer : pool.queue.length < pool.takers) (apart : worker ≠ other)
    (goes : pool.worker other = .taking) (tasks : pool.queue = task :: rest) :
    (pool.taken other task rest).Endangered := by
  have moved := takers_goto goes (.unlocking true)
  change _ + 1 = _ + 0 at moved
  apply Endangered.short worker
  · rw [taken, goto_worker, Function.update_of_ne apart]
    exact at_
  · rw [tasks, List.length_cons] at fewer
    change rest.length < (pool.goto other (.unlocking true)).takers
    omega

/-- Whatever another worker does, the one before the mutex may come too late. -/
theorem short_workerStep {worker other : Fin workers} {pool after : ThreadPool workers Submitter Task}
    (at_ : pool.worker worker = .locking) (fewer : pool.queue.length < pool.takers)
    (apart : worker ≠ other) (moved : pool.workerStep other = some after) : after.Endangered := by
  cases workerStep_moves moved with
  | wait goes empty => exact .waits other (by rw [goto_worker, Function.update_self])
  | dequeue goes tasks => exact short_taken at_ fewer apart goes tasks
  | miss goes =>
    have stays : (Function.update pool.worker other (.unlocking false)) worker = .locking := by
      rw [Function.update_of_ne apart]
      exact at_
    apply Endangered.short worker stays
    change pool.queue.length < _
    rw [miss_empty goes moved]
    exact takers_pos worker (by rw [goto_worker, stays]; rfl)
  | leave goes | enter goes | lock goes | look goes | skip goes | sleep goes | relock goes | take goes
  | run goes | retry goes | finish goes => exact short_goto at_ fewer apart goes (by decide)

/-- Who stands in the block of the mutex finds nobody at the queue. -/
theorem queue_free {worker : Fin workers} {pool : ThreadPool workers Submitter Task}
    (orderly : pool.Orderly) (closing : pool.Closing) (here : (pool.worker worker).locked = true)
    (away : (pool.worker worker).atQueue = false) :
    pool.queueMutex = none := by
  cases owns : pool.queueMutex with
  | none => rfl
  | some user =>
    have inside := orderly.attained.queue user owns
    cases user with
    | submitter submitter =>
      obtain ⟨task, at_⟩ := inside
      cases (closing.quiet submitter).symm.trans at_
    | worker other =>
      have locked : (pool.worker other).locked = true := by
        simp only [AtQueue] at inside
        cases pc : pool.worker other with
        | looking | taking => rfl
        | testing | locking | emptying | waits | asleep | woken | dequeuing | unlocking | running
        | exited =>
          rw [pc] at inside
          cases inside
      have there : pool.InLock (.worker other) := locked
      have same := Locker.worker.inj (orderly.locked.conditional.alone there
        (show pool.InLock (.worker worker) from here))
      rw [AtQueue, same, away] at inside
      cases inside

theorem owner_steps {worker : Fin workers} {pool : ThreadPool workers Submitter Task}
    (orderly : pool.Orderly) (closing : pool.Closing)
    (inside : (pool.worker worker).locked = true) :
    ∃ after, pool.workerStep worker = some after := by
  apply Option.ne_none_iff_exists'.mp
  intro stuck
  simp only [workerStep] at stuck
  cases pc : pool.worker worker with
  | emptying | dequeuing =>
    have free := queue_free orderly closing inside (by rw [pc]; rfl)
    simp [pc, lockQueue, free] at stuck
  | looking | waits | taking | unlocking => simp [pc] at stuck
  | testing | locking | asleep | woken | running | exited =>
    rw [pc] at inside
    cases inside

theorem joins_only {pool after : ThreadPool workers Submitter Task}
    (notified : pool.shutdown.notified = true) (moved : pool.shutdownStep = some after) :
    after.shutdown.notified = true ∧ after.worker = pool.worker := by
  unfold shutdownStep at moved
  split at moved
  case h_1 at_ | h_2 at_ | h_3 at_ | h_4 at_ | h_5 at_ =>
    rw [at_] at notified
    cases notified
  case h_6 =>
    split at moved
    · split at moved
      · cases moved
        exact ⟨rfl, rfl⟩
      · cases moved
    · cases moved
      exact ⟨rfl, rfl⟩
  case h_7 => cases moved

variable [DecidableEq Submitter]

section

variable {pool : ThreadPool workers Submitter Task}

/-- A state in which the danger remains, one step further. -/
def Advances (pool : ThreadPool workers Submitter Task) : Prop :=
  ∃ label after, settle label pool = some after ∧ after.Endangered

theorem advances_waits {worker : Fin workers} (orderly : pool.Orderly) (closing : pool.Closing)
    (at_ : pool.worker worker = .waits) : pool.Advances := by
  cases notified : pool.shutdown.notified with
  | true =>
    refine ⟨.work (.worker worker), { pool with conditionalMutex := none }.goto worker .asleep, ?_,
      .sleeps worker notified ?_⟩
    · simp [settle, workerStep, at_]
    · rw [goto_worker, Function.update_self]
  | false =>
    cases shutdown : pool.shutdown with
    | notifying =>
      refine ⟨.shutdown, { pool.notifyAll with shutdown := .joining 0 }, ?_, .waits worker ?_⟩
      · simp [settle, shutdownStep, shutdown]
      · simp [notifyAll, at_]
    | unlocking =>
      have there : pool.InLock .shutdown := Or.inr shutdown
      cases orderly.locked.conditional.alone there (inLock_worker at_ rfl)
    | outside | locking | setting =>
      have flagged := closing.flagged
      rw [shutdown] at flagged
      cases flagged
    | joining | returned =>
      rw [shutdown] at notified
      cases notified

theorem advances_looks {worker : Fin workers} (orderly : pool.Orderly) (closing : pool.Closing)
    (at_ : pool.worker worker = .emptying ∨ pool.worker worker = .looking)
    (empty : pool.queue = []) : pool.Advances := by
  rcases at_ with at_ | at_
  · have free := queue_free orderly closing (by rw [at_]; rfl) (by rw [at_]; rfl)
    refine ⟨.work (.worker worker),
      { pool with queueMutex := some (.worker worker) }.goto worker .looking, ?_,
      .looks worker (Or.inr ?_) empty⟩
    · simp [settle, workerStep, at_, lockQueue, free]
    · rw [goto_worker, Function.update_self]
  · refine ⟨.work (.worker worker), { pool with queueMutex := none }.goto worker .waits, ?_,
      .waits worker ?_⟩
    · simp [settle, workerStep, at_, empty]
    · rw [goto_worker, Function.update_self]

/-- `notify_all` comes before the worker that is to find nothing. -/
theorem advances_notify {worker : Fin workers} (orderly : pool.Orderly) (closing : pool.Closing)
    (free : pool.conditionalMutex = none) (early : pool.shutdown.notified = false)
    (at_ : pool.worker worker = .locking) (fewer : pool.queue.length < pool.takers) :
    pool.Advances := by
  cases shutdown : pool.shutdown with
  | notifying =>
    refine ⟨.shutdown, { pool.notifyAll with shutdown := .joining 0 }, ?_, .short worker ?_ ?_⟩
    · simp [settle, shutdownStep, shutdown]
    · simp [notifyAll, at_]
    · change pool.queue.length < pool.notifyAll.takers
      rw [takers_notifyAll]
      exact fewer
  | unlocking =>
    have there : pool.InLock .shutdown := Or.inr shutdown
    cases free.symm.trans (orderly.locked.conditional _ there)
  | outside | locking | setting =>
    have flagged := closing.flagged
    rw [shutdown] at flagged
    cases flagged
  | joining | returned =>
    rw [shutdown] at early
    cases early

theorem advances_short {worker : Fin workers} (orderly : pool.Orderly) (closing : pool.Closing)
    (at_ : pool.worker worker = .locking) (fewer : pool.queue.length < pool.takers) :
    (pool.shutdown.notified = true ∧ ∃ sleeper, pool.worker sleeper = .asleep) ∨ pool.Advances := by
  cases owns : pool.conditionalMutex with
  | some user =>
    right
    have inside := orderly.attained.conditional user owns
    cases user with
    | worker other =>
      have apart : worker ≠ other := by
        rintro rfl
        rw [InLock, at_] at inside
        cases inside
      obtain ⟨after, moved⟩ := owner_steps orderly closing inside
      exact ⟨.work (.worker other), after, moved, short_workerStep at_ fewer apart moved⟩
    | shutdown =>
      rcases inside with setting | unlocking
      · have flagged := closing.flagged
        rw [setting] at flagged
        cases flagged
      · refine ⟨.shutdown, { pool with conditionalMutex := none, shutdown := .notifying }, ?_,
          .short worker at_ fewer⟩
        simp [settle, shutdownStep, unlocking]
  | none =>
    by_cases empty : pool.queue = []
    · refine Or.inr ⟨.work (.worker worker),
        { pool with conditionalMutex := some (.worker worker) }.goto worker .emptying, ?_,
        .looks worker (Or.inl ?_) empty⟩
      · simp [settle, workerStep, at_, lockConditional, owns]
      · rw [goto_worker, Function.update_self]
    · have several : 2 ≤ pool.takers := by
        have some := List.length_pos_of_ne_nil empty
        omega
      obtain ⟨other, apart, takes⟩ := takers_other worker several
      have away : (pool.worker other).locked = false := by
        rw [Bool.eq_false_iff]
        intro inside
        have there : pool.InLock (.worker other) := inside
        cases owns.symm.trans (orderly.locked.conditional _ there)
      have goes (steps : ∃ after, pool.workerStep other = some after) : pool.Advances := by
        obtain ⟨after, moved⟩ := steps
        exact ⟨.work (.worker other), after, moved, short_workerStep at_ fewer apart.symm moved⟩
      cases pc : pool.worker other with
      | locking | woken =>
        exact Or.inr (goes ⟨_, by simp only [workerStep, pc, lockConditional, owns]; rfl⟩)
      | asleep =>
        cases notified : pool.shutdown.notified with
        | true => exact Or.inl ⟨rfl, other, pc⟩
        | false => exact Or.inr (advances_notify orderly closing owns notified at_ fewer)
      | emptying | looking | waits | dequeuing | taking | unlocking =>
        rw [pc] at away
        cases away
      | testing | running | exited =>
        rw [pc] at takes
        cases takes

theorem Endangered.advances (endangered : pool.Endangered) (orderly : pool.Orderly)
    (closing : pool.Closing) :
    (pool.shutdown.notified = true ∧ ∃ sleeper, pool.worker sleeper = .asleep) ∨ pool.Advances := by
  cases endangered with
  | sleeps worker notified at_ => exact Or.inl ⟨notified, worker, at_⟩
  | waits worker at_ => exact Or.inr (advances_waits orderly closing at_)
  | looks worker at_ empty => exact Or.inr (advances_looks orderly closing at_ empty)
  | short worker at_ fewer => exact advances_short orderly closing at_ fewer

variable {label : PoolLabel workers Submitter Task} {after : ThreadPool workers Submitter Task}

/-- While nobody submits, a step is one of a worker or of `shutdown`. -/
theorem Closing.cases (closing : pool.Closing) (moved : pool.settle label = some after) :
    (∃ worker, pool.workerStep worker = some after) ∨ pool.shutdownStep = some after := by
  cases label with
  | shutdown =>
    simp only [ThreadPool.settle, Option.ite_none_left_eq_some] at moved
    exact Or.inr moved.2
  | work work =>
    cases work with
    | worker worker => exact Or.inl ⟨worker, moved⟩
    | submitter submitter wakes => simp [ThreadPool.settle, submitStep, closing.quiet] at moved
    | spurious worker => cases moved
    | submit submitter task => cases moved

theorem Closing.settle (closing : pool.Closing) (moved : pool.settle label = some after) :
    after.Closing := by
  rcases closing.cases moved with ⟨worker, stepped⟩ | stepped
  · obtain ⟨pc, -, -, shutdown, flag, submits⟩ := workerStep_follows stepped
    refine ⟨fun submitter => ?_, ?_, ?_⟩
    · rw [submits, closing.quiet]
    · rw [shutdown, closing.flagged]
    · rw [flag, closing.flag]
  · have flagged := closing.flagged
    unfold shutdownStep at stepped
    split at stepped
    case h_1 at_ | h_2 at_ | h_3 at_ =>
      rw [at_] at flagged
      cases flagged
    case h_4 | h_5 =>
      cases stepped
      exact ⟨closing.quiet, rfl, closing.flag⟩
    case h_6 =>
      split at stepped
      · split at stepped
        · cases stepped
          exact ⟨closing.quiet, rfl, closing.flag⟩
        · cases stepped
      · cases stepped
        exact ⟨closing.quiet, rfl, closing.flag⟩
    case h_7 => cases stepped

theorem Prepared.settle (prepared : pool.Prepared) (orderly : pool.Orderly) (closing : pool.Closing)
    (moved : pool.settle label = some after) : after.Prepared := by
  rcases closing.cases moved with ⟨worker, stepped⟩ | stepped
  · exact prepared.workerStep orderly.locked closing.flag stepped
  · exact prepared.shutdownStep stepped

/-- Nobody wakes a worker that is asleep after `notify_all`. -/
theorem sleeps_settle {worker : Fin workers} (closing : pool.Closing)
    (notified : pool.shutdown.notified = true) (asleep : pool.worker worker = .asleep)
    (moved : pool.settle label = some after) :
    after.shutdown.notified = true ∧ after.worker worker = .asleep := by
  rcases closing.cases moved with ⟨other, stepped⟩ | stepped
  · obtain ⟨pc, follows, whole, shutdown, -⟩ := workerStep_follows stepped
    have apart : worker ≠ other := by
      rintro rfl
      rw [asleep] at follows
      cases follows
    rw [shutdown, whole, Function.update_of_ne apart]
    exact ⟨notified, asleep⟩
  · obtain ⟨later, same⟩ := joins_only notified stepped
    rw [same]
    exact ⟨later, asleep⟩

/-- The others bring the worker to sleep. -/
theorem Endangered.reaches [Fintype Submitter] (endangered : pool.Endangered)
    (orderly : pool.Orderly) (closing : pool.Closing) :
    ∃ lost, Reaches ThreadPool.settle pool lost ∧ (lost.Orderly ∧ lost.Closing ∧ lost.Endangered) ∧
      lost.shutdown.notified = true ∧ ∃ sleeper, lost.worker sleeper = .asleep := by
  apply reaches_of_lowers potential
    (fun (state : ThreadPool workers Submitter Task) =>
      state.Orderly ∧ state.Closing ∧ state.Endangered)
  · rintro state ⟨orderly, closing, endangered⟩
    rcases endangered.advances orderly closing with there | ⟨label, after, moved, still⟩
    · exact Or.inl there
    · exact Or.inr ⟨label, after, moved,
        ⟨orderly.next (settle_next moved), closing.settle moved, still⟩, lowers_settle orderly moved⟩
  · exact ⟨orderly, closing, endangered⟩

/-- A worker that sleeps after `notify_all` sleeps on. -/
theorem sleeps_reaches {worker : Fin workers} {final : ThreadPool workers Submitter Task}
    (closing : pool.Closing) (notified : pool.shutdown.notified = true)
    (asleep : pool.worker worker = .asleep) (rest : Reaches ThreadPool.settle pool final) :
    final.worker worker = .asleep := by
  have kept := rest.invariant (fun state => state.Closing ∧ state.shutdown.notified = true ∧
    state.worker worker = .asleep) ⟨closing, notified, asleep⟩ ?_
  · exact kept.2.2
  · rintro label before after ⟨closing, notified, asleep⟩ moved
    exact ⟨closing.settle moved, sleeps_settle closing notified asleep moved⟩

theorem Prepared.reaches {final : ThreadPool workers Submitter Task} (prepared : pool.Prepared)
    (orderly : pool.Orderly) (closing : pool.Closing) (rest : Reaches ThreadPool.settle pool final) :
    final.Orderly ∧ final.Closing ∧ final.Prepared := by
  apply rest.invariant fun state => state.Orderly ∧ state.Closing ∧ state.Prepared
  · exact ⟨orderly, closing, prepared⟩
  · rintro label before after ⟨orderly, closing, prepared⟩ moved
    exact ⟨orderly.next (settle_next moved), closing.settle moved,
      prepared.settle orderly closing moved⟩

/-- The flag is set once `shutdown` is past it. -/
theorem flag_set (path : Reaches next (start : ThreadPool workers Submitter Task) pool)
    (flagged : pool.shutdown.flagged = true) : pool.shutdownFlag = true := by
  refine path.invariant (fun state => state.shutdown.flagged = true → state.shutdownFlag = true)
    nofun ?_ flagged
  intro label before after holds moved flagged
  cases label with
  | work label =>
    obtain ⟨shutdown, flag⟩ := work_shutdown moved
    rw [shutdown] at flagged
    rw [flag]
    exact holds flagged
  | shutdown =>
    cases shutdownStep_move moved with
    | plain _ flag earlier _ =>
      rw [flag]
      exact holds (earlier flagged)
    | set _ _ flag _ => exact flag
    | notify at_ flag _ =>
      rw [flag]
      exact holds (by rw [at_]; rfl)

end

/-- Once the flag is set and nobody submits: `shutdown` returns with all workers gone, in
whatever order the steps are taken, exactly if no worker can go to sleep after `notify_all`. -/
theorem shutdown_returns_iff [Fintype Submitter] (pool : ThreadPool workers Submitter Task)
    (path : Reaches next (start : ThreadPool workers Submitter Task) pool)
    (quiet : ∀ submitter, pool.submitter submitter = .outside)
    (flagged : pool.shutdown.flagged = true) :
    (∀ final, Reaches settle pool final → Halted settle final →
      final.shutdown = .returned ∧ ∀ worker, final.worker worker = .exited) ↔ pool.Prepared := by
  have orderly := reaches_orderly path
  have closing : pool.Closing := ⟨quiet, flagged, flag_set path flagged⟩
  constructor
  · intro returns
    by_contra unprepared
    obtain ⟨lost, way, ⟨orderly, closing, -⟩, notified, sleeper, asleep⟩ :=
      (endangered_of_not_prepared unprepared).reaches orderly closing
    obtain ⟨final, rest, halted⟩ := orderly.settles
    have still := sleeps_reaches closing notified asleep rest
    have gone := (returns final (way.trans rest) halted).2 sleeper
    cases still.symm.trans gone
  · intro prepared final rest halted
    obtain ⟨orderly, closing, prepared⟩ := prepared.reaches orderly closing rest
    rcases halted_shutdown halted orderly with outside | returned | ⟨worker, joining, asleep⟩
    · have flagged := closing.flagged
      rw [outside] at flagged
      cases flagged
    · exact returned
    · exact absurd asleep (prepared.awake (by rw [joining]; rfl) worker)

/-- A worker in its loop when `shutdown` has set the flag, before its test of it or past it. -/
def flaggedAt (worker : Fin workers) (steps : Nat) : List (PoolLabel workers Unit String) :=
  [List.replicate steps (.work (.worker worker)), List.replicate 3 .shutdown].flatten

theorem shutdown_returns_iff_one :
    (∃ pool : ThreadPool 1 Unit String, run next (flaggedAt 0 0) start = some pool ∧
      ∀ final, Reaches settle pool final → Halted settle final →
        final.shutdown = .returned ∧ ∀ worker, final.worker worker = .exited) ∧
    ∃ pool : ThreadPool 1 Unit String, run next (flaggedAt 0 1) start = some pool ∧
      ¬ ∀ final, Reaches settle pool final → Halted settle final →
        final.shutdown = .returned ∧ ∀ worker, final.worker worker = .exited := by
  constructor
  · have ran : (run next (flaggedAt 0 0) (start : ThreadPool 1 Unit String)).map
        (fun pool => (pool.worker 0, pool.shutdown, pool.submitter ())) =
        some (.testing, .unlocking, .outside) := by
      decide +kernel
    obtain ⟨pool, finished, seen⟩ := Option.map_eq_some_iff.mp ran
    simp only [Prod.mk.injEq] at seen
    obtain ⟨testing, shutdown, quiet⟩ := seen
    have place (worker : Fin 1) : pool.worker worker = .testing := by
      rw [Subsingleton.elim worker 0, testing]
    refine ⟨pool, finished, (shutdown_returns_iff pool (Reaches.ofRun _ finished) (fun _ => quiet)
      (by rw [shutdown]; rfl)).mpr ?_⟩
    constructor
    all_goals simp [place]
  · have ran : (run next (flaggedAt 0 1) (start : ThreadPool 1 Unit String)).map
        (fun pool => (pool.worker 0, pool.shutdown, pool.submitter (), pool.queue)) =
        some (.locking, .unlocking, .outside, []) := by
      decide +kernel
    obtain ⟨pool, finished, seen⟩ := Option.map_eq_some_iff.mp ran
    simp only [Prod.mk.injEq] at seen
    obtain ⟨locking, shutdown, quiet, empty⟩ := seen
    refine ⟨pool, finished, fun returns => ?_⟩
    have prepared := (shutdown_returns_iff pool (Reaches.ofRun _ finished) (fun _ => quiet)
      (by rw [shutdown]; rfl)).mp returns
    have few := prepared.enough 0 locking
    rw [empty] at few
    exact absurd (takers_pos 0 (by rw [locking]; rfl)) (Nat.not_lt_of_le few)

/-- What a step leaves of a pool whose workers have all left. -/
theorem next_exited {label : PoolLabel workers Submitter Task}
    {pool after : ThreadPool workers Submitter Task} (joined : pool.Joined)
    (returned : pool.shutdown = .returned) (moved : pool.next label = some after) :
    after.shutdown = .returned ∧ after.finished = pool.finished ∧ pool.queue <+: after.queue := by
  have exited := joined.returned returned
  have shutdown : after.shutdown = .returned := by
    cases label with
    | work label => exact (work_shutdown moved).1.trans returned
    | shutdown => simp [next, shutdownStep, returned] at moved
  refine ⟨shutdown, ?_⟩
  cases next_move moved with
  | quiet quiet => exact ⟨quiet.finished, by rw [quiet.queue]⟩
  | enqueue task => exact ⟨rfl, List.prefix_append _ _⟩
  | @dequeue worker _ _ at_ => cases at_.symm.trans (exited worker)
  | @finish worker at_ => cases at_.symm.trans (exited worker)

/-- Once `shutdown` has returned nothing runs any more: the tasks in the queue, and those that
`submit` goes on to accept, stay there. -/
theorem shutdown_final (pool after : ThreadPool workers Submitter Task)
    (path : Reaches next (start : ThreadPool workers Submitter Task) pool)
    (returned : pool.shutdown = .returned) (later : Reaches next pool after) :
    after.finished = pool.finished ∧ pool.queue <+: after.queue ∧
      (after.enqueued : Multiset Task) = after.queue + after.finished := by
  have kept := later.invariant (fun state => state.Orderly ∧ state.shutdown = .returned ∧
    state.finished = pool.finished ∧ pool.queue <+: state.queue)
    ⟨reaches_orderly path, returned, rfl, List.prefix_refl _⟩ ?_
  · obtain ⟨orderly, returned, finished, queue⟩ := kept
    refine ⟨finished, queue, ?_⟩
    have nothing : after.heldTasks = 0 := by
      apply Finset.sum_eq_zero
      intro worker _
      simp [held, orderly.joined.returned returned, WorkerPc.holds]
    rw [orderly.conserved.submitted, nothing, add_zero]
  · rintro label before next ⟨orderly, returned, finished, queue⟩ moved
    obtain ⟨still, same, grown⟩ := next_exited orderly.joined returned moved
    exact ⟨orderly.next moved, still, same.trans finished, queue.trans grown⟩

/-- A task is submitted after `shutdown` has returned. -/
def late (worker : Fin workers) : List (PoolLabel workers Unit String) :=
  [List.replicate 4 .shutdown, [.work (.worker worker)], List.replicate 3 .shutdown].flatten

theorem shutdown_final_late :
    ∃ pool after : ThreadPool 1 Unit String, Reaches next start pool ∧
      pool.shutdown = .returned ∧
      run next (.work (.submit () "task") :: List.replicate 3 (.work (.submitter () none))) pool =
        some after ∧
      after.finished = [] ∧ (after.enqueued : Multiset String) = after.queue + after.finished := by
  have ran : ((run next (late 0) (start : ThreadPool 1 Unit String)).bind fun pool =>
      (run next (.work (.submit () "task") :: List.replicate 3 (.work (.submitter () none)))
        pool).map fun after => (pool.shutdown, pool.finished)) = some (.returned, []) := by
    decide +kernel
  obtain ⟨pool, finished, more⟩ := Option.bind_eq_some_iff.mp ran
  obtain ⟨after, later, seen⟩ := Option.map_eq_some_iff.mp more
  simp only [Prod.mk.injEq] at seen
  obtain ⟨returned, none⟩ := seen
  obtain ⟨same, -, tasks⟩ := shutdown_final pool after (Reaches.ofRun _ finished) returned
    (Reaches.ofRun _ later)
  exact ⟨pool, after, Reaches.ofRun _ finished, returned, later, same.trans none, tasks⟩

end ThreadPool

end GaiaNet.Pool
