import GaiaNet.Lib.Diamond
import GaiaNet.Pool.Settle
import GaiaNet.Pool.Shutdown

/-! Where a pool that is left alone comes to rest. -/

namespace GaiaNet.Pool

open Lib.Mutex Lib.Transition

namespace ThreadPool

variable {workers : Nat} {Submitter Task : Type}

/-- The workers that `shutdown` has joined have left their loop. -/
structure Joined (pool : ThreadPool workers Submitter Task) : Prop where
  joining : ∀ i, pool.shutdown = .joining i → ∀ worker : Fin workers, worker < i →
    pool.worker worker = .exited
  returned : pool.shutdown = .returned → ∀ worker, pool.worker worker = .exited

/-- No call is running but a `shutdown` that joins a worker asleep; the workers sleep or have
left, and every task that left the queue has been run. -/
structure AtRest (pool : ThreadPool workers Submitter Task) : Prop where
  submitters : ∀ submitter, pool.submitter submitter = .outside
  resting : ∀ worker, pool.worker worker = .asleep ∨ pool.worker worker = .exited
  tasks : (pool.enqueued : Multiset Task) = pool.queue + pool.finished
  shutdown : pool.shutdown = .outside ∨
    (pool.shutdown = .returned ∧ ∀ worker, pool.worker worker = .exited) ∨
    ∃ worker : Fin workers, pool.shutdown = .joining worker ∧ pool.worker worker = .asleep

theorem Joined.of_same {pool after : ThreadPool workers Submitter Task} (joined : pool.Joined)
    (shutdown : after.shutdown = pool.shutdown)
    (stays : ∀ worker, pool.worker worker = .exited → after.worker worker = .exited) :
    after.Joined := by
  constructor
  · intro i at_ worker earlier
    exact stays worker (joined.joining i (shutdown.symm.trans at_) worker earlier)
  · intro at_ worker
    exact stays worker (joined.returned (shutdown.symm.trans at_) worker)

theorem Joined.shutdownStep {pool after : ThreadPool workers Submitter Task} (joined : pool.Joined)
    (moved : pool.shutdownStep = some after) : after.Joined := by
  unfold ThreadPool.shutdownStep at moved
  split at moved
  case h_1 | h_3 | h_4 =>
    cases moved
    exact ⟨nofun, nofun⟩
  case h_2 =>
    obtain ⟨locked, took, rfl⟩ := Option.map_eq_some_iff.mp moved
    exact ⟨nofun, nofun⟩
  case h_5 =>
    cases moved
    refine ⟨fun i at_ worker earlier => ?_, nofun⟩
    cases at_
    exact absurd earlier (Nat.not_lt_zero _)
  case h_6 i at_ =>
    split at moved
    · rename_i inside
      split at moved
      · rename_i exited
        cases moved
        refine ⟨fun k later worker earlier => ?_, nofun⟩
        cases later
        rcases Nat.lt_succ_iff_lt_or_eq.mp earlier with before | here
        · exact joined.joining i at_ worker before
        · have same : worker = ⟨i, inside⟩ := Fin.ext here
          rw [same]
          exact exited
      · cases moved
    · rename_i last
      cases moved
      refine ⟨nofun, fun _ worker => ?_⟩
      exact joined.joining i at_ worker (Nat.lt_of_lt_of_le worker.isLt (Nat.le_of_not_lt last))
  case h_7 => cases moved

theorem wake_exited {worker other : Fin workers} {pool : ThreadPool workers Submitter Task}
    (exited : pool.worker worker = .exited) : (pool.wake other).worker worker = .exited := by
  unfold wake
  split
  · rename_i asleep
    have apart : worker ≠ other := fun same => by
      rw [same, asleep] at exited
      cases exited
    rw [goto_worker, Function.update_of_ne apart]
    exact exited
  · exact exited

variable [DecidableEq Submitter]

/-- A worker that has left its loop does not come back. -/
theorem work_exited {label : Work workers Submitter Task} {worker : Fin workers}
    {pool after : ThreadPool workers Submitter Task} (moved : pool.work label = some after)
    (exited : pool.worker worker = .exited) : after.worker worker = .exited := by
  cases work_moves moved with
  | @worker _ other stepped =>
    obtain ⟨pc, follows, whole, -⟩ := workerStep_follows stepped
    have apart : worker ≠ other := fun same => by
      rw [← same, exited] at follows
      cases follows
    rw [whole, Function.update_of_ne apart]
    exact exited
  | spurious => exact wake_exited exited
  | submit | lock | enqueue | unheard => exact exited
  | notify asleep => exact wake_exited exited

theorem Joined.next {label : PoolLabel workers Submitter Task}
    {pool after : ThreadPool workers Submitter Task} (joined : pool.Joined)
    (moved : pool.next label = some after) : after.Joined := by
  cases label with
  | shutdown => exact joined.shutdownStep moved
  | work label =>
    exact joined.of_same (work_shutdown moved).1 fun worker exited => work_exited moved exited

/-- What holds in every state. -/
structure Orderly (pool : ThreadPool workers Submitter Task) : Prop where
  locked : pool.Locked
  attained : pool.Attained
  conserved : pool.Conserved
  joined : pool.Joined

theorem Orderly.next {label : PoolLabel workers Submitter Task}
    {pool after : ThreadPool workers Submitter Task} (orderly : pool.Orderly)
    (moved : pool.next label = some after) : after.Orderly :=
  ⟨orderly.locked.next moved, orderly.attained.next moved,
    (next_move moved).conserved orderly.conserved, orderly.joined.next moved⟩

theorem reaches_orderly {pool : ThreadPool workers Submitter Task}
    (path : Reaches next (start : ThreadPool workers Submitter Task) pool) : pool.Orderly := by
  apply path.invariant Orderly
  · exact ⟨Locked.start, Attained.start, start_conserved, nofun, nofun⟩
  · exact fun _ _ _ orderly moved => orderly.next moved

section

variable {pool : ThreadPool workers Submitter Task}

theorem halted_queueMutex (halted : Halted settle pool) (attained : pool.Attained) :
    pool.queueMutex = none := by
  cases owns : pool.queueMutex with
  | none => rfl
  | some user =>
    have inside := attained.queue user owns
    cases user with
    | worker worker =>
      have stuck := halted (.work (.worker worker))
      simp only [settle, workerStep] at stuck
      simp only [AtQueue] at inside
      cases pc : pool.worker worker with
      | looking => simp [pc] at stuck
      | taking => simp [pc] at stuck
      | testing | locking | emptying | waits | asleep | woken | dequeuing | unlocking | running
      | exited =>
        rw [pc] at inside
        cases inside
    | submitter submitter =>
      obtain ⟨task, at_⟩ := inside
      have stuck := halted (.work (.submitter submitter none))
      simp [settle, submitStep, at_] at stuck

theorem halted_conditionalMutex (halted : Halted settle pool) (attained : pool.Attained) :
    pool.conditionalMutex = none := by
  have free := halted_queueMutex halted attained
  cases owns : pool.conditionalMutex with
  | none => rfl
  | some user =>
    have inside := attained.conditional user owns
    cases user with
    | worker worker =>
      have stuck := halted (.work (.worker worker))
      simp only [settle, workerStep] at stuck
      simp only [InLock] at inside
      cases pc : pool.worker worker with
      | emptying | dequeuing => simp [pc, lockQueue, free] at stuck
      | looking | waits | taking | unlocking => simp [pc] at stuck
      | testing | locking | asleep | woken | running | exited =>
        rw [pc] at inside
        cases inside
    | shutdown =>
      have stuck := halted .shutdown
      rcases inside with at_ | at_ <;> simp [settle, shutdownStep, at_] at stuck

theorem halted_submitter (halted : Halted settle pool) (attained : pool.Attained)
    (submitter : Submitter) : pool.submitter submitter = .outside := by
  have free := halted_queueMutex halted attained
  cases at_ : pool.submitter submitter with
  | outside => rfl
  | locking task =>
    have stuck := halted (.work (.submitter submitter none))
    simp [settle, submitStep, at_, lockQueue, free] at stuck
  | enqueuing task =>
    have stuck := halted (.work (.submitter submitter none))
    simp [settle, submitStep, at_] at stuck
  | notifying =>
    by_cases sleeps : ∃ worker, pool.worker worker = .asleep
    · obtain ⟨worker, asleep⟩ := sleeps
      have stuck := halted (.work (.submitter submitter (some worker)))
      simp [settle, submitStep, at_, notifyOne, asleep] at stuck
    · have stuck := halted (.work (.submitter submitter none))
      simp [settle, submitStep, at_, notifyOne, not_exists.mp sleeps] at stuck

theorem halted_worker (halted : Halted settle pool) (attained : pool.Attained)
    (worker : Fin workers) : pool.worker worker = .asleep ∨ pool.worker worker = .exited := by
  have conditional := halted_conditionalMutex halted attained
  have queue := halted_queueMutex halted attained
  have stuck := halted (.work (.worker worker))
  simp only [settle, workerStep] at stuck
  cases pc : pool.worker worker with
  | asleep => exact Or.inl rfl
  | exited => exact Or.inr rfl
  | locking | woken => simp [pc, lockConditional, conditional] at stuck
  | emptying | dequeuing => simp [pc, lockQueue, queue] at stuck
  | testing | looking | waits | taking | unlocking | running => simp [pc] at stuck

theorem halted_shutdown (halted : Halted settle pool) (orderly : pool.Orderly) :
    pool.shutdown = .outside ∨
      (pool.shutdown = .returned ∧ ∀ worker, pool.worker worker = .exited) ∨
      ∃ worker : Fin workers, pool.shutdown = .joining worker ∧ pool.worker worker = .asleep := by
  have stuck := halted .shutdown
  simp only [settle] at stuck
  cases at_ : pool.shutdown with
  | outside => exact Or.inl rfl
  | returned => exact Or.inr (Or.inl ⟨rfl, orderly.joined.returned at_⟩)
  | locking =>
    have free := halted_conditionalMutex halted orderly.attained
    simp [shutdownStep, at_, lockConditional, free] at stuck
  | setting | unlocking | notifying => simp [shutdownStep, at_] at stuck
  | joining i =>
    by_cases inside : i < workers
    · refine Or.inr (Or.inr ⟨⟨i, inside⟩, rfl, ?_⟩)
      rcases halted_worker halted orderly.attained ⟨i, inside⟩ with asleep | exited
      · exact asleep
      · simp [shutdownStep, at_, inside, exited] at stuck
    · simp [shutdownStep, at_, inside] at stuck

theorem halted_atRest (halted : Halted settle pool) (orderly : pool.Orderly) : pool.AtRest := by
  have resting := halted_worker halted orderly.attained
  refine ⟨halted_submitter halted orderly.attained, resting, ?_, halted_shutdown halted orderly⟩
  have nothing : pool.heldTasks = 0 := by
    apply Finset.sum_eq_zero
    intro worker _
    rcases resting worker with at_ | at_ <;> simp [held, at_, WorkerPc.holds]
  rw [orderly.conserved.submitted, nothing, add_zero]

theorem lowers_settle [Fintype Submitter] {label : PoolLabel workers Submitter Task}
    {after : ThreadPool workers Submitter Task} (orderly : pool.Orderly)
    (moved : pool.settle label = some after) : after.potential < pool.potential := by
  cases label with
  | shutdown =>
    simp only [settle, Option.ite_none_left_eq_some] at moved
    exact lowers_shutdownStep moved.1 moved.2
  | work work =>
    cases work with
    | worker worker => exact lowers_workerStep orderly.locked moved
    | submitter submitter wakes => exact lowers_submitStep moved
    | spurious worker => cases moved
    | submit submitter task => cases moved

theorem Orderly.settles [Fintype Submitter] (orderly : pool.Orderly) :
    ∃ final, Reaches settle pool final ∧ Halted settle final := by
  apply reaches_halted fun (state : ThreadPool workers Submitter Task) budget =>
    state.Orderly ∧ state.potential = budget
  · rintro label before after budget ⟨orderly, rfl⟩ moved
    exact ⟨after.potential, lowers_settle orderly moved, orderly.next (settle_next moved), rfl⟩
  · exact ⟨orderly, rfl⟩

end

/-- A pool to which no more calls are made comes to rest, after a bounded number of steps in
whatever order: only a `shutdown` that joins a worker asleep is left waiting. -/
theorem pool_settles [Fintype Submitter] (pool : ThreadPool workers Submitter Task)
    (path : Reaches next (start : ThreadPool workers Submitter Task) pool) :
    (∀ labels final, run settle labels pool = some final →
      labels.length + final.potential ≤ pool.potential) ∧
    ∀ final, Reaches settle pool final → Halted settle final → final.AtRest := by
  constructor
  · intro labels final ran
    apply run_length_le Orderly potential _ _ labels (reaches_orderly path) ran
    · exact fun _ _ _ orderly moved => orderly.next (settle_next moved)
    · exact fun _ _ _ orderly moved => lowers_settle orderly moved
  · intro final rest halted
    exact halted_atRest halted (reaches_orderly (path.trans (settle_reaches rest)))

/-- Two workers share two tasks; the second is still running. -/
theorem pool_settles_shared :
    ∃ pool : ThreadPool 2 Bool String, pool.finished = ["first"] ∧ pool.worker 1 = .running ∧
      ∀ final, Reaches settle pool final → Halted settle final → final.AtRest := by
  have ran : (run next (shared 0 1) (start : ThreadPool 2 Bool String)).map
      (fun pool => (pool.finished, pool.worker 1)) = some (["first"], .running) := by
    decide +kernel
  obtain ⟨pool, finished, same⟩ := Option.map_eq_some_iff.mp ran
  exact ⟨pool, (Prod.mk.inj same).1, (Prod.mk.inj same).2,
    (pool_settles pool (Reaches.ofRun _ finished)).2⟩

end ThreadPool

end GaiaNet.Pool
