import GaiaNet.Pool.Locks

/-! `shutdown` against the loops of the workers: the flag is tested before
`m_conditional_mutex` is locked, and not again before the wait. -/

namespace GaiaNet.Pool

open Lib.Transition

/-- `notify_all` has been issued. -/
def ShutdownPc.notified : ShutdownPc → Bool
  | .joining _ | .returned => true
  | _ => false

/-- The flag has been set. -/
def ShutdownPc.flagged : ShutdownPc → Bool
  | .unlocking | .notifying | .joining _ | .returned => true
  | _ => false

/-- The worker has passed its test of `m_shutdown` and not yet decided whether to wait, or it is
about to wait. -/
def WorkerPc.toWait : WorkerPc → Bool
  | .locking | .emptying | .looking | .waits => true
  | _ => false

theorem ShutdownPc.notified_flagged {pc : ShutdownPc} (notified : pc.notified = true) :
    pc.flagged = true := by
  cases pc with
  | joining | returned => rfl
  | outside | locking | setting | unlocking | notifying => cases notified

namespace ThreadPool

variable {workers : Nat} {Submitter Task : Type}

/-- A pool with tasks in its queue, all workers at the start of their loop. -/
def loaded (tasks : List Task) : ThreadPool workers Submitter Task :=
  { start with queue := tasks, enqueued := tasks }

/-- Once `notify_all` has been issued no worker is blocked in `wait`, whichever one is joined. -/
def NoneAsleep (pool : ThreadPool workers Submitter Task) : Prop :=
  pool.shutdown.notified = true → ∀ worker, pool.worker worker ≠ .asleep

/-- The worker does not call `wait` after `notify_all`. -/
def Prompt : PoolLabel workers Submitter Task → ThreadPool workers Submitter Task → Prop
  | .work (.worker worker), pool => pool.worker worker = .waits → pool.shutdown.notified = false
  | _, _ => True

/-- The flag is not set while a worker stands between its test of it and the mutex. -/
def Unraced : PoolLabel workers Submitter Task → ThreadPool workers Submitter Task → Prop
  | .shutdown, pool => pool.shutdown = .setting → ∀ worker, pool.worker worker ≠ .locking
  | _, _ => True

/-- What the steps of the other threads do to the workers: some wake up. -/
structure Wakes (before after : ThreadPool workers Submitter Task) : Prop where
  worker : ∀ worker, after.worker worker = before.worker worker ∨ after.worker worker = .woken
  shutdown : after.shutdown = before.shutdown
  shutdownFlag : after.shutdownFlag = before.shutdownFlag

theorem wake_wakes {worker : Fin workers} (pool : ThreadPool workers Submitter Task) :
    Wakes pool (pool.wake worker) := by
  unfold wake
  split
  · refine ⟨fun other => ?_, rfl, rfl⟩
    by_cases same : other = worker
    · subst same
      exact Or.inr (by simp)
    · exact Or.inl (by simp [same])
  · exact ⟨fun _ => Or.inl rfl, rfl, rfl⟩

/-- The call of `wait` after `notify_all`. -/
theorem overtaken_asleep {worker : Fin workers} {pool : ThreadPool workers Submitter Task}
    (at_ : pool.worker worker = .waits) :
    ∃ after, pool.workerStep worker = some after ∧ after.worker worker = .asleep ∧
      after.shutdown = pool.shutdown := by
  refine ⟨{ pool with conditionalMutex := none }.goto worker .asleep, ?_, by simp, rfl⟩
  simp [workerStep, at_]

/-- What a step of `shutdown` does: it sets the flag, wakes all workers, or does neither. -/
inductive ShutdownMove (before after : ThreadPool workers Submitter Task) : Prop where
  | plain (worker : after.worker = before.worker) (flag : after.shutdownFlag = before.shutdownFlag)
    (flagged : after.shutdown.flagged = true → before.shutdown.flagged = true)
    (notified : after.shutdown.notified = true → before.shutdown.notified = true)
  | set (at_ : before.shutdown = .setting) (worker : after.worker = before.worker)
    (flag : after.shutdownFlag = true) (goes : after.shutdown = .unlocking)
  | notify (at_ : before.shutdown = .notifying) (flag : after.shutdownFlag = before.shutdownFlag)
    (worker : ∀ worker, after.worker worker = .woken ∨
      after.worker worker = before.worker worker ∧ after.worker worker ≠ .asleep)

theorem shutdownStep_move {pool after : ThreadPool workers Submitter Task}
    (moved : pool.shutdownStep = some after) : ShutdownMove pool after := by
  cases shutdownStep_moves moved with
  | call | lock => exact .plain rfl rfl nofun nofun
  | set at_ => exact .set at_ rfl rfl rfl
  | unlock at_ => exact .plain rfl rfl (fun _ => at_ ▸ rfl) nofun
  | notify at_ =>
    refine .notify at_ rfl fun worker => ?_
    simp only [notifyAll]
    split
    · exact Or.inl rfl
    · exact Or.inr ⟨rfl, by assumption⟩
  | join at_ | joined at_ => exact .plain rfl rfl (fun _ => at_ ▸ rfl) fun _ => at_ ▸ rfl

/-- With the flag set, only a worker on its way to `wait` stays on it. -/
theorem toWait_edge (follows : WorkerPc.Follows true before pc) (here : pc.toWait = true) :
    before.toWait = true := by
  cases follows with
  | enter unset => cases unset
  | lock | look | wait => rfl
  | leave | skip | sleep | relock | take | unlock | run | retry | again => cases here

/-- Where no worker was caught between test and mutex when the flag was set, none waits any more. -/
structure Past (pool : ThreadPool workers Submitter Task) : Prop where
  locked : pool.Locked
  flagged : pool.shutdown.flagged = true → pool.shutdownFlag = true
  decided : pool.shutdownFlag = true → ∀ worker, ¬ (pool.worker worker).toWait = true

/-- The flag is set under the mutex: only the workers before it can be on their way to `wait`. -/
theorem Past.set {pool : ThreadPool workers Submitter Task} (past : pool.Past)
    (at_ : pool.shutdown = .setting) (unraced : ∀ worker, pool.worker worker ≠ .locking) :
    ∀ worker, ¬ (pool.worker worker).toWait = true := by
  intro worker here
  have outside : ¬ pool.InLock (.worker worker) := fun inside =>
    nomatch past.locked.conditional.alone inside (show pool.InLock .shutdown from Or.inl at_)
  cases pc : pool.worker worker with
  | locking => exact unraced worker pc
  | emptying | looking | waits => exact outside (inLock_worker pc rfl)
  | testing | asleep | woken | dequeuing | taking | unlocking | running | exited =>
    rw [pc] at here
    cases here

theorem Past.shutdown {pool after : ThreadPool workers Submitter Task} (past : pool.Past)
    (unraced : pool.shutdown = .setting → ∀ worker, pool.worker worker ≠ .locking)
    (moved : pool.shutdownStep = some after) : after.Past := by
  have locked := past.locked.shutdownStep moved
  cases shutdownStep_move moved with
  | plain worker flag flagged _ =>
    refine ⟨locked, ?_, ?_⟩
    · rw [flag]
      exact fun later => past.flagged (flagged later)
    · rw [flag, worker]
      exact past.decided
  | set at_ worker flag _ =>
    refine ⟨locked, fun _ => flag, fun _ => ?_⟩
    rw [worker]
    exact past.set at_ (unraced at_)
  | notify at_ flag woken =>
    have set : pool.shutdownFlag = true := past.flagged (at_ ▸ rfl)
    refine ⟨locked, fun _ => flag.trans set, fun _ worker here => ?_⟩
    rcases woken worker with awake | ⟨same, -⟩
    · rw [awake] at here
      cases here
    · rw [same] at here
      exact past.decided set worker here

variable [DecidableEq Submitter]

theorem work_wakes {label : Work workers Submitter Task}
    {pool after : ThreadPool workers Submitter Task} (moved : pool.work label = some after) :
    (∃ worker, label = .worker worker) ∨ Wakes pool after := by
  cases work_moves moved with
  | @worker _ worker moved => exact Or.inl ⟨worker, rfl⟩
  | spurious asleep => exact Or.inr pool.wake_wakes
  | submit | lock | enqueue | unheard => exact Or.inr ⟨fun _ => Or.inl rfl, rfl, rfl⟩
  | @notify _ worker _ asleep =>
    obtain ⟨woken, shutdown, flag⟩ : Wakes pool (pool.wake worker) := pool.wake_wakes
    exact Or.inr ⟨woken, shutdown, flag⟩

/-- Points that no worker is at, none is woken to and no step of this one leads to. -/
theorem work_avoids (bad : WorkerPc → Prop) {label : Work workers Submitter Task}
    {pool after : ThreadPool workers Submitter Task} (woken : ¬ bad .woken)
    (edge : ∀ worker pc, label = .worker worker →
      (pool.worker worker).Follows pool.shutdownFlag pc → bad pc → bad (pool.worker worker))
    (moved : pool.work label = some after) (avoids : ∀ worker, ¬ bad (pool.worker worker)) :
    ∀ worker, ¬ bad (after.worker worker) := by
  intro other here
  rcases work_wakes moved with ⟨worker, rfl⟩ | wakes
  · obtain ⟨pc, follows, whole, -⟩ := workerStep_follows moved
    rw [whole] at here
    by_cases same : other = worker
    · subst same
      rw [Function.update_self] at here
      exact avoids other (edge other pc rfl follows here)
    · rw [Function.update_of_ne same] at here
      exact avoids other here
  · rcases wakes.worker other with same | same
    · rw [same] at here
      exact avoids other here
    · rw [same] at here
      exact woken here

/-- Only `shutdown` sets the flag. -/
theorem work_shutdown {label : Work workers Submitter Task}
    {pool after : ThreadPool workers Submitter Task} (moved : pool.work label = some after) :
    after.shutdown = pool.shutdown ∧ after.shutdownFlag = pool.shutdownFlag := by
  rcases work_wakes moved with ⟨worker, rfl⟩ | wakes
  · obtain ⟨pc, -, -, shutdown, flag, -⟩ := workerStep_follows moved
    exact ⟨shutdown, flag⟩
  · exact ⟨wakes.shutdown, wakes.shutdownFlag⟩

theorem NoneAsleep.step {label : PoolLabel workers Submitter Task}
    {pool after : ThreadPool workers Submitter Task} (noneAsleep : pool.NoneAsleep)
    (prompt : Prompt label pool) (moved : pool.next label = some after) : after.NoneAsleep := by
  intro notified
  cases label with
  | work label =>
    rw [(work_shutdown moved).1] at notified
    apply work_avoids (· = .asleep) nofun _ moved (noneAsleep notified)
    rintro worker _ rfl follows rfl
    have at_ : pool.worker worker = .waits := by
      generalize pool.worker worker = pc at follows
      cases follows
      rfl
    rw [prompt at_] at notified
    cases notified
  | shutdown =>
    intro worker asleep
    cases shutdownStep_move moved with
    | plain same _ _ begun =>
      rw [same] at asleep
      exact noneAsleep (begun notified) worker asleep
    | set _ _ _ goes =>
      rw [goes] at notified
      cases notified
    | notify _ _ woken =>
      rcases woken worker with awake | ⟨-, awake⟩
      · rw [awake] at asleep
        cases asleep
      · exact awake asleep

theorem Past.work {label : Work workers Submitter Task}
    {pool after : ThreadPool workers Submitter Task} (past : pool.Past)
    (moved : pool.work label = some after) : after.Past := by
  obtain ⟨shutdown, flag⟩ := work_shutdown moved
  refine ⟨past.locked.work moved, ?_, ?_⟩
  · rw [shutdown, flag]
    exact past.flagged
  · rw [flag]
    intro set
    apply work_avoids (fun pc => pc.toWait = true) nofun _ moved (past.decided set)
    rintro worker pc rfl follows here
    rw [set] at follows
    exact toWait_edge follows here

/-- Only a worker caught between its test of the flag and the mutex when the flag is set can wait
too late. -/
theorem prompt_of_unraced (tasks : List Task) (labels : List (PoolLabel workers Submitter Task))
    (unraced : Meets next Unraced labels (loaded tasks : ThreadPool workers Submitter Task)) :
    Meets next Prompt labels (loaded tasks : ThreadPool workers Submitter Task) := by
  have begun : (start : ThreadPool workers Submitter Task).Locked := Locked.start
  have fresh : (loaded tasks : ThreadPool workers Submitter Task).Past :=
    ⟨⟨begun.conditional, begun.queue⟩, nofun, nofun⟩
  apply Meets.weaken Past _ _ labels fresh unraced
  · intro label pool after past unraced moved
    cases label with
    | work label => exact past.work moved
    | shutdown => exact past.shutdown unraced moved
  · intro label pool past _
    cases label with
    | shutdown => exact trivial
    | work label =>
      cases label with
      | worker worker =>
        intro at_
        by_contra late
        have set := past.flagged (ShutdownPc.notified_flagged (by simpa using late))
        exact past.decided set worker (at_ ▸ rfl)
      | spurious | submit | submitter => exact trivial

theorem noneAsleep_iff_prompt (tasks : List Task)
    (labels : List (PoolLabel workers Submitter Task)) :
    Always next NoneAsleep labels (loaded tasks : ThreadPool workers Submitter Task) ↔
      Meets next Prompt labels (loaded tasks : ThreadPool workers Submitter Task) := by
  refine Always.iff_meets (fun _ => True) NoneAsleep (fun _ _ _ _ _ => trivial) ?_ ?_ ?_ labels
    trivial ?_
  · exact fun _ _ _ _ noneAsleep prompt moved => noneAsleep.step prompt moved
  · exact fun _ _ noneAsleep => noneAsleep
  · intro label pool _ _ late
    cases label with
    | shutdown => exact absurd trivial late
    | work label =>
      cases label with
      | worker worker =>
        simp only [Prompt, Classical.not_imp, Bool.not_eq_false] at late
        obtain ⟨at_, notified⟩ := late
        obtain ⟨after, moved, asleep, same⟩ := overtaken_asleep at_
        refine ⟨after, moved, fun noneAsleep => ?_⟩
        rw [← same] at notified
        exact noneAsleep notified worker asleep
      | spurious | submit | submitter => exact absurd trivial late
  · exact nofun

/-- `shutdown` leaves a worker asleep exactly when one calls `wait` after `notify_all`; it leaves
none asleep in a run that sets the flag while no worker stands between its test of the flag and
the mutex. -/
theorem shutdown_leaves_none_asleep (tasks : List Task)
    (labels : List (PoolLabel workers Submitter Task)) :
    (Always next NoneAsleep labels (loaded tasks : ThreadPool workers Submitter Task) ↔
      Meets next Prompt labels (loaded tasks : ThreadPool workers Submitter Task)) ∧
    (Meets next Unraced labels (loaded tasks : ThreadPool workers Submitter Task) →
      Always next NoneAsleep labels (loaded tasks : ThreadPool workers Submitter Task)) :=
  ⟨noneAsleep_iff_prompt tasks labels,
    fun unraced => (noneAsleep_iff_prompt tasks labels).mpr (prompt_of_unraced tasks labels unraced)⟩

/-- The worker has seen the flag unset; `shutdown` runs up to its join, and only then the worker
finds the queue empty and waits. -/
def raced (worker : Fin workers) : List (PoolLabel workers Unit String) :=
  [[.work (.worker worker)], List.replicate 5 .shutdown,
    List.replicate 4 (.work (.worker worker))].flatten

theorem shutdown_leaves_asleep :
    ∃ pool : ThreadPool 1 Unit String, Reaches next start pool ∧ ¬ pool.NoneAsleep ∧
      pool.shutdown = .joining 0 ∧ pool.worker 0 = .asleep ∧ pool.next .shutdown = none := by
  have ran : (run next (raced 0) (start : ThreadPool 1 Unit String)).map
      (fun pool => (pool.shutdown, pool.worker 0)) = some (.joining 0, .asleep) := by
    decide +kernel
  obtain ⟨pool, finished, same⟩ := Option.map_eq_some_iff.mp ran
  simp only [Prod.mk.injEq] at same
  obtain ⟨shutdown, asleep⟩ := same
  refine ⟨pool, Reaches.ofRun _ finished, fun noneAsleep => ?_, shutdown, asleep, ?_⟩
  · exact noneAsleep (shutdown ▸ rfl) 0 asleep
  · simp [next, shutdownStep, shutdown, asleep]

end ThreadPool

end GaiaNet.Pool
