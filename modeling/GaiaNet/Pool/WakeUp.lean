import GaiaNet.Pool.Shutdown

/-! Wake-ups of the pool without `shutdown`: `submit` does not lock `m_conditional_mutex`, so
a worker can go to sleep on the emptiness it saw before. Two workers do not both. -/

namespace GaiaNet.Pool

open Lib.Transition

/-- The worker will look at the queue before it sleeps. -/
def WorkerPc.watches : WorkerPc → Bool
  | .waits | .asleep | .exited => false
  | _ => true

namespace ThreadPool

variable {workers : Nat} {Submitter Task : Type}

/-- A worker is awake, or a `submit` is running that has its notification still to issue. -/
def Alert (pool : ThreadPool workers Submitter Task) : Prop :=
  (∃ worker, pool.worker worker ≠ .asleep) ∨ ∃ submitter, pool.submitter submitter ≠ .outside

/-- The workers do not all sleep on a queue with tasks that nobody will announce. -/
def Attended (pool : ThreadPool workers Submitter Task) : Prop :=
  pool.queue ≠ [] → pool.Alert

/-- Every step of a worker but the one into `wait` leaves it awake. -/
theorem workerStep_awake {worker : Fin workers} {pool after : ThreadPool workers Submitter Task}
    (moved : pool.workerStep worker = some after) (late : pool.worker worker ≠ .waits) :
    after.worker worker ≠ .asleep := by
  obtain ⟨pc, follows, whole, -⟩ := workerStep_follows moved
  rw [whole, Function.update_self]
  rintro rfl
  generalize pool.worker worker = before at follows late
  cases follows
  exact late rfl

theorem alert_asleep {worker : Fin workers} {pool : ThreadPool workers Submitter Task} :
    ({ pool with conditionalMutex := none }.goto worker .asleep).Alert ↔
      (∃ other, other ≠ worker ∧ pool.worker other ≠ .asleep) ∨
        ∃ submitter, pool.submitter submitter ≠ .outside := by
  refine or_congr (exists_congr fun other => ?_) Iff.rfl
  by_cases same : other = worker
  · simp [same]
  · simp [same]

/-- Nobody has called `shutdown`. -/
structure InService (pool : ThreadPool workers Submitter Task) : Prop where
  shutdown : pool.shutdown = .outside
  flag : pool.shutdownFlag = false
  none : ∀ worker, pool.worker worker ≠ .exited

/-- A queue with tasks has a worker that will look at it, or a `submit` that may wake one. -/
def Watched (pool : ThreadPool workers Submitter Task) : Prop :=
  pool.queue ≠ [] → (∃ worker, (pool.worker worker).watches = true) ∨
    ∃ submitter, pool.submitter submitter ≠ .outside

/-- A worker that waits has found the queue empty; one that sleeps was not the one that watches. -/
theorem Watched.workerStep {worker : Fin workers} {pool after : ThreadPool workers Submitter Task}
    (watched : pool.Watched) (service : pool.InService)
    (moved : pool.workerStep worker = some after) : after.Watched := by
  intro tasks
  cases workerStep_moves moved with
  | leave at_ set => cases service.flag.symm.trans set
  | wait at_ empty => exact absurd empty tasks
  | sleep at_ =>
    rcases watched tasks with ⟨other, watches⟩ | running
    · have apart : other ≠ worker := fun same => by
        rw [same, at_] at watches
        cases watches
      refine Or.inl ⟨other, ?_⟩
      rw [goto_worker, Function.update_of_ne apart]
      exact watches
    · exact Or.inr running
  | dequeue => exact Or.inl ⟨worker, by simp [taken, WorkerPc.watches]⟩
  | finish => exact Or.inl ⟨worker, by simp [ran, WorkerPc.watches]⟩
  | enter | lock | look | skip | relock | take | miss | run | retry =>
    exact Or.inl ⟨worker, by simp [WorkerPc.watches]⟩

/-- Of two workers one at most stands before its wait. -/
theorem Locked.another_watches {pool : ThreadPool workers Submitter Task} (locked : pool.Locked)
    (service : pool.InService) (several : 2 ≤ workers)
    (awake : ∀ worker, pool.worker worker ≠ .asleep) :
    ∃ worker, (pool.worker worker).watches = true := by
  by_contra blind
  have waits (worker : Fin workers) : pool.worker worker = .waits := by
    have blind := not_exists.mp blind worker
    cases pc : pool.worker worker with
    | waits => rfl
    | asleep => exact absurd pc (awake worker)
    | exited => exact absurd pc (service.none worker)
    | testing | locking | emptying | looking | woken | dequeuing | taking | unlocking | running =>
      rw [pc] at blind
      exact absurd rfl blind
  have here : pool.InLock (.worker ⟨0, by omega⟩) := inLock_worker (waits _) rfl
  have there : pool.InLock (.worker ⟨1, by omega⟩) := inLock_worker (waits _) rfl
  have same := locked.conditional.alone here there
  simp at same

theorem Watched.attended {pool : ThreadPool workers Submitter Task} (watched : pool.Watched) :
    pool.Attended := by
  intro tasks
  rcases watched tasks with ⟨worker, watches⟩ | running
  · refine Or.inl ⟨worker, fun asleep => ?_⟩
    rw [asleep] at watches
    cases watches
  · exact Or.inr running

/-- A worker that has looked and waits has seen all there is, or a `submit` is running that has its
notification still to issue. -/
def Announced (pool : ThreadPool workers Submitter Task) : Prop :=
  ∀ worker, pool.worker worker = .waits →
    pool.queue = [] ∨ ∃ submitter, pool.submitter submitter ≠ .outside

/-- The only worker waits after it has seen the queue empty. -/
theorem announced_workerStep {worker : Fin 1}
    {pool after : ThreadPool 1 Submitter Task} (stepped : pool.workerStep worker = some after) :
    after.Announced := by
  intro other at_
  rw [Subsingleton.elim other worker] at at_
  cases workerStep_moves stepped with
  | wait _ empty => exact Or.inl empty
  | leave | enter | lock | look | skip | sleep | relock | take | miss | dequeue | run | retry
  | finish => simp [taken, ran] at at_

theorem announced_woken {worker : Fin 1} {pool : ThreadPool 1 Submitter Task}
    (awake : pool.worker worker = .woken) :
    pool.Announced := by
  intro other at_
  rw [Subsingleton.elim other worker, awake] at at_
  cases at_

variable [DecidableEq Submitter]

theorem InService.step {label : Work workers Submitter Task}
    {pool after : ThreadPool workers Submitter Task} (service : pool.InService)
    (moved : pool.work label = some after) : after.InService := by
  obtain ⟨shutdown, flag⟩ := work_shutdown moved
  refine ⟨shutdown.trans service.shutdown, flag.trans service.flag, ?_⟩
  apply work_avoids (· = .exited) nofun _ moved service.none
  rintro worker pc - follows rfl
  rw [service.flag] at follows
  generalize pool.worker worker = before at follows
  cases follows with
  | leave set => cases set

theorem Watched.step {label : Work workers Submitter Task}
    {pool after : ThreadPool workers Submitter Task} (watched : pool.Watched)
    (service : pool.InService) (locked : pool.Locked) (several : 2 ≤ workers)
    (moved : pool.work label = some after) : after.Watched := by
  cases work_moves moved with
  | worker stepped => exact watched.workerStep service stepped
  | @spurious worker asleep => exact fun _ => Or.inl ⟨worker, by simp [wake, asleep, WorkerPc.watches]⟩
  | @submit submitter | @lock submitter | @enqueue submitter =>
    exact fun _ => Or.inr ⟨submitter, by simp [gotoSubmit]⟩
  | @notify _ worker _ asleep =>
    exact fun _ => Or.inl ⟨worker, by simp [gotoSubmit, wake, asleep, WorkerPc.watches]⟩
  | unheard awake => exact fun _ => Or.inl (locked.another_watches service several awake)

/-- A worker that goes to sleep changes nothing else that counts. -/
theorem waits_eq {worker : Fin workers} {pool : ThreadPool workers Submitter Task}
    (at_ : pool.worker worker = .waits) :
    pool.work (.worker worker) =
      some ({ pool with conditionalMutex := none }.goto worker .asleep) := by
  simp [work, workerStep, at_]

/-- The workers do not all sleep on a queue with tasks that nobody will announce, and none of them
can bring this about. -/
def Secure (pool : ThreadPool workers Submitter Task) : Prop :=
  pool.Attended ∧
    ∀ worker after, pool.work (.worker worker) = some after → after.Attended

/-- No `submit` issues its `notify_one` while a worker stands between its test of `empty` and its
`wait`, the queue has tasks and no other `submit` is running. -/
def Heard : Work workers Submitter Task → ThreadPool workers Submitter Task → Prop
  | .submitter submitter none, pool => pool.submitter submitter = .notifying → pool.queue ≠ [] →
    (∃ worker, pool.worker worker = .waits) →
    ∃ other, other ≠ submitter ∧ pool.submitter other ≠ .outside
  | _, _ => True

section

variable {pool after : ThreadPool 1 Submitter Task}

theorem Announced.attended {worker : Fin 1} (announced : pool.Announced)
    (stepped : pool.workerStep worker = some after) : after.Attended := by
  intro tasks
  by_cases at_ : pool.worker worker = .waits
  · have moved : pool.work (.worker worker) = some after := stepped
    rw [waits_eq at_] at moved
    cases moved
    rcases announced worker at_ with empty | running
    · exact absurd empty tasks
    · exact alert_asleep.mpr (Or.inr running)
  · exact Or.inl ⟨worker, workerStep_awake stepped at_⟩

theorem secure_iff : pool.Secure ↔ pool.Attended ∧ pool.Announced := by
  refine and_congr_right fun _ => ⟨fun safe worker at_ => ?_, fun announced worker after moved => ?_⟩
  · have attended := safe worker _ (waits_eq at_)
    by_cases empty : pool.queue = []
    · exact Or.inl empty
    · rcases alert_asleep.mp (attended empty) with ⟨other, apart, -⟩ | running
      · exact absurd (Subsingleton.elim other worker) apart
      · exact Or.inr running
  · exact announced.attended moved

theorem Secure.step {label : Work 1 Submitter Task} (secure : pool.Secure)
    (heard : Heard label pool) (moved : pool.work label = some after) : after.Secure := by
  obtain ⟨attended, announced⟩ := secure_iff.mp secure
  refine secure_iff.mpr ?_
  cases work_moves moved with
  | worker stepped => exact ⟨announced.attended stepped, announced_workerStep stepped⟩
  | @spurious worker asleep =>
    have woken : (pool.wake worker).worker worker = .woken := by simp [wake, asleep]
    exact ⟨fun _ => Or.inl ⟨worker, by simp [woken]⟩, announced_woken woken⟩
  | @submit submitter | @lock submitter | @enqueue submitter =>
    exact ⟨fun _ => Or.inr ⟨submitter, by simp [gotoSubmit]⟩,
      fun _ _ => Or.inr ⟨submitter, by simp [gotoSubmit]⟩⟩
  | @notify submitter worker _ asleep =>
    have woken : ((pool.wake worker).gotoSubmit submitter .outside).worker worker = .woken := by
      simp [gotoSubmit, wake, asleep]
    exact ⟨fun _ => Or.inl ⟨worker, by simp [woken]⟩, announced_woken woken⟩
  | @unheard submitter awake at_ =>
    refine ⟨fun _ => Or.inl ⟨0, awake 0⟩, fun worker waits => ?_⟩
    by_cases empty : pool.queue = []
    · exact Or.inl empty
    · obtain ⟨other, apart, running⟩ := heard at_ empty ⟨worker, waits⟩
      exact Or.inr ⟨other, by simpa [gotoSubmit, apart] using running⟩

/-- A notification that the only worker does not hear lets it sleep on the tasks. -/
theorem Secure.heard {label : Work 1 Submitter Task} (missed : ¬ Heard label pool) :
    ∃ after, pool.work label = some after ∧ ¬ after.Secure := by
  cases label with
  | submitter submitter wakes =>
    cases wakes with
    | none =>
      simp only [Heard, Classical.not_imp, not_exists, not_and, not_not] at missed
      obtain ⟨at_, tasks, ⟨worker, waits⟩, alone⟩ := missed
      have awake : ∀ other, pool.worker other ≠ .asleep := by
        intro other asleep
        rw [Subsingleton.elim other worker, waits] at asleep
        cases asleep
      refine ⟨pool.gotoSubmit submitter .outside, ?_, fun secure => ?_⟩
      · simp [work, submitStep, at_, notifyOne, awake]
      · rcases (secure_iff.mp secure).2 worker waits with empty | ⟨other, running⟩
        · exact tasks empty
        · by_cases same : other = submitter
          · simp [gotoSubmit, same] at running
          · exact running (by simpa [gotoSubmit, same] using alone other same)
    | some worker => exact absurd trivial missed
  | worker | spurious | submit => exact absurd trivial missed

end

theorem attended_several (several : 2 ≤ workers) (labels : List (Work workers Submitter Task)) :
    Always work Attended labels (start : ThreadPool workers Submitter Task) := by
  apply Always.of_invariant
    (fun pool : ThreadPool workers Submitter Task => pool.InService ∧ pool.Locked ∧ pool.Watched)
  · exact fun _ kept => kept.2.2.attended
  · rintro label before after ⟨service, locked, watched⟩ moved
    exact ⟨service.step moved, locked.work moved, watched.step service locked several moved⟩
  · exact ⟨⟨rfl, rfl, nofun⟩, Locked.start, fun tasks => absurd rfl tasks⟩

theorem secure_iff_heard (labels : List (Work 1 Submitter Task)) :
    Always work Secure labels (start : ThreadPool 1 Submitter Task) ↔
      Meets work Heard labels (start : ThreadPool 1 Submitter Task) := by
  refine Always.iff_meets (fun _ => True) Secure (fun _ _ _ _ _ => trivial) ?_ ?_ ?_ labels
    trivial ?_
  · exact fun _ _ _ _ secure heard moved => Secure.step secure heard moved
  · exact fun _ _ secure => secure
  · exact fun _ _ _ _ missed => Secure.heard missed
  · exact secure_iff.mpr ⟨fun tasks => absurd rfl tasks, nofun⟩

/-- With two workers or more no wake-up is lost in any run. With one it is not lost, and the worker
nowhere about to lose it, exactly when no `notify_one` goes unheard by that worker. -/
theorem wake_up_not_lost (labels : List (Work workers Submitter Task)) :
    (2 ≤ workers → Always work Attended labels (start : ThreadPool workers Submitter Task)) ∧
      (workers = 1 →
        (Meets work Heard labels (start : ThreadPool workers Submitter Task) →
          Always work Attended labels (start : ThreadPool workers Submitter Task)) ∧
        (Always work Secure labels (start : ThreadPool workers Submitter Task) ↔
          Meets work Heard labels (start : ThreadPool workers Submitter Task))) := by
  refine ⟨fun several => attended_several several labels, ?_⟩
  rintro rfl
  refine ⟨fun heard => ?_, secure_iff_heard labels⟩
  exact ((secure_iff_heard labels).mpr heard).mono fun _ secure => secure.1

/-- A task is submitted and announced after a worker has looked and before it sleeps. -/
def overtaken (worker : Fin workers) : List (Work workers Unit String) :=
  [List.replicate 4 (.worker worker), [.submit () "task"], List.replicate 3 (.submitter () none),
    [.worker worker]].flatten

theorem wake_up_not_lost_overtaken :
    Always work Attended (overtaken 0) (start : ThreadPool 2 Unit String) ∧
      (Always work Secure (overtaken 0) (start : ThreadPool 1 Unit String) ↔
        Meets work Heard (overtaken 0) (start : ThreadPool 1 Unit String)) :=
  ⟨(wake_up_not_lost (overtaken 0)).1 (by decide), ((wake_up_not_lost (overtaken 0)).2 rfl).2⟩

theorem wake_up_lost :
    ∃ pool : ThreadPool 1 Unit String, Reaches work start pool ∧ pool.queue = ["task"] ∧
      (∀ worker, pool.worker worker = .asleep) ∧ ∀ submitter, pool.submitter submitter = .outside := by
  have ran : (run work (overtaken 0) (start : ThreadPool 1 Unit String)).map
      (fun pool => (pool.queue, pool.worker 0, pool.submitter ())) =
        some (["task"], .asleep, .outside) := by
    decide +kernel
  obtain ⟨pool, finished, same⟩ := Option.map_eq_some_iff.mp ran
  simp only [Prod.mk.injEq] at same
  obtain ⟨queue, worker, submitter⟩ := same
  refine ⟨pool, Reaches.ofRun _ finished, queue, fun any => ?_, fun _ => submitter⟩
  rw [Subsingleton.elim any 0]
  exact worker

end ThreadPool

end GaiaNet.Pool
