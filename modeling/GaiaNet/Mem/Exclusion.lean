import GaiaNet.Lib.Transition
import GaiaNet.Mem.FileLock

/-! Who may be between `get_file_lock` and `free_file_lock`: the mutex keeps the threads
of a process apart, and the record lock the processes, as long as nobody takes it away. -/

namespace GaiaNet.Mem

open Lib Lib.CountedLock Lib.Directory Lib.RecordLock Lib.Transition

namespace Locks

variable {Thread Process Key : Type} {process : Thread → Process}

section

variable [DecidableEq Thread] [DecidableEq Process] [DecidableEq Key]

/-- What each step needs and does. -/
inductive Moves (process : Thread → Process) (locks : Locks Thread Process Key) (thread : Thread) :
    LockStep Key → Locks Thread Process Key → Prop where
  | opens (outside : locks.pc thread = .outside) :
      Moves process locks thread (.openFile key true)
        ({ locks with files := (locks.files.openCreat key).2 }.goto thread
          (.opened key (some (locks.files.openCreat key).1)))
  | openFails (outside : locks.pc thread = .outside) :
      Moves process locks thread (.openFile key false) (locks.goto thread (.opened key none))
  | fcntl (opened : locks.pc thread = .opened key (some inode))
      (grant : locks.files.lockWait (process thread) inode = some granted) :
      Moves process locks thread .fcntl
        ({ locks with files := granted }.goto thread (.granted key (some inode)))
  | unlockable (opened : locks.pc thread = .opened key none) :
      Moves process locks thread .fcntl (locks.goto thread (.granted key none))
  | countIn (granted : locks.pc thread = .granted key fd) :
      Moves process locks thread .countIn
        ((locks.setKeyLock (process thread) key
          (some (join (locks.keyLocks (process thread) key)))).goto thread (.counted key fd))
  | lock (counted : locks.pc thread = .counted key fd)
      (found : locks.keyLocks (process thread) key = some lock) (free : take thread lock = some taken) :
      Moves process locks thread .lock
        ((locks.setKeyLock (process thread) key (some taken)).goto thread (.holding key fd))
  | freeKeyLock (holding : locks.pc thread = .holding key fd)
      (found : locks.keyLocks (process thread) key = some lock) :
      Moves process locks thread .freeKeyLock
        ((locks.setKeyLock (process thread) key (release lock)).goto thread (.unlocked key fd))
  | closes (unlocked : locks.pc thread = .unlocked key (some inode)) :
      Moves process locks thread .close
        ({ locks with files := locks.files.close (process thread) inode }.goto thread (.closed key))
  | closeFails (unlocked : locks.pc thread = .unlocked key none) :
      Moves process locks thread .close (locks.goto thread (.closed key))
  | deleteFile (closed : locks.pc thread = .closed key) :
      Moves process locks thread .deleteFile
        ({ locks with files := locks.files.unlink key }.goto thread .outside)
  | leave (closed : locks.pc thread = .closed key) :
      Moves process locks thread .leave (locks.goto thread .outside)

theorem next_moves {locks after : Locks Thread Process Key}
    (moved : next process (thread, step) locks = some after) :
    Moves process locks thread step after := by
  cases step with
  | openFile key ok =>
    cases at_ : locks.pc thread <;> simp only [next, at_] at moved <;> try cases moved
    cases ok with
    | true =>
      cases moved
      exact .opens at_
    | false =>
      cases moved
      exact .openFails at_
  | fcntl =>
    cases at_ : locks.pc thread <;> simp only [next, at_] at moved <;> try cases moved
    rename_i key fd
    cases fd with
    | none =>
      cases moved
      exact .unlockable at_
    | some inode =>
      obtain ⟨files, grant, rfl⟩ := Option.map_eq_some_iff.mp moved
      exact .fcntl at_ grant
  | countIn =>
    cases at_ : locks.pc thread <;> simp only [next, at_] at moved <;> cases moved
    exact .countIn at_
  | lock =>
    cases at_ : locks.pc thread <;> simp only [next, at_] at moved <;> try cases moved
    rename_i key fd
    obtain ⟨lock, found, rest⟩ := Option.bind_eq_some_iff.mp moved
    obtain ⟨taken, free, same⟩ := Option.bind_eq_some_iff.mp rest
    cases same
    exact .lock at_ found free
  | freeKeyLock =>
    cases at_ : locks.pc thread <;> simp only [next, at_] at moved <;> try cases moved
    rename_i key fd
    obtain ⟨lock, found, same⟩ := Option.bind_eq_some_iff.mp moved
    cases same
    exact .freeKeyLock at_ found
  | close =>
    cases at_ : locks.pc thread <;> simp only [next, at_] at moved <;> try cases moved
    rename_i key fd
    cases fd with
    | none =>
      cases moved
      exact .closeFails at_
    | some inode =>
      cases moved
      exact .closes at_
  | deleteFile =>
    cases at_ : locks.pc thread <;> simp only [next, at_] at moved <;> cases moved
    exact .deleteFile at_
  | leave =>
    cases at_ : locks.pc thread <;> simp only [next, at_] at moved <;> cases moved
    exact .leave at_

end

@[simp] theorem goto_pc_self [DecidableEq Thread] (locks : Locks Thread Process Key)
    (thread : Thread) (pc : LockPc Key) : (locks.goto thread pc).pc thread = pc := by
  simp [goto]

theorem goto_pc_other [DecidableEq Thread] (locks : Locks Thread Process Key) (pc : LockPc Key)
    (different : other ≠ thread) : (locks.goto thread pc).pc other = locks.pc other := by
  simp [goto, different]

theorem setKeyLock_same [DecidableEq Process] [DecidableEq Key] (locks : Locks Thread Process Key)
    (owner : Process) (key : Key) (entry : Option (CountedLock Thread)) :
    (locks.setKeyLock owner key entry).keyLocks owner key = entry := by
  simp [setKeyLock]

theorem setKeyLock_other [DecidableEq Process] [DecidableEq Key] (locks : Locks Thread Process Key)
    (entry : Option (CountedLock Thread)) (different : ¬ (otherOwner = owner ∧ otherKey = key)) :
    (locks.setKeyLock owner key entry).keyLocks otherOwner otherKey =
      locks.keyLocks otherOwner otherKey := by
  by_cases same : otherOwner = owner
  · subst same
    have apart : otherKey ≠ key := fun same => different ⟨rfl, same⟩
    simp [setKeyLock, apart]
  · simp [setKeyLock, same]

/-- The entry of a key in a process counts the threads that use it, and its holder is the
thread that holds the key. -/
structure KeyCount (process : Thread → Process) (locks : Locks Thread Process Key) (owner : Process)
    (key : Key) (users : List Thread) (holder : Option Thread) : Prop where
  counts : Counts (locks.keyLocks owner key) users holder
  user : ∀ thread, thread ∈ users ↔ process thread = owner ∧ (locks.pc thread).uses = some key
  held : ∀ thread, holder = some thread ↔ process thread = owner ∧ locks.Holding thread key

/-- The threads of a process are counted right under every key. -/
def KeyCounts (process : Thread → Process) (locks : Locks Thread Process Key) : Prop :=
  ∀ owner key, ∃ users holder, KeyCount process locks owner key users holder

/-- The mutex of a key has one holder in each process. -/
theorem KeyCounts.exclusive {locks : Locks Thread Process Key} (counted : KeyCounts process locks)
    (together : process one = process other) (first : locks.Holding one key)
    (second : locks.Holding other key) : one = other := by
  obtain ⟨users, holder, count⟩ := counted (process one) key
  have mine := (count.held one).mpr ⟨rfl, first⟩
  have theirs := (count.held other).mpr ⟨together.symm, second⟩
  exact Option.some.inj (mine.symm.trans theirs)

theorem Holding.uses {locks : Locks Thread Process Key} (holding : locks.Holding thread key) :
    (locks.pc thread).uses = some key := by
  obtain ⟨fd, at_⟩ := holding
  rw [at_]
  rfl

/-- Only the thread that moved can use or hold something else than before. -/
theorem KeyCount.frame {locks after : Locks Thread Process Key} {users : List Thread}
    {holder : Option Thread}
    (count : KeyCount process locks owner key users holder)
    (entry : after.keyLocks owner key = locks.keyLocks owner key)
    (others : ∀ other, other ≠ thread → after.pc other = locks.pc other)
    (uses : (after.pc thread).uses = some key ↔ (locks.pc thread).uses = some key)
    (holds : after.Holding thread key ↔ locks.Holding thread key) :
    KeyCount process after owner key users holder := by
  refine ⟨entry ▸ count.counts, fun other => ?_, fun other => ?_⟩
  · rw [count.user other]
    by_cases same : other = thread
    · subst same
      rw [uses]
    · rw [others other same]
  · rw [count.held other]
    by_cases same : other = thread
    · subst same
      rw [holds]
    · unfold Holding
      rw [others other same]

/-- A step at which no thread uses or stops using a mutex. -/
theorem KeyCounts.idle {locks after : Locks Thread Process Key} (counted : KeyCounts process locks)
    (entries : after.keyLocks = locks.keyLocks)
    (others : ∀ other, other ≠ thread → after.pc other = locks.pc other)
    (before : (locks.pc thread).uses = none) (later : (after.pc thread).uses = none) :
    KeyCounts process after := by
  intro owner key
  obtain ⟨users, holder, count⟩ := counted owner key
  refine ⟨users, holder, count.frame (by rw [entries]) others (by rw [before, later]) ?_⟩
  constructor
  · intro holding
    have used := holding.uses
    rw [later] at used
    cases used
  · intro holding
    have used := holding.uses
    rw [before] at used
    cases used

/-- A step in which a thread starts or stops using or holding a key leaves the other
entries right. -/
theorem KeyCounts.busy {locks after : Locks Thread Process Key} (counted : KeyCounts process locks)
    (entries : ∀ owner other, ¬ (owner = process thread ∧ other = key) →
      after.keyLocks owner other = locks.keyLocks owner other)
    (others : ∀ other, other ≠ thread → after.pc other = locks.pc other)
    (before : ∀ other, (locks.pc thread).uses = some other → other = key)
    (later : ∀ other, (after.pc thread).uses = some other → other = key)
    (here : ∃ users holder, KeyCount process after (process thread) key users holder) :
    KeyCounts process after := by
  intro owner other
  by_cases same : owner = process thread ∧ other = key
  · obtain ⟨rfl, rfl⟩ := same
    exact here
  obtain ⟨users, holder, count⟩ := counted owner other
  refine ⟨users, holder, entries owner other same ▸ count.counts, fun user => ?_, fun user => ?_⟩
  · rw [count.user user]
    by_cases own : user = thread
    · subst own
      refine and_congr_right fun belongs => ⟨fun used => ?_, fun used => ?_⟩
      · exact absurd ⟨belongs.symm, before other used⟩ same
      · exact absurd ⟨belongs.symm, later other used⟩ same
    · rw [others user own]
  · rw [count.held user]
    by_cases own : user = thread
    · subst own
      refine and_congr_right fun belongs => ⟨fun holding => ?_, fun holding => ?_⟩
      · exact absurd ⟨belongs.symm, before other holding.uses⟩ same
      · exact absurd ⟨belongs.symm, later other holding.uses⟩ same
    · unfold Holding
      rw [others user own]

/-- While nobody takes a lock away: who relies on the record lock of an inode, its process
owns it, and the descriptor of who is after a key is the file under its name. -/
structure Guarded (process : Thread → Process) (locks : Locks Thread Process Key) : Prop where
  counted : KeyCounts process locks
  owned : ∀ thread inode, (locks.pc thread).relies = some inode →
    locks.files.owner inode = some (process thread)
  named : ∀ thread key fd, (locks.pc thread).seeks = some (key, fd) →
    ∃ inode, fd = some inode ∧ locks.files.directory.entry key = some inode

theorem relies_seeks {pc : LockPc Key} (relies : pc.relies = some inode) :
    ∃ key, pc.seeks = some (key, some inode) := by
  cases pc <;> simp_all [LockPc.relies, LockPc.seeks]

theorem KeyCounts.start (directory : Directory Key) :
    KeyCounts process (Locks.start directory : Locks Thread Process Key) := by
  refine fun owner key => ⟨[], none, .none, fun thread => ?_, fun thread => ?_⟩
  · simp [Locks.start, LockPc.uses]
  · simp [Locks.start, Holding]

theorem Guarded.start (directory : Directory Key) :
    Guarded process (Locks.start directory : Locks Thread Process Key) := by
  refine ⟨KeyCounts.start directory, ?_, ?_⟩
  · intro thread inode relies
    cases relies
  · intro thread key fd seeks
    cases seeks

/-- Two holders of a key are one thread: their processes own the lock of the same inode,
and the mutex has one holder. -/
theorem Guarded.exclusive {locks : Locks Thread Process Key} (guarded : Guarded process locks)
    (first : locks.Holding one key) (second : locks.Holding other key) : one = other := by
  have ⟨fd, at_⟩ := first
  have ⟨otherFd, otherAt⟩ := second
  obtain ⟨inode, rfl, entry⟩ := guarded.named one key fd (by rw [at_]; rfl)
  obtain ⟨otherInode, rfl, otherEntry⟩ := guarded.named other key otherFd (by rw [otherAt]; rfl)
  rw [entry] at otherEntry
  cases otherEntry
  have owner := guarded.owned one inode (by rw [at_]; rfl)
  have otherOwner := guarded.owned other inode (by rw [otherAt]; rfl)
  rw [owner] at otherOwner
  exact guarded.counted.exclusive (Option.some.inj otherOwner) first second

section

variable [DecidableEq Thread] [DecidableEq Process] [DecidableEq Key]

theorem KeyCounts.countIn {locks : Locks Thread Process Key} (counted : KeyCounts process locks)
    (granted : locks.pc thread = .granted key fd) :
    KeyCounts process ((locks.setKeyLock (process thread) key
      (some (join (locks.keyLocks (process thread) key)))).goto thread (.counted key fd)) := by
  have absent : ∀ other, (locks.pc thread).uses ≠ some other := by simp [granted, LockPc.uses]
  have aside : ∀ other, ¬ locks.Holding thread other := fun other holding =>
    absent other holding.uses
  refine counted.busy (fun owner other different => setKeyLock_other _ _ different)
    (fun other different => goto_pc_other _ _ different)
    (fun other used => absurd used (absent other))
    (fun other used => by rw [goto_pc_self] at used; cases used; rfl) ?_
  obtain ⟨users, holder, count⟩ := counted (process thread) key
  have new : thread ∉ users := fun member => absent key ((count.user thread).mp member).2
  refine ⟨thread :: users, holder, ?_, fun user => ?_, fun user => ?_⟩
  · change Counts ((locks.setKeyLock _ _ _).keyLocks (process thread) key) _ _
    rw [setKeyLock_same]
    exact count.counts.join new
  · rw [List.mem_cons, count.user user]
    by_cases own : user = thread
    · subst own
      simp [LockPc.uses]
    · rw [goto_pc_other _ _ own]
      simp [own, setKeyLock]
  · rw [count.held user]
    unfold Holding
    by_cases own : user = thread
    · subst own
      refine and_congr_right fun _ => ⟨fun holding => absurd holding (aside key), ?_⟩
      rintro ⟨other, same⟩
      rw [goto_pc_self] at same
      cases same
    · rw [goto_pc_other _ _ own]
      rfl

theorem KeyCounts.lock {locks : Locks Thread Process Key} (counted : KeyCounts process locks)
    (at_ : locks.pc thread = .counted key fd)
    (found : locks.keyLocks (process thread) key = some entry)
    (free : take thread entry = some taken) :
    KeyCounts process
      ((locks.setKeyLock (process thread) key (some taken)).goto thread (.holding key fd)) := by
  have using_ : (locks.pc thread).uses = some key := by rw [at_]; rfl
  refine counted.busy (fun owner other different => setKeyLock_other _ _ different)
    (fun other different => goto_pc_other _ _ different)
    (fun other used => by rw [using_] at used; cases used; rfl)
    (fun other used => by rw [goto_pc_self] at used; cases used; rfl) ?_
  obtain ⟨users, holder, count⟩ := counted (process thread) key
  have member := (count.user thread).mpr ⟨rfl, using_⟩
  have counts := count.counts
  rw [found] at counts
  obtain ⟨nobody, takes⟩ := counts.take member free
  refine ⟨users, some thread, ?_, fun user => ?_, fun user => ?_⟩
  · change Counts ((locks.setKeyLock _ _ _).keyLocks (process thread) key) _ _
    rwa [setKeyLock_same]
  · rw [count.user user]
    by_cases own : user = thread
    · subst own
      rw [goto_pc_self, using_]
      simp [LockPc.uses]
    · rw [goto_pc_other _ _ own]
      rfl
  · unfold Holding
    by_cases own : user = thread
    · subst own
      simp
    · have other := count.held user
      rw [nobody] at other
      rw [goto_pc_other _ _ own]
      refine ⟨fun same => absurd (Option.some.inj same).symm own, fun holding => ?_⟩
      cases other.mpr holding

theorem KeyCounts.freeKeyLock {locks : Locks Thread Process Key}
    (counted : KeyCounts process locks) (at_ : locks.pc thread = .holding key fd)
    (found : locks.keyLocks (process thread) key = some entry) :
    KeyCounts process
      ((locks.setKeyLock (process thread) key (release entry)).goto thread (.unlocked key fd)) := by
  have using_ : (locks.pc thread).uses = some key := by rw [at_]; rfl
  refine counted.busy (fun owner other different => setKeyLock_other _ _ different)
    (fun other different => goto_pc_other _ _ different)
    (fun other used => by rw [using_] at used; cases used; rfl)
    (fun other used => by rw [goto_pc_self] at used; cases used) ?_
  obtain ⟨users, holder, count⟩ := counted (process thread) key
  have member := (count.user thread).mpr ⟨rfl, using_⟩
  have mine : holder = some thread := (count.held thread).mpr ⟨rfl, fd, at_⟩
  have counts := count.counts
  rw [found] at counts
  refine ⟨users.erase thread, none, ?_, fun user => ?_, fun user => ?_⟩
  · change Counts ((locks.setKeyLock _ _ _).keyLocks (process thread) key) _ _
    rw [setKeyLock_same]
    exact counts.release member
  · rw [counts.nodup.mem_erase_iff, count.user user]
    by_cases own : user = thread
    · subst own
      rw [goto_pc_self]
      simp [LockPc.uses]
    · rw [goto_pc_other _ _ own]
      simp [own, setKeyLock]
  · unfold Holding
    by_cases own : user = thread
    · subst own
      simp
    · rw [goto_pc_other _ _ own]
      refine ⟨fun same => (nomatch same), fun holding => ?_⟩
      have same := (count.held user).mpr holding
      rw [mine] at same
      exact absurd (Option.some.inj same).symm own

theorem KeyCounts.step {locks after : Locks Thread Process Key} (counted : KeyCounts process locks)
    (moved : Moves process locks thread label after) : KeyCounts process after := by
  have others (later : Locks Thread Process Key) (pc : LockPc Key)
      (same : later.pc = locks.pc) : ∀ other, other ≠ thread →
        (later.goto thread pc).pc other = locks.pc other := by
    intro other different
    rw [goto_pc_other _ _ different, same]
  cases moved with
  | countIn granted => exact counted.countIn granted
  | lock at_ found free => exact counted.lock at_ found free
  | freeKeyLock at_ found => exact counted.freeKeyLock at_ found
  | opens at_ | openFails at_ | fcntl at_ | unlockable at_ | closes at_ | closeFails at_
  | deleteFile at_ | leave at_ =>
    exact counted.idle rfl (others _ _ rfl) (by rw [at_]; rfl) (by rw [goto_pc_self]; rfl)

theorem Guarded.step {locks after : Locks Thread Process Key} (guarded : Guarded process locks)
    (careful : Careful process (thread, label) locks)
    (moved : Moves process locks thread label after) :
    Guarded process after := by
  refine ⟨guarded.counted.step moved, ?_, ?_⟩
  · intro user inode relies
    -- Whoever relied on a lock before keeps it; the thread that moved may rely on a new one.
    cases moved with
    | opens at_ =>
      by_cases own : user = thread
      · subst own
        rw [goto_pc_self] at relies
        cases relies
      · rw [goto_pc_other _ _ own] at relies
        obtain ⟨key, seeks⟩ := relies_seeks relies
        obtain ⟨_, same, entry⟩ := guarded.named user key _ seeks
        cases same
        change (locks.files.openCreat _).2.owner inode = _
        rw [openCreat_owner _ _ (locks.files.directory.bound _ _ entry)]
        exact guarded.owned user inode relies
    | openFails at_ => cases careful
    | fcntl at_ grant =>
      by_cases own : user = thread
      · subst own
        rw [goto_pc_self] at relies
        cases relies
        exact (lockWait_spec grant).2
      · rw [goto_pc_other _ _ own] at relies
        exact lockWait_keeps grant (guarded.owned user inode relies)
    | unlockable at_ =>
      obtain ⟨_, same, -⟩ := guarded.named thread _ none (by rw [at_]; rfl)
      cases same
    | countIn at_ | lock at_ | freeKeyLock at_ =>
      by_cases own : user = thread
      · subst own
        rw [goto_pc_self] at relies
        exact guarded.owned user inode (by rw [at_]; first | exact relies | cases relies)
      · rw [goto_pc_other _ _ own] at relies
        exact guarded.owned user inode relies
    | closes at_ =>
      by_cases own : user = thread
      · subst own
        rw [goto_pc_self] at relies
        cases relies
      · rw [goto_pc_other _ _ own] at relies
        refine close_keeps _ _ (guarded.owned user inode relies) ?_
        by_cases belongs : process user = process thread
        · refine Or.inl fun same => ?_
          subst same
          exact careful _ _ at_ user belongs relies
        · exact Or.inr belongs
    | closeFails at_ | deleteFile at_ | leave at_ =>
      by_cases own : user = thread
      · subst own
        rw [goto_pc_self] at relies
        cases relies
      · rw [goto_pc_other _ _ own] at relies
        exact guarded.owned user inode relies
  · intro user key fd seeks
    cases moved with
    | opens at_ =>
      by_cases own : user = thread
      · subst own
        rw [goto_pc_self] at seeks
        cases seeks
        exact ⟨_, rfl, openCreat_entry _ _⟩
      · rw [goto_pc_other _ _ own] at seeks
        obtain ⟨inode, same, entry⟩ := guarded.named user key fd seeks
        exact ⟨inode, same, openCreat_keeps _ _ entry⟩
    | openFails at_ => cases careful
    | fcntl at_ grant =>
      rename_i granted
      change ∃ inode, fd = some inode ∧ granted.directory.entry key = some inode
      rw [(lockWait_spec grant).1]
      by_cases own : user = thread
      · subst own
        rw [goto_pc_self] at seeks
        cases seeks
        exact guarded.named user _ _ (by rw [at_]; rfl)
      · rw [goto_pc_other _ _ own] at seeks
        exact guarded.named user key fd seeks
    | unlockable at_ | countIn at_ | lock at_ | freeKeyLock at_ | closeFails at_ | leave at_ =>
      by_cases own : user = thread
      · subst own
        rw [goto_pc_self] at seeks
        exact guarded.named user key fd (by rw [at_]; first | exact seeks | cases seeks)
      · rw [goto_pc_other _ _ own] at seeks
        exact guarded.named user key fd seeks
    | closes at_ =>
      by_cases own : user = thread
      · subst own
        rw [goto_pc_self] at seeks
        cases seeks
      · rw [goto_pc_other _ _ own] at seeks
        change ∃ inode, fd = some inode ∧ (locks.files.close _ _).directory.entry key = some inode
        rw [close_directory]
        exact guarded.named user key fd seeks
    | deleteFile at_ =>
      by_cases own : user = thread
      · subst own
        rw [goto_pc_self] at seeks
        cases seeks
      · rw [goto_pc_other _ _ own] at seeks
        obtain ⟨inode, same, entry⟩ := guarded.named user key fd seeks
        refine ⟨inode, same, (unlink_other _ ?_).trans entry⟩
        rintro rfl
        exact careful _ at_ user fd seeks

/-- In every run of any number of threads and processes whose steps take the record lock
from nobody, at most one thread holds a key; the threads of one process exclude each other in
every run. -/
theorem file_lock_excludes (process : Thread → Process) (directory : Directory Key)
    (locks : Locks Thread Process Key) (key : Key) (one other : Thread)
    (first : locks.Holding one key) (second : locks.Holding other key) :
    (Within (next process) (Careful process) (Locks.start directory) locks → one = other) ∧
      (Reaches (next process) (Locks.start directory) locks → process one = process other →
        one = other) := by
  constructor
  · intro path
    have guarded : Guarded process locks := by
      refine path.invariant (Guarded process) (Guarded.start directory) ?_
      rintro ⟨thread, step⟩ before after inv may moved
      exact inv.step may (next_moves moved)
    exact guarded.exclusive first second
  · intro path together
    have counted : KeyCounts process locks := by
      refine path.invariant (KeyCounts process) (KeyCounts.start directory) ?_
      rintro ⟨thread, step⟩ before after inv moved
      exact inv.step (next_moves moved)
    exact counted.exclusive together first second

end

/-- Threads 0 and 1 share a process, thread 2 belongs to another. -/
def neighbours (thread : Fin 3) : Bool := thread = 2

/-- `get_file_lock` of a thread that need not wait. -/
def acquire (thread : Fin 3) : List (Fin 3 × LockStep Unit) :=
  [(thread, .openFile () true), (thread, .fcntl), (thread, .countIn), (thread, .lock)]

/-- Thread 0 closes its descriptor after thread 1 has been granted the lock. -/
def closeSchedule : List (Fin 3 × LockStep Unit) :=
  acquire 0 ++ [(1, .openFile () true), (1, .fcntl), (1, .countIn), (0, .freeKeyLock), (1, .lock),
    (0, .close)] ++ acquire 2

/-- Thread 0 deletes the lock file after thread 1 has locked it. -/
def deleteSchedule : List (Fin 3 × LockStep Unit) :=
  acquire 0 ++ [(0, .freeKeyLock), (0, .close)] ++ acquire 1 ++ [(0, .deleteFile)] ++ acquire 2

/-- The lock file does not open for thread 1. -/
def openSchedule : List (Fin 3 × LockStep Unit) :=
  [(1, .openFile () false), (1, .fcntl), (1, .countIn), (1, .lock)] ++ acquire 2

/-- At the end of a schedule threads 1 and 2 both hold the key. -/
def Shares (schedule : List (Fin 3 × LockStep Unit)) : Prop :=
  ∃ locks, run (next neighbours) schedule (Locks.start Directory.empty) = some locks ∧
    locks.Holding 1 () ∧ locks.Holding 2 ()

theorem file_lock_shared :
    Shares closeSchedule ∧ Shares deleteSchedule ∧ Shares openSchedule := by
  refine ⟨⟨_, rfl, ?_⟩, ⟨_, rfl, ?_⟩, ⟨_, rfl, ?_⟩⟩ <;> exact ⟨⟨_, rfl⟩, ⟨_, rfl⟩⟩

/-- Thread 1 opens the file while thread 2 has its lock. -/
def contendedSchedule : List (Fin 3 × LockStep Unit) := acquire 2 ++ [(1, .openFile () true)]

theorem careful_contended :
    Meets (next neighbours) (Careful neighbours) contendedSchedule (Locks.start Directory.empty) :=
  ⟨rfl, fun _ _ => ⟨trivial, fun _ _ => ⟨trivial, fun _ _ => ⟨trivial, fun _ _ =>
    ⟨rfl, fun _ _ => trivial⟩⟩⟩⟩⟩

theorem file_lock_excludes_waiting :
    ∃ locks, run (next neighbours) contendedSchedule (Locks.start Directory.empty) = some locks ∧
      locks.Holding 2 () ∧ locks.pc 1 = .opened () (some 0) ∧
      ∀ other, locks.Holding other () → 2 = other := by
  refine ⟨_, rfl, ⟨_, rfl⟩, rfl, fun other holding => ?_⟩
  exact (file_lock_excludes neighbours Directory.empty _ () 2 other ⟨_, rfl⟩ holding).1
    (.ofMeets contendedSchedule rfl careful_contended)

end Locks

end GaiaNet.Mem
