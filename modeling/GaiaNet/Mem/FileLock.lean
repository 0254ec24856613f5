import GaiaNet.Lib.CountedLock
import GaiaNet.Lib.RecordLock

/-! The lock per key of memchannel.cpp: a record lock between processes and a counted
mutex between the threads of one process, taken and given back in separate steps. -/

namespace GaiaNet.Mem

open Lib Lib.CountedLock Lib.Directory Lib.RecordLock

/-- Where a thread stands in `get_file_lock`, `free_file_lock` and `delete_file_lock`.
`fd` is the inode of the descriptor, or `none` for the -1 of an `open` that failed;
`holding` is the time between the return of the first and the call of the second. -/
inductive LockPc (Key : Type) where
  | outside
  | opened (key : Key) (fd : Option Nat)
  | granted (key : Key) (fd : Option Nat)
  | counted (key : Key) (fd : Option Nat)
  | holding (key : Key) (fd : Option Nat)
  | unlocked (key : Key) (fd : Option Nat)
  | closed (key : Key)
  deriving DecidableEq

/-- Lock files by key, `s_key_lock_global_map` of each process, and the threads. A key has no null
character, so that each has a path of its own. -/
structure Locks (Thread Process Key : Type) where
  files : Files Key Process
  keyLocks : Process → Key → Option (CountedLock Thread)
  pc : Thread → LockPc Key

/-- The step of a thread: `open` with its outcome, `fcntl`, the two halves of
`get_key_lock`, `free_key_lock`, `close`, and `delete_file_lock` or none. -/
inductive LockStep (Key : Type) where
  | openFile (key : Key) (ok : Bool)
  | fcntl
  | countIn
  | lock
  | freeKeyLock
  | close
  | deleteFile
  | leave

namespace Locks

variable {Thread Process Key : Type} [DecidableEq Thread] [DecidableEq Process] [DecidableEq Key]

def goto (thread : Thread) (pc : LockPc Key) (locks : Locks Thread Process Key) :
    Locks Thread Process Key :=
  { locks with pc := Function.update locks.pc thread pc }

def setKeyLock (process : Process) (key : Key) (entry : Option (CountedLock Thread))
    (locks : Locks Thread Process Key) : Locks Thread Process Key :=
  { locks with
    keyLocks := Function.update locks.keyLocks process
      (Function.update (locks.keyLocks process) key entry) }

/-- One step of a thread. The sections under `s_key_lock_global_mtx` wait for nothing
else and are single steps. -/
def next (process : Thread → Process) :
    Thread × LockStep Key → Locks Thread Process Key → Option (Locks Thread Process Key)
  | (thread, .openFile key ok), locks =>
    match locks.pc thread with
    | .outside =>
      if ok then
        let (inode, files) := locks.files.openCreat key
        some ({ locks with files := files }.goto thread (.opened key (some inode)))
      else some (locks.goto thread (.opened key none))
    | _ => none
  | (thread, .fcntl), locks =>
    match locks.pc thread with
    | .opened key (some inode) =>
      (locks.files.lockWait (process thread) inode).map fun files =>
        { locks with files := files }.goto thread (.granted key (some inode))
    | .opened key none => some (locks.goto thread (.granted key none))
    | _ => none
  | (thread, .countIn), locks =>
    match locks.pc thread with
    | .granted key fd =>
      some ((locks.setKeyLock (process thread) key
        (some (join (locks.keyLocks (process thread) key)))).goto thread (.counted key fd))
    | _ => none
  | (thread, .lock), locks =>
    match locks.pc thread with
    | .counted key fd => do
      let lock ← locks.keyLocks (process thread) key
      let taken ← take thread lock
      return (locks.setKeyLock (process thread) key (some taken)).goto thread (.holding key fd)
    | _ => none
  | (thread, .freeKeyLock), locks =>
    match locks.pc thread with
    | .holding key fd => do
      let lock ← locks.keyLocks (process thread) key
      return (locks.setKeyLock (process thread) key (release lock)).goto thread (.unlocked key fd)
    | _ => none
  | (thread, .close), locks =>
    match locks.pc thread with
    | .unlocked key (some inode) =>
      some ({ locks with files := locks.files.close (process thread) inode }.goto thread
        (.closed key))
    | .unlocked key none => some (locks.goto thread (.closed key))
    | _ => none
  | (thread, .deleteFile), locks =>
    match locks.pc thread with
    | .closed key =>
      some ({ locks with files := locks.files.unlink key }.goto thread .outside)
    | _ => none
  | (thread, .leave), locks =>
    match locks.pc thread with
    | .closed _ => some (locks.goto thread .outside)
    | _ => none

/-- Lock files that earlier runs may have left, and no thread at work. -/
def start (directory : Directory Key) : Locks Thread Process Key where
  files := { directory := directory, owner := fun _ => none }
  keyLocks := fun _ _ => none
  pc := fun _ => .outside

/-- The thread is between the return of `get_file_lock(key)` and its `free_file_lock`. -/
def Holding (locks : Locks Thread Process Key) (thread : Thread) (key : Key) : Prop :=
  ∃ fd, locks.pc thread = .holding key fd

end Locks

/-- The inode whose record lock the thread has been granted and still needs. -/
def LockPc.relies : LockPc Key → Option Nat
  | .granted _ fd | .counted _ fd | .holding _ fd => fd
  | _ => none

/-- The key and the descriptor with which the thread is after the lock or has it. -/
def LockPc.seeks : LockPc Key → Option (Key × Option Nat)
  | .opened key fd | .granted key fd | .counted key fd | .holding key fd => some (key, fd)
  | _ => none

/-- The key whose mutex the thread has been counted for. -/
def LockPc.uses : LockPc Key → Option Key
  | .counted key _ | .holding key _ => some key
  | _ => none

/-- A step that takes the record lock from nobody: the lock file opens, no thread of the
process still needs the lock that a `close` drops, and no thread has a lock file open
that is deleted. -/
def Locks.Careful (process : Thread → Process) (label : Thread × LockStep Key)
    (locks : Locks Thread Process Key) : Prop :=
  match label.2 with
  | .openFile _ ok => ok = true
  | .close => ∀ key inode, locks.pc label.1 = .unlocked key (some inode) →
      ∀ other, process other = process label.1 → (locks.pc other).relies ≠ some inode
  | .deleteFile => ∀ key, locks.pc label.1 = .closed key →
      ∀ other fd, (locks.pc other).seeks ≠ some (key, fd)
  | _ => True

end GaiaNet.Mem
