import GaiaNet.Lib.Directory

/-! Files opened by name, and write locks on whole files that belong to a process:
a process gets its own lock again, and loses it when it closes any descriptor. -/

namespace Lib.RecordLock

open Lib.Directory

variable {Name Process : Type}

/-- A directory of lock files and the owner of each inode's lock. -/
structure Files (Name Process : Type) where
  directory : Directory Name
  owner : Nat → Option Process

section

variable [DecidableEq Name]

/-- `open` with `O_CREAT`. -/
def Files.openCreat (files : Files Name Process) (name : Name) : Nat × Files Name Process :=
  match files.directory.entry name with
  | some inode => (inode, files)
  | none =>
    (files.directory.next,
      { directory := files.directory.add name
        owner := Function.update files.owner files.directory.next none })

def Files.unlink (files : Files Name Process) (name : Name) : Files Name Process :=
  { files with directory := files.directory.unlink name }

theorem openCreat_entry (files : Files Name Process) (name : Name) :
    (files.openCreat name).2.directory.entry name = some (files.openCreat name).1 := by
  unfold Files.openCreat
  cases found : files.directory.entry name with
  | some inode => exact found
  | none => exact add_entry _ _

/-- Entries that exist stay. -/
theorem openCreat_keeps (files : Files Name Process) (name : Name)
    (found : files.directory.entry other = some inode) :
    (files.openCreat name).2.directory.entry other = some inode := by
  unfold Files.openCreat
  cases missing : files.directory.entry name with
  | some _ => exact found
  | none =>
    by_cases same : other = name
    · subst same
      rw [missing] at found
      cases found
    · exact (add_other _ same).trans found

/-- The lock of an inode made before stays as it is. -/
theorem openCreat_owner (files : Files Name Process) (name : Name)
    (old : inode < files.directory.next) : (files.openCreat name).2.owner inode = files.owner inode := by
  unfold Files.openCreat
  cases files.directory.entry name with
  | some _ => rfl
  | none => simp [Nat.ne_of_lt old]

end

variable [DecidableEq Process]

/-- `F_SETLKW` for a write lock; `none` while another process has the lock. -/
def Files.lockWait (files : Files Name Process) (process : Process) (inode : Nat) :
    Option (Files Name Process) :=
  if files.owner inode = none ∨ files.owner inode = some process then
    some { files with owner := Function.update files.owner inode (some process) }
  else none

/-- `close` of a descriptor of the inode. -/
def Files.close (files : Files Name Process) (process : Process) (inode : Nat) :
    Files Name Process :=
  if files.owner inode = some process then
    { files with owner := Function.update files.owner inode none }
  else files

theorem lockWait_spec {files after : Files Name Process}
    (granted : files.lockWait process inode = some after) :
    after.directory = files.directory ∧ after.owner inode = some process := by
  unfold Files.lockWait at granted
  split at granted
  · cases granted
    simp
  · cases granted

/-- A lock that is granted is taken from nobody. -/
theorem lockWait_keeps {files after : Files Name Process}
    (granted : files.lockWait process inode = some after)
    (held : files.owner other = some holder) : after.owner other = some holder := by
  unfold Files.lockWait at granted
  split at granted
  · rename_i free
    cases granted
    by_cases same : other = inode
    · subst same
      rw [held] at free
      simp_all
    · simp [same, held]
  · cases granted

theorem close_directory (files : Files Name Process) (process : Process) (inode : Nat) :
    (files.close process inode).directory = files.directory := by
  unfold Files.close
  split <;> rfl

/-- A lock is lost by nobody but the process that closes, and only on this inode. -/
theorem close_keeps {files : Files Name Process} (process : Process) (inode : Nat)
    (held : files.owner other = some holder) (apart : other ≠ inode ∨ holder ≠ process) :
    (files.close process inode).owner other = some holder := by
  unfold Files.close
  split
  · rename_i mine
    have different : other ≠ inode := by
      rintro rfl
      rw [held] at mine
      simp_all
    simp [different, held]
  · exact held

end Lib.RecordLock
