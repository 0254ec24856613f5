import GaiaNet.Lib.Transition
import GaiaNet.Mem.Channel
import GaiaNet.Mem.FileLock
import Mathlib.Data.List.TakeWhile

/-! The life of a `MemChannel` session: the constructor and the destructor of the party
that creates the segments, and `attach()` of the other, step by step on the names of
shared memory, the lock files and the segments. -/

namespace GaiaNet.Mem

open Lib Lib.CountedLock Lib.Directory Lib.RecordLock

/-- The party with the smaller number creates, the other one attaches. -/
inductive Role where
  | creator
  | attacher
  deriving DecidableEq

/-- A ring as its party sees it: `m_send_buf` or `m_recv_buf`. -/
inductive Ring where
  | send
  | recv
  deriving DecidableEq

def Ring.other : Ring → Ring
  | .send => .recv
  | .recv => .send

def getShmKey (fromParty toParty : UInt32) (taskid : String) : String :=
  "MC" ++ taskid ++ "_" ++ toString fromParty.toNat ++ "_" ++ toString toParty.toNat

/-- There is no null character in a string, at which a system call would take it to end. -/
def Plain (name : String) : Prop := ∀ char ∈ name.toList, char.toNat ≠ 0

instance (name : String) : Decidable (Plain name) :=
  List.decidableBAll (fun char : Char => char.toNat ≠ 0) name.toList

/-- What a system call reads of a string: the part before the first null character. -/
def cString (name : String) : String := String.ofList (name.toList.takeWhile (·.toNat ≠ 0))

theorem cString_plain (plain : Plain name) : cString name = name := by
  unfold cString
  rw [List.takeWhile_eq_self_iff.mpr (by simpa [Plain] using plain), String.ofList_toList]

theorem Plain.append (first : Plain front) (second : Plain back) : Plain (front ++ back) := by
  intro char member
  rw [String.toList_append] at member
  rcases List.mem_append.mp member with early | late
  · exact first char early
  · exact second char late

/-- What both ends of a session are constructed with, the creator's party first, and the
processes they run in. `shm_open`, `shm_unlink`, `open` and `unlink` read the whole of its names. -/
structure Setup where
  fromParty : UInt32
  toParty : UInt32
  taskid : String
  plain : Plain taskid
  bufSize : UInt32
  enableCv : Bool
  process : Role → Nat

/-- The key of a ring of the creator, and so of the other ring of the attacher. -/
def Setup.key (setup : Setup) : Ring → String
  | .send => getShmKey setup.fromParty setup.toParty setup.taskid
  | .recv => getShmKey setup.toParty setup.fromParty setup.taskid

/-- A shared memory object; `initialised` says that the creator of this session has
run `init` on it. -/
structure Segment where
  view : SharedMemoryView
  size : Nat
  initialised : Bool

def Segment.empty : Segment := ⟨.zeroed, 0, false⟩

/-- `sizeof(SharedMemoryView)`. -/
def viewSize : Nat := 384

/-- The statements of `create_shm`; in `lock` the file lock is being taken. -/
inductive CreateStage where
  | lock
  | reopen
  | truncate (segment : Nat)
  | init (segment : Nat)
  | unlock (segment : Nat)
  deriving DecidableEq

/-- The constructor, the time between constructor and destructor, and the destructor. -/
inductive CreatorPc where
  | destroy (ring : Ring)
  | create (ring : Ring) (stage : CreateStage)
  | ready
  | detach (ring : Ring)
  | unlink (ring : Ring)
  | gone
  deriving DecidableEq

/-- The two rings are destroyed, created and detached in turn. -/
def CreatorPc.pastDestroy : Ring → CreatorPc
  | .send => .destroy .recv
  | .recv => .create .send .lock

def CreatorPc.pastCreate : Ring → CreatorPc
  | .send => .create .recv .lock
  | .recv => .ready

def CreatorPc.pastDetach : Ring → CreatorPc
  | .send => .detach .recv
  | .recv => .gone

structure Creator where
  pc : CreatorPc
  bufs : Ring → Option Nat
  producer : Producer

/-- The statements of `attach_shm`; `map` takes the file lock first. -/
inductive AttachStage where
  | open
  | map (segment : Nat)
  | check (segment : Nat)
  | unlink (segment : Nat)
  | unlock (segment : Nat)
  deriving DecidableEq

/-- `crashed` is a failed assertion of `attach_init`, or a segment that does not map. -/
inductive AttacherPc where
  | away
  | attach (ring : Ring) (stage : AttachStage)
  | attached
  | crashed
  deriving DecidableEq

def AttacherPc.pastAttach : Ring → AttacherPc
  | .send => .attach .recv .open
  | .recv => .attached

/-- `sawInit` lists the segments it has mapped, each with whether the creator had
initialised it by then. -/
structure Attacher where
  pc : AttacherPc
  bufs : Ring → Option Nat
  sawInit : List (Nat × Bool)
  consumer : Consumer

structure Lifecycle where
  names : Directory String
  segments : Nat → Segment
  locks : Locks Role Nat String
  creator : Creator
  attacher : Attacher

namespace Lifecycle

def setSegment (id : Nat) (segment : Segment) (life : Lifecycle) : Lifecycle :=
  { life with segments := Function.update life.segments id segment }

def setView (id : Nat) (view : SharedMemoryView) (life : Lifecycle) : Lifecycle :=
  life.setSegment id { life.segments id with view := view }

def creatorAt (pc : CreatorPc) (life : Lifecycle) : Lifecycle :=
  { life with creator := { life.creator with pc := pc } }

def attacherAt (pc : AttacherPc) (life : Lifecycle) : Lifecycle :=
  { life with attacher := { life.attacher with pc := pc } }

/-- The next step of `get_file_lock`; its lock file opens. -/
def lockStep (setup : Setup) (role : Role) (key : String) (life : Lifecycle) : Option Lifecycle :=
  let step := match life.locks.pc role with
    | .outside => .openFile key true
    | .opened _ _ => .fcntl
    | .granted _ _ => .countIn
    | _ => .lock
  (life.locks.next setup.process (role, step)).map fun locks => { life with locks := locks }

/-- The next step of `free_file_lock`, and of `delete_file_lock` where it follows. -/
def unlockStep (setup : Setup) (role : Role) (delete : Bool) (life : Lifecycle) :
    Option Lifecycle :=
  let step := match life.locks.pc role with
    | .holding _ _ => .freeKeyLock
    | .unlocked _ _ => .close
    | _ => if delete then .deleteFile else .leave
  (life.locks.next setup.process (role, step)).map fun locks => { life with locks := locks }

/-- `shm_open` with `O_CREAT | O_EXCL`. -/
def shmCreate (ring : Ring) (key : String) (life : Lifecycle) : Lifecycle :=
  match life.names.entry key with
  | some _ => life.creatorAt (.create ring .reopen)
  | none =>
    ({ life with names := life.names.add key }.setSegment life.names.next .empty).creatorAt
      (.create ring (.truncate life.names.next))

/-- The step of `create_shm` for a ring. -/
def createStep (setup : Setup) (ring : Ring) (life : Lifecycle) :
    CreateStage → Option Lifecycle
  | .lock =>
    match life.locks.pc .creator with
    | .holding _ _ => some (life.shmCreate ring (setup.key ring))
    | _ => life.lockStep setup .creator (setup.key ring)
  | .reopen =>
    (life.names.entry (setup.key ring)).map fun id => life.creatorAt (.create ring (.truncate id))
  | .truncate id =>
    some ((life.setSegment id { life.segments id with
      size := setup.bufSize.toNat + viewSize }).creatorAt (.create ring (.init id)))
  | .init id =>
    some ((life.setSegment id { life.segments id with
      view := (life.segments id).view.init setup.bufSize setup.enableCv
      initialised := true }).creatorAt (.create ring (.unlock id)))
  | .unlock id =>
    match life.locks.pc .creator with
    | .outside =>
      some { life with creator := { life.creator with
        pc := .pastCreate ring
        bufs := Function.update life.creator.bufs ring (some id) } }
    | _ => life.unlockStep setup .creator false

/-- `++client_attached` of the destructor, and `shm_unlink` if it was the first. -/
def detachStep (ring : Ring) (life : Lifecycle) : Option Lifecycle :=
  (life.creator.bufs ring).map fun id =>
    let view := (life.segments id).view
    let count := view.clientAttached + 1
    (life.setView id { view with clientAttached := count }).creatorAt
      (if count = 1 then .unlink ring else .pastDetach ring)

/-- `send` on the creator's side, one ring operation or step at a time. -/
def sendStep (setup : Setup) (life : Lifecycle) : Option Lifecycle := do
  let id ← life.creator.bufs .send
  let action ← life.creator.producer.action setup.bufSize
  let (view, producer) ← action.perform (life.segments id).view
  return { life.setView id view with creator := { life.creator with producer := producer } }

/-- The step of the creator; between two calls of `send` it may enter its destructor. -/
def creatorStep (setup : Setup) (destruct : Bool) (life : Lifecycle) : Option Lifecycle :=
  match life.creator.pc with
  | .destroy ring =>
    some ({ life with names := life.names.unlink (setup.key ring) }.creatorAt
      (.pastDestroy ring))
  | .create ring stage => life.createStep setup ring stage
  | .ready =>
    if destruct then
      match life.creator.producer.pc with
      | .idle => some (life.creatorAt (.detach .send))
      | .chunks _ _ => none
    else life.sendStep setup
  | .detach ring => life.detachStep ring
  | .unlink ring =>
    some ({ life with names := life.names.unlink (setup.key ring) }.creatorAt
      (.pastDetach ring))
  | .gone => none

/-- The step of `attach_shm` for a ring of the attacher. -/
def attachStep (setup : Setup) (ring : Ring) (life : Lifecycle) : AttachStage → Option Lifecycle
  | .open =>
    (life.names.entry (setup.key ring.other)).map fun id =>
      life.attacherAt (.attach ring (.map id))
  | .map id =>
    match life.locks.pc .attacher with
    | .holding _ _ =>
      if (life.segments id).size = 0 then some (life.attacherAt .crashed)
      else some { life with attacher := { life.attacher with
        pc := .attach ring (.check id)
        sawInit := life.attacher.sawInit ++ [(id, (life.segments id).initialised)] } }
    | _ => life.lockStep setup .attacher (setup.key ring.other)
  | .check id =>
    let view := (life.segments id).view
    let count := view.clientAttached + 1
    some ((life.setView id { view with clientAttached := count }).attacherAt
      (if count = 1 ∧ view.enableCv = setup.enableCv then .attach ring (.unlink id)
        else .crashed))
  | .unlink id =>
    some ({ life with names := life.names.unlink (setup.key ring.other) }.attacherAt
      (.attach ring (.unlock id)))
  | .unlock id =>
    match life.locks.pc .attacher with
    | .outside =>
      some { life with attacher := { life.attacher with
        pc := .pastAttach ring
        bufs := Function.update life.attacher.bufs ring (some id) } }
    | _ => life.unlockStep setup .attacher true

/-- `recv` on the attacher's side. -/
def recvStep (setup : Setup) (life : Lifecycle) : Option Lifecycle := do
  let id ← life.attacher.bufs .recv
  let action ← life.attacher.consumer.action setup.bufSize
  let (view, consumer) ← action.perform (life.segments id).view
  return { life.setView id view with attacher := { life.attacher with consumer := consumer } }

/-- The step of the attacher; its first call begins with `attach()`. -/
def attacherStep (setup : Setup) (life : Lifecycle) : Option Lifecycle :=
  match life.attacher.pc with
  | .away => some (life.attacherAt (.attach .send .open))
  | .attach ring stage => life.attachStep setup ring stage
  | .attached => life.recvStep setup
  | .crashed => none

inductive Label where
  | creator (destruct : Bool)
  | attacher

def next (setup : Setup) : Label → Lifecycle → Option Lifecycle
  | .creator destruct, life => life.creatorStep setup destruct
  | .attacher, life => life.attacherStep setup

/-- Segments and lock files as earlier runs left them, and a session about to begin. -/
def start (names : Directory String) (segments : Nat → Segment) (lockFiles : Directory String)
    (messages strings : List Bytes) : Lifecycle where
  names := names
  segments := fun id => { segments id with initialised := false }
  locks := Locks.start lockFiles
  creator := {
    pc := .destroy .send
    bufs := fun _ => none
    producer := { todo := messages, pc := .idle, stats := .zero } }
  attacher := {
    pc := .away
    bufs := fun _ => none
    sawInit := []
    consumer := { todo := strings, pc := .idle, returned := [], stats := .zero } }

end Lifecycle

end GaiaNet.Mem
