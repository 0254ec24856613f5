import GaiaNet.Lib.Decimal
import GaiaNet.Mem.Exclusion
import GaiaNet.Mem.Lifecycle

/-! What a session knows about the names of its two rings and about its file locks, in
every run from any leftovers of earlier ones. -/

namespace GaiaNet.Mem

open Lib Lib.CountedLock Lib.Decimal Lib.Directory Lib.RecordLock Lib.Transition

/-- The two parties of a session differ, so its two keys do. -/
theorem getShmKey_swap (different : fromParty ≠ toParty) (taskid : String) :
    getShmKey fromParty toParty taskid ≠ getShmKey toParty fromParty taskid := by
  intro same
  apply different
  have lists := congrArg String.toList same
  have text (number : Nat) : (toString number).toList = Nat.toDigits 10 number := by
    rw [Nat.toString_eq_repr, Nat.repr, String.toList_ofList]
  simp only [getShmKey, String.toList_append, List.append_assoc, List.append_cancel_left_eq,
    text] at lists
  have digits := (digits_toDigits fromParty.toNat).separated (digits_toDigits toParty.toNat)
    (show '_'.isDigit = false by decide) lists
  have value := congrArg value digits.1
  rw [value_toDigits, value_toDigits] at value
  exact UInt32.toNat_inj.mp value

theorem Setup.key_ne (setup : Setup) (different : setup.fromParty ≠ setup.toParty)
    (apart : first ≠ second) : setup.key first ≠ setup.key second := by
  have swapped := getShmKey_swap different setup.taskid
  cases first <;> cases second
  · exact absurd rfl apart
  · exact swapped
  · exact swapped.symm
  · exact absurd rfl apart

theorem Setup.key_inj (setup : Setup) (different : setup.fromParty ≠ setup.toParty)
    (same : setup.key first = setup.key second) : first = second := by
  by_contra apart
  exact setup.key_ne different apart same

/-- The segment that `create_shm` is making. -/
def CreateStage.made : CreateStage → Option Nat
  | .lock | .reopen => none
  | .truncate object | .init object | .unlock object => some object

/-- The segment that `create_shm` has initialised. -/
def CreateStage.finished : CreateStage → Option Nat
  | .unlock object => some object
  | _ => none

/-- The segment of a ring, judged by the stage while `create_shm` works on it. -/
def Creator.segment (creator : Creator) (of : CreateStage → Option Nat) (ring : Ring) :
    Option Nat :=
  match creator.pc with
  | .create current stage => if current = ring then of stage else creator.bufs ring
  | _ => creator.bufs ring

/-- The segment the creator has made for a ring. -/
abbrev Creator.made (creator : Creator) : Ring → Option Nat := creator.segment CreateStage.made

/-- The segment the creator has made for a ring and initialised. -/
abbrev Creator.finished (creator : Creator) : Ring → Option Nat := creator.segment CreateStage.finished

/-- `destroy_shm` of the ring has been executed. -/
def CreatorPc.destroyed : CreatorPc → Ring → Bool
  | .destroy .send, _ => false
  | .destroy .recv, ring => ring = .send
  | _, _ => true

/-- The constructor has returned. -/
def CreatorPc.constructed : CreatorPc → Bool
  | .destroy _ | .create _ _ => false
  | _ => true

/-- Which pointers are set at each point; the name of a destroyed segment is free, so that
`shm_open` never opens an old one. -/
def CreatorPc.Shape (bufs : Ring → Option Nat) : CreatorPc → Prop
  | .create _ .reopen => False
  | .destroy _ | .create .send _ => bufs = fun _ => none
  | .create .recv _ => (∃ id, bufs .send = some id) ∧ bufs .recv = none
  | _ => ∀ ring, ∃ id, bufs ring = some id

/-- The names of the two rings stand for what earlier runs left or for what this creator
made; `base` is the first number that no earlier run used. -/
structure Naming (setup : Setup) (base : Nat) (names : Directory String) (creator : Creator) :
    Prop where
  old : base ≤ names.next
  shape : creator.pc.Shape creator.bufs
  stale : ∀ ring id, names.entry (setup.key ring) = some id →
    id < base ∨ creator.made ring = some id
  fresh : ∀ ring id, creator.pc.destroyed ring = true →
    names.entry (setup.key ring) = some id → creator.made ring = some id
  made : ∀ ring id, creator.made ring = some id → base ≤ id ∧ id < names.next
  apart : ∀ first second id, creator.made first = some id → creator.made second = some id →
    first = second

/-- Before `get_file_lock` has returned. -/
def LockPc.Entering (key : Key) (pc : LockPc Key) : Prop :=
  pc = .outside ∨ ∃ fd, pc.seeks = some (key, fd)

/-- Between `get_file_lock` and the end of `free_file_lock` and `delete_file_lock`. -/
def LockPc.Leaving (key : Key) : LockPc Key → Prop
  | .holding other _ | .unlocked other _ | .closed other => other = key
  | .outside => True
  | _ => False

theorem Locks.Moves.seeks {process : Role → Nat} {locks after : Locks Role Nat String}
    (moved : Locks.Moves process locks role step after)
    (label : step = .fcntl ∨ step = .countIn ∨ step = .lock) :
    (after.pc role).seeks = (locks.pc role).seeks := by
  cases moved with
  | fcntl at_ | unlockable at_ | countIn at_ | lock at_ =>
    rw [Locks.goto_pc_self, at_]
    rfl
  | _ => simp at label

theorem Locks.Moves.others {process : Role → Nat} {locks after : Locks Role Nat String}
    (moved : Locks.Moves process locks role step after) (different : other ≠ role) :
    after.pc other = locks.pc other := by
  cases moved <;> exact Locks.goto_pc_other _ _ different

theorem lockStep_locks {setup : Setup} {life after : Lifecycle}
    (stepped : life.lockStep setup role key = some after) :
    ∃ locks, after = { life with locks := locks } := by
  obtain ⟨locks, -, same⟩ := Option.map_eq_some_iff.mp stepped
  exact ⟨locks, same.symm⟩

theorem unlockStep_locks {setup : Setup} {life after : Lifecycle}
    (stepped : life.unlockStep setup role delete = some after) :
    ∃ locks, after = { life with locks := locks } := by
  obtain ⟨locks, -, same⟩ := Option.map_eq_some_iff.mp stepped
  exact ⟨locks, same.symm⟩

theorem lockStep_spec {setup : Setup} {life : Lifecycle}
    (stepped : life.lockStep setup role key = some { life with locks := locks })
    (waits : ∀ key fd, life.locks.pc role ≠ .holding key fd)
    (entering : (life.locks.pc role).Entering key) :
    ∃ step, Locks.Moves setup.process life.locks role step locks ∧
      Locks.Careful setup.process (role, step) life.locks ∧ (locks.pc role).Entering key := by
  unfold Lifecycle.lockStep at stepped
  obtain ⟨_, moved, same⟩ := Option.map_eq_some_iff.mp stepped
  cases same
  have moves := Locks.next_moves moved
  refine ⟨_, moves, ?_, ?_⟩
  · cases at_ : life.locks.pc role <;> simp [Locks.Careful]
  rcases entering with outside | ⟨fd, seeks⟩
  · rw [outside] at moves
    cases moves with
    | opens => exact Or.inr ⟨_, by rw [Locks.goto_pc_self]; rfl⟩
  · refine Or.inr ⟨fd, (moves.seeks ?_).trans seeks⟩
    cases at_ : life.locks.pc role with
    | opened | granted | counted => simp
    | holding other fd => exact absurd at_ (waits other fd)
    | outside | unlocked | closed =>
      rw [at_] at seeks
      cases seeks

theorem unlockStep_spec {setup : Setup} {life : Lifecycle}
    (stepped : life.unlockStep setup role delete = some { life with locks := locks })
    (leaving : (life.locks.pc role).Leaving key) (busy : life.locks.pc role ≠ .outside) :
    ∃ step, Locks.Moves setup.process life.locks role step locks ∧
      (locks.pc role).Leaving key ∧ (locks.pc role).seeks = none ∧
      ((∀ other, other ≠ role → setup.process other ≠ setup.process role) →
        (delete = true → ∀ other, other ≠ role → ∀ fd,
          (life.locks.pc other).seeks ≠ some (key, fd)) →
        Locks.Careful setup.process (role, step) life.locks) := by
  unfold Lifecycle.unlockStep at stepped
  obtain ⟨_, moved, same⟩ := Option.map_eq_some_iff.mp stepped
  cases same
  have moves := Locks.next_moves moved
  cases at_ : life.locks.pc role with
  | outside => exact absurd at_ busy
  | opened | granted | counted =>
    rw [at_] at leaving
    cases leaving
  | holding other fd =>
    simp only [at_] at moves leaving
    have released : (locks.pc role).Leaving key ∧ (locks.pc role).seeks = none := by
      cases moves with
      | freeKeyLock holding =>
        rw [at_] at holding
        cases holding
        rw [Locks.goto_pc_self]
        exact ⟨leaving, rfl⟩
    exact ⟨_, moves, released.1, released.2, fun _ _ => trivial⟩
  | unlocked other fd =>
    simp only [at_] at moves leaving
    have released : (locks.pc role).Leaving key ∧ (locks.pc role).seeks = none := by
      cases moves with
      | closes unlocked | closeFails unlocked =>
        rw [at_] at unlocked
        cases unlocked
        rw [Locks.goto_pc_self]
        exact ⟨leaving, rfl⟩
    refine ⟨_, moves, released.1, released.2, fun alone _ => ?_⟩
    · intro key inode _ neighbour together
      by_cases own : neighbour = role
      · subst own
        rw [at_]
        nofun
      · exact absurd together (alone neighbour own)
  | closed other =>
    simp only [at_] at moves leaving
    subst leaving
    have released : (locks.pc role).Leaving other ∧ (locks.pc role).seeks = none := by
      cases delete <;> cases moves <;> rw [Locks.goto_pc_self] <;> exact ⟨trivial, rfl⟩
    refine ⟨_, moves, released.1, released.2, fun _ unsought => ?_⟩
    · cases delete with
      | false => trivial
      | true =>
        intro key closed neighbour fd
        rw [at_] at closed
        cases closed
        by_cases own : neighbour = role
        · subst own
          rw [at_]
          nofun
        · exact unsought rfl neighbour own fd

/-- A step of the creator. -/
inductive CreatorMoves (setup : Setup) (life : Lifecycle) : Lifecycle → Prop where
  | destroy (at_ : life.creator.pc = .destroy ring) :
      CreatorMoves setup life
        ({ life with names := life.names.unlink (setup.key ring) }.creatorAt (.pastDestroy ring))
  | locking (at_ : life.creator.pc = .create ring .lock)
      (waits : ∀ key fd, life.locks.pc .creator ≠ .holding key fd)
      (locked : life.lockStep setup .creator (setup.key ring) =
        some { life with locks := locks }) :
      CreatorMoves setup life { life with locks := locks }
  | create (at_ : life.creator.pc = .create ring .lock)
      (holding : life.locks.pc .creator = .holding key fd)
      (free : life.names.entry (setup.key ring) = none) :
      CreatorMoves setup life
        (({ life with names := life.names.add (setup.key ring) }.setSegment life.names.next
          .empty).creatorAt (.create ring (.truncate life.names.next)))
  | exists (at_ : life.creator.pc = .create ring .lock)
      (taken : life.names.entry (setup.key ring) = some object) :
      CreatorMoves setup life (life.creatorAt (.create ring .reopen))
  | reopen (at_ : life.creator.pc = .create ring .reopen) : CreatorMoves setup life after
  | truncate (at_ : life.creator.pc = .create ring (.truncate object)) :
      CreatorMoves setup life
        ((life.setSegment object { life.segments object with
          size := setup.bufSize.toNat + viewSize }).creatorAt (.create ring (.init object)))
  | init (at_ : life.creator.pc = .create ring (.init object)) :
      CreatorMoves setup life
        ((life.setSegment object { life.segments object with
          view := (life.segments object).view.init setup.bufSize setup.enableCv
          initialised := true }).creatorAt (.create ring (.unlock object)))
  | unlocking (at_ : life.creator.pc = .create ring (.unlock object))
      (busy : life.locks.pc .creator ≠ .outside)
      (unlocked : life.unlockStep setup .creator false = some { life with locks := locks }) :
      CreatorMoves setup life { life with locks := locks }
  | return (at_ : life.creator.pc = .create ring (.unlock object))
      (free : life.locks.pc .creator = .outside) :
      CreatorMoves setup life
        { life with creator := { life.creator with
          pc := .pastCreate ring
          bufs := Function.update life.creator.bufs ring (some object) } }
  | send (at_ : life.creator.pc = .ready) (buf : life.creator.bufs .send = some object)
      (performed : Action.perform action (life.segments object).view = some (view, producer)) :
      CreatorMoves setup life
        { life.setView object view with creator := { life.creator with producer := producer } }
  | destruct (at_ : life.creator.pc = .ready) :
      CreatorMoves setup life (life.creatorAt (.detach .send))
  | detach (at_ : life.creator.pc = .detach ring) (buf : life.creator.bufs ring = some object) :
      CreatorMoves setup life
        ((life.setView object { (life.segments object).view with
          clientAttached := (life.segments object).view.clientAttached + 1 }).creatorAt
          (if (life.segments object).view.clientAttached + 1 = 1 then .unlink ring
            else .pastDetach ring))
  | unlink (at_ : life.creator.pc = .unlink ring) :
      CreatorMoves setup life
        ({ life with names := life.names.unlink (setup.key ring) }.creatorAt (.pastDetach ring))

theorem creatorStep_moves {setup : Setup} {life after : Lifecycle}
    (moved : life.creatorStep setup destruct = some after) : CreatorMoves setup life after := by
  unfold Lifecycle.creatorStep at moved
  cases at_ : life.creator.pc with
  | destroy ring =>
    simp only [at_, Option.some.injEq] at moved
    subst moved
    exact .destroy at_
  | create ring stage =>
    simp only [at_] at moved
    cases stage with
    | lock =>
      simp only [Lifecycle.createStep] at moved
      split at moved
      · rename_i key fd holding
        cases moved
        unfold Lifecycle.shmCreate
        cases entry : life.names.entry (setup.key ring) with
        | some object => exact .exists at_ entry
        | none => exact .create at_ holding entry
      · rename_i waits
        obtain ⟨locks, rfl⟩ := lockStep_locks moved
        exact .locking at_ waits moved
    | reopen => exact .reopen at_
    | truncate object =>
      cases moved
      exact .truncate at_
    | init object =>
      cases moved
      exact .init at_
    | unlock object =>
      simp only [Lifecycle.createStep] at moved
      split at moved
      · rename_i free
        cases moved
        exact .return at_ free
      · rename_i busy
        obtain ⟨locks, rfl⟩ := unlockStep_locks moved
        exact .unlocking at_ busy moved
  | ready =>
    simp only [at_] at moved
    split at moved
    · split at moved
      · cases moved
        exact .destruct at_
      · cases moved
    · obtain ⟨object, buf, rest⟩ := Option.bind_eq_some_iff.mp moved
      obtain ⟨action, -, rest⟩ := Option.bind_eq_some_iff.mp rest
      obtain ⟨⟨view, producer⟩, performed, same⟩ := Option.bind_eq_some_iff.mp rest
      cases same
      exact .send at_ buf performed
  | detach ring =>
    simp only [at_] at moved
    obtain ⟨object, buf, same⟩ := Option.map_eq_some_iff.mp moved
    subst same
    exact .detach at_ buf
  | unlink ring =>
    simp only [at_, Option.some.injEq] at moved
    subst moved
    exact .unlink at_
  | gone =>
    rw [at_] at moved
    cases moved

/-- A step of the attacher. -/
inductive AttacherMoves (setup : Setup) (life : Lifecycle) : Lifecycle → Prop where
  | begin (at_ : life.attacher.pc = .away) :
      AttacherMoves setup life (life.attacherAt (.attach .send .open))
  | open (at_ : life.attacher.pc = .attach ring .open)
      (found : life.names.entry (setup.key ring.other) = some object) :
      AttacherMoves setup life (life.attacherAt (.attach ring (.map object)))
  | locking (at_ : life.attacher.pc = .attach ring (.map object))
      (waits : ∀ key fd, life.locks.pc .attacher ≠ .holding key fd)
      (locked : life.lockStep setup .attacher (setup.key ring.other) =
        some { life with locks := locks }) :
      AttacherMoves setup life { life with locks := locks }
  | map (at_ : life.attacher.pc = .attach ring (.map object))
      (holding : life.locks.pc .attacher = .holding key fd) :
      AttacherMoves setup life
        { life with attacher := { life.attacher with
          pc := .attach ring (.check object)
          sawInit := life.attacher.sawInit ++ [(object, (life.segments object).initialised)] } }
  | unmappable : AttacherMoves setup life (life.attacherAt .crashed)
  | check (at_ : life.attacher.pc = .attach ring (.check object))
      (next : pc = .attach ring (.unlink object) ∨ pc = .crashed) :
      AttacherMoves setup life
        ((life.setView object { (life.segments object).view with
          clientAttached := (life.segments object).view.clientAttached + 1 }).attacherAt pc)
  | unlink (at_ : life.attacher.pc = .attach ring (.unlink object)) :
      AttacherMoves setup life
        ({ life with names := life.names.unlink (setup.key ring.other) }.attacherAt
          (.attach ring (.unlock object)))
  | unlocking (at_ : life.attacher.pc = .attach ring (.unlock object))
      (busy : life.locks.pc .attacher ≠ .outside)
      (unlocked : life.unlockStep setup .attacher true = some { life with locks := locks }) :
      AttacherMoves setup life { life with locks := locks }
  | return (at_ : life.attacher.pc = .attach ring (.unlock object))
      (free : life.locks.pc .attacher = .outside) :
      AttacherMoves setup life
        { life with attacher := { life.attacher with
          pc := .pastAttach ring
          bufs := Function.update life.attacher.bufs ring (some object) } }
  | recv (at_ : life.attacher.pc = .attached) (buf : life.attacher.bufs .recv = some object)
      (performed : Action.perform action (life.segments object).view = some (view, consumer)) :
      AttacherMoves setup life
        { life.setView object view with attacher := { life.attacher with consumer := consumer } }

theorem attacherStep_moves {setup : Setup} {life after : Lifecycle}
    (moved : life.attacherStep setup = some after) : AttacherMoves setup life after := by
  unfold Lifecycle.attacherStep at moved
  cases at_ : life.attacher.pc with
  | away =>
    simp only [at_, Option.some.injEq] at moved
    subst moved
    exact .begin at_
  | attach ring stage =>
    simp only [at_] at moved
    cases stage with
    | «open» =>
      obtain ⟨object, found, same⟩ := Option.map_eq_some_iff.mp moved
      subst same
      exact .open at_ found
    | map object =>
      simp only [Lifecycle.attachStep] at moved
      split at moved
      · rename_i key fd holding
        split at moved
        · cases moved
          exact .unmappable
        · cases moved
          exact .map at_ holding
      · rename_i waits
        obtain ⟨locks, rfl⟩ := lockStep_locks moved
        exact .locking at_ waits moved
    | check object =>
      simp only [Lifecycle.attachStep, Option.some.injEq] at moved
      subst moved
      refine .check at_ ?_
      split
      · exact Or.inl rfl
      · exact Or.inr rfl
    | unlink object =>
      cases moved
      exact .unlink at_
    | unlock object =>
      simp only [Lifecycle.attachStep] at moved
      split at moved
      · rename_i free
        cases moved
        exact .return at_ free
      · rename_i busy
        obtain ⟨locks, rfl⟩ := unlockStep_locks moved
        exact .unlocking at_ busy moved
  | attached =>
    simp only [at_] at moved
    obtain ⟨object, buf, rest⟩ := Option.bind_eq_some_iff.mp moved
    obtain ⟨action, -, rest⟩ := Option.bind_eq_some_iff.mp rest
    obtain ⟨⟨view, consumer⟩, performed, same⟩ := Option.bind_eq_some_iff.mp rest
    cases same
    exact .recv at_ buf performed
  | crashed =>
    rw [at_] at moved
    cases moved

theorem Naming.start (setup : Setup) (names : Directory String) (segments : Nat → Segment)
    (lockFiles : Directory String) (messages strings : List Bytes) :
    Naming setup names.next names
      (Lifecycle.start names segments lockFiles messages strings).creator where
  old := Nat.le_refl _
  shape := rfl
  stale := fun _ object found => Or.inl (names.bound _ object found)
  fresh := fun _ _ destroyed _ => nomatch destroyed
  made := fun _ _ made => nomatch made
  apart := fun _ _ _ made _ => nomatch made

/-- A name that goes leaves the others as they are. -/
theorem unlink_found {names : Directory String} (found : (names.unlink key).entry name = some object) :
    names.entry name = some object := by
  by_cases same : name = key
  · subst same
    rw [unlink_entry] at found
    cases found
  · rwa [unlink_other _ same] at found

theorem Naming.unlink {creator : Creator} {names : Directory String}
    (naming : Naming setup base names creator) (key : String) :
    Naming setup base (names.unlink key) creator where
  old := naming.old
  shape := naming.shape
  stale := fun ring _ found => naming.stale ring _ (unlink_found found)
  fresh := fun ring _ destroyed found => naming.fresh ring _ destroyed (unlink_found found)
  made := naming.made
  apart := naming.apart

/-- A creator that goes on without making or destroying a segment. -/
theorem Naming.goes {creator later : Creator} {names : Directory String}
    (naming : Naming setup base names creator) (made : later.made = creator.made)
    (shape : later.pc.Shape later.bufs)
    (destroyed : ∀ ring, creator.pc.destroyed ring = true) :
    Naming setup base names later where
  old := naming.old
  shape := shape
  stale := fun ring _ found => made ▸ naming.stale ring _ found
  fresh := fun ring _ _ found => made ▸ naming.fresh ring _ (destroyed ring) found
  made := fun ring _ done => naming.made ring _ (made ▸ done)
  apart := fun first second object one two =>
    naming.apart first second object (made ▸ one) (made ▸ two)

theorem Creator.segment_destroy {creator : Creator} (at_ : creator.pc = .destroy ring)
    (shape : creator.pc.Shape creator.bufs) (of : CreateStage → Option Nat) (other : Ring) :
    creator.segment of other = none := by
  rw [at_] at shape
  have empty : creator.bufs = fun _ => none := shape
  simp [Creator.segment, at_, empty]

theorem Creator.segment_pastDestroy {creator : Creator} (at_ : creator.pc = .destroy ring)
    (shape : creator.pc.Shape creator.bufs) {of : CreateStage → Option Nat}
    (locked : of .lock = none) :
    Creator.segment { creator with pc := .pastDestroy ring } of = creator.segment of := by
  funext other
  rw [Creator.segment_destroy at_ shape]
  rw [at_] at shape
  have empty : creator.bufs = fun _ => none := shape
  cases ring <;> simp [Creator.segment, CreatorPc.pastDestroy, empty, locked]

/-- A step inside `create_shm` concerns its own ring only. -/
theorem Creator.segment_create {creator : Creator} (at_ : creator.pc = .create ring stage)
    (of : CreateStage → Option Nat) (later : CreateStage) :
    Creator.segment { creator with pc := .create ring later } of =
      Function.update (creator.segment of) ring (of later) := by
  funext other
  by_cases here : other = ring
  · subst here
    simp [Creator.segment]
  · simp [Creator.segment, at_, here, Ne.symm here]

theorem Creator.segment_keeps {creator : Creator} (at_ : creator.pc = .create ring stage)
    {of : CreateStage → Option Nat} (same : of later = of stage) :
    Creator.segment { creator with pc := .create ring later } of = creator.segment of := by
  rw [Creator.segment_create at_, same]
  have here : creator.segment of ring = of stage := by simp [Creator.segment, at_]
  rw [← here, Function.update_eq_self]

theorem Creator.segment_return {creator : Creator}
    (at_ : creator.pc = .create ring (.unlock object)) (shape : creator.pc.Shape creator.bufs)
    {of : CreateStage → Option Nat} (locked : of .lock = none)
    (unlock : of (.unlock object) = some object) :
    Creator.segment { creator with
      pc := .pastCreate ring
      bufs := Function.update creator.bufs ring (some object) } of = creator.segment of := by
  rw [at_] at shape
  funext other
  cases ring
  · have absent : creator.bufs .recv = none := congrFun shape .recv
    cases other <;> simp [Creator.segment, at_, CreatorPc.pastCreate, absent, locked, unlock]
  · cases other <;> simp [Creator.segment, at_, CreatorPc.pastCreate, unlock]

theorem Creator.segment_constructed {creator : Creator} (built : creator.pc.constructed = true)
    (of : CreateStage → Option Nat) : creator.segment of = creator.bufs := by
  funext ring
  unfold Creator.segment
  cases at_ : creator.pc with
  | create => simp [at_, CreatorPc.constructed] at built
  | destroy | ready | detach | unlink | gone => rfl

theorem Creator.segment_runs (creator : Creator) (before : creator.pc.constructed = true)
    (after : later.constructed = true) (producer : Producer) (of : CreateStage → Option Nat) :
    Creator.segment { creator with pc := later, producer := producer } of = creator.segment of :=
  (Creator.segment_constructed after of).trans (Creator.segment_constructed before of).symm

theorem CreatorPc.shape_constructed {pc : CreatorPc} (built : pc.constructed = true)
    (bufs : Ring → Option Nat) :
    pc.Shape bufs = ∀ ring, ∃ object, bufs ring = some object := by
  cases pc with
  | destroy | create => cases built
  | ready | detach | unlink | gone => rfl

theorem CreatorPc.destroyed_constructed {pc : CreatorPc} (built : pc.constructed = true)
    (ring : Ring) : pc.destroyed ring = true := by
  cases pc with
  | destroy => cases built
  | create | ready | detach | unlink | gone => rfl

theorem Naming.destroy {creator : Creator} {names : Directory String}
    (naming : Naming setup base names creator) (at_ : creator.pc = .destroy ring) :
    Naming setup base (names.unlink (setup.key ring)) { creator with pc := .pastDestroy ring } := by
  have absent (other : Ring) : creator.made other = none :=
    Creator.segment_destroy at_ naming.shape _ other
  have later (other : Ring) : Creator.made { creator with pc := .pastDestroy ring } other = none :=
    (congrFun (Creator.segment_pastDestroy at_ naming.shape rfl) other).trans (absent other)
  refine ⟨naming.old, ?_, fun other object found => Or.inl ?_, fun other object destroyed found => ?_,
    fun other object done => ?_, fun first second object done => ?_⟩
  · have shape := naming.shape
    rw [at_] at shape
    cases ring <;> exact shape
  · refine (naming.stale other object (unlink_found found)).resolve_right fun done => ?_
    rw [absent] at done
    cases done
  · by_cases here : other = ring
    · subst here
      rw [unlink_entry] at found
      cases found
    · have before : creator.pc.destroyed other = true := by
        rw [at_]
        cases ring <;> cases other <;> first | rfl | exact absurd rfl here | cases destroyed
      have done := naming.fresh other object before (unlink_found found)
      rw [absent] at done
      cases done
  · rw [later] at done
    cases done
  · rw [later] at done
    cases done

theorem Naming.create {creator : Creator} {names : Directory String}
    (different : setup.fromParty ≠ setup.toParty) (naming : Naming setup base names creator)
    (at_ : creator.pc = .create ring .lock) :
    Naming setup base (names.add (setup.key ring))
      { creator with pc := .create ring (.truncate names.next) } := by
  have made := Creator.segment_create at_ CreateStage.made (.truncate names.next)
  have fresh (other : Ring) (object : Nat)
      (found : (names.add (setup.key ring)).entry (setup.key other) = some object) :
      Function.update creator.made ring (some names.next) other = some object := by
    by_cases here : other = ring
    · subst here
      rw [add_entry] at found
      rw [Function.update_self, found]
    · rw [add_other _ (setup.key_ne different here)] at found
      rw [Function.update_of_ne here]
      exact naming.fresh other object (by rw [at_]; rfl) found
  refine ⟨Nat.le_succ_of_le naming.old, ?_, fun other object found => Or.inr ?_,
    fun other object _ found => ?_, fun other object done => ?_, fun first second object one two => ?_⟩
  · have shape := naming.shape
    rw [at_] at shape
    cases ring <;> exact shape
  · exact (congrFun made other).trans (fresh other object found)
  · exact (congrFun made other).trans (fresh other object found)
  · have done := (congrFun made other).symm.trans done
    rw [Function.update_apply] at done
    split at done
    · cases done
      exact ⟨naming.old, Nat.lt_succ_self _⟩
    · have bounds := naming.made other object done
      exact ⟨bounds.1, Nat.lt_succ_of_lt bounds.2⟩
  · have one := (congrFun made first).symm.trans one
    have two := (congrFun made second).symm.trans two
    rw [Function.update_apply] at one two
    split at one <;> split at two
    · simp_all
    · cases one
      exact absurd (naming.made second _ two).2 (Nat.lt_irrefl _)
    · cases two
      exact absurd (naming.made first _ one).2 (Nat.lt_irrefl _)
    · exact naming.apart first second object one two

theorem Naming.return {creator : Creator} {names : Directory String}
    (naming : Naming setup base names creator) (at_ : creator.pc = .create ring (.unlock object)) :
    Naming setup base names
      { creator with
        pc := .pastCreate ring
        bufs := Function.update creator.bufs ring (some object) } := by
  refine naming.goes (Creator.segment_return at_ naming.shape rfl rfl) ?_ (fun _ => by rw [at_]; rfl)
  have shape := naming.shape
  rw [at_] at shape
  cases ring
  · have absent : creator.bufs .recv = none := congrFun shape .recv
    exact ⟨⟨object, by simp⟩, by simp [absent]⟩
  · obtain ⟨⟨sent, found⟩, -⟩ := shape
    rintro (_ | _)
    · exact ⟨sent, by simp [found]⟩
    · exact ⟨object, by simp⟩

/-- Once constructed, a creator keeps its two segments. -/
theorem Naming.runs {creator : Creator} {names : Directory String}
    (naming : Naming setup base names creator) (before : creator.pc.constructed = true)
    (after : pc.constructed = true) (producer : Producer) :
    Naming setup base names { creator with pc := pc, producer := producer } := by
  have shape := naming.shape
  rw [CreatorPc.shape_constructed before] at shape
  refine naming.goes (creator.segment_runs before after producer _) ?_
    (CreatorPc.destroyed_constructed before)
  rwa [CreatorPc.shape_constructed after]

theorem CreatorPc.constructed_pastDetach (ring : Ring) :
    (CreatorPc.pastDetach ring).constructed = true := by
  cases ring <;> rfl

theorem CreatorPc.constructed_detach (ring : Ring) (first : Prop) [Decidable first] :
    (if first then CreatorPc.unlink ring else .pastDetach ring).constructed = true := by
  split
  · rfl
  · exact constructed_pastDetach ring

theorem Naming.creator {life after : Lifecycle}
    (different : setup.fromParty ≠ setup.toParty)
    (naming : Naming setup base life.names life.creator)
    (moved : CreatorMoves setup life after) :
    Naming setup base after.names after.creator := by
  have shape := naming.shape
  cases moved with
  | destroy at_ => exact naming.destroy at_
  | locking at_ | unlocking at_ => exact naming
  | create at_ holding free => exact naming.create different at_
  | «exists» at_ taken =>
    have made := naming.fresh _ _ (by rw [at_]; rfl) taken
    simp [Creator.segment, at_, CreateStage.made] at made
  | reopen at_ =>
    rw [at_] at shape
    cases shape
  | truncate at_ | init at_ =>
    rename_i ring object
    refine naming.goes (Creator.segment_keeps at_ rfl) ?_ (fun _ => by rw [at_]; rfl)
    rw [at_] at shape
    cases ring <;> exact shape
  | «return» at_ free => exact naming.return at_
  | send at_ buf => exact naming.runs (by rw [at_]; rfl) (by rw [at_]; rfl) _
  | destruct at_ => exact naming.runs (by rw [at_]; rfl) (show CreatorPc.constructed (.detach .send) = true from rfl) _
  | detach at_ buf =>
    exact naming.runs (by rw [at_]; rfl) (CreatorPc.constructed_detach _ _) _
  | unlink at_ =>
    exact (naming.unlink _).runs (by rw [at_]; rfl) (CreatorPc.constructed_pastDetach _) _

theorem Naming.attacher {life after : Lifecycle}
    (naming : Naming setup base life.names life.creator)
    (moved : AttacherMoves setup life after) :
    Naming setup base after.names after.creator := by
  cases moved with
  | unlink at_ => exact naming.unlink _
  | _ => exact naming

end GaiaNet.Mem
