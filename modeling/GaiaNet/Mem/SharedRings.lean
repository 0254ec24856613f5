import GaiaNet.Mem.Naming

/-! Whether both ends of a session hold the same two segments once the constructor and
`attach()` have returned: they do unless `attach()` opens what an earlier run left. -/

namespace GaiaNet.Mem

open Lib Lib.Directory Lib.Transition

/-- The segment that `attach_shm` has opened. -/
def AttachStage.opened : AttachStage → Option Nat
  | .open => none
  | .map object | .check object | .unlink object | .unlock object => some object

/-- The segment that `attach_shm` has mapped, under the file lock. -/
def AttachStage.mapped : AttachStage → Option Nat
  | .open | .map _ => none
  | .check object | .unlink object | .unlock object => some object

/-- The segment of a ring, judged by the stage while `attach_shm` works on it. -/
def Attacher.segment (attacher : Attacher) (of : AttachStage → Option Nat) (ring : Ring) :
    Option Nat :=
  match attacher.pc with
  | .attach current stage => if current = ring then of stage else attacher.bufs ring
  | .crashed => none
  | _ => attacher.bufs ring

abbrev Attacher.opened (attacher : Attacher) : Ring → Option Nat :=
  attacher.segment AttachStage.opened

abbrev Attacher.mapped (attacher : Attacher) : Ring → Option Nat :=
  attacher.segment AttachStage.mapped

/-- Where each point of the creator stands with its file locks. -/
def CreatorPc.Lock (setup : Setup) (lock : LockPc String) : CreatorPc → Prop
  | .create ring .lock => lock.Entering (setup.key ring)
  | .create ring (.unlock _) => lock.Leaving (setup.key ring)
  | .create ring _ => ∃ fd, lock = .holding (setup.key ring) fd
  | _ => lock = .outside

def AttacherPc.Lock (setup : Setup) (lock : LockPc String) : AttacherPc → Prop
  | .attach _ .open => lock = .outside
  | .attach ring (.map _) => lock.Entering (setup.key ring.other)
  | .attach ring (.unlock _) => lock.Leaving (setup.key ring.other)
  | .attach ring _ => ∃ fd, lock = .holding (setup.key ring.other) fd
  | .crashed => True
  | _ => lock = .outside

/-- Which pointers `attach()` has set. -/
def AttacherPc.Shape (bufs : Ring → Option Nat) : AttacherPc → Prop
  | .away | .attach .send _ => bufs = fun _ => none
  | .attach .recv _ => (∃ object, bufs .send = some object) ∧ bufs .recv = none
  | .attached => ∀ ring, ∃ object, bufs ring = some object
  | .crashed => True

/-- The file locks as far as two threads need them: within one process the mutex keeps
them apart, between two the record lock. -/
structure Mutex (setup : Setup) (locks : Locks Role Nat String) : Prop where
  counted : Locks.KeyCounts setup.process locks
  guarded : setup.process .creator ≠ setup.process .attacher → Locks.Guarded setup.process locks

theorem Mutex.exclusive {locks : Locks Role Nat String} (mutex : Mutex setup locks)
    (creator : locks.Holding .creator key) (attacher : locks.Holding .attacher key) : False := by
  by_cases together : setup.process .creator = setup.process .attacher
  · obtain ⟨users, holder, count⟩ := mutex.counted (setup.process .creator) key
    have mine := (count.held .creator).mpr ⟨rfl, creator⟩
    have theirs := (count.held .attacher).mpr ⟨together.symm, attacher⟩
    rw [mine] at theirs
    cases theirs
  · cases (mutex.guarded together).exclusive creator attacher

theorem Mutex.step {locks after : Locks Role Nat String} (mutex : Mutex setup locks)
    (moved : Locks.Moves setup.process locks role label after)
    (careful : (∀ other, other ≠ role → setup.process other ≠ setup.process role) →
      Locks.Careful setup.process (role, label) locks) : Mutex setup after where
  counted := mutex.counted.step moved
  guarded := by
    intro apart
    refine (mutex.guarded apart).step (careful fun other different => ?_) moved
    cases role <;> cases other <;> first | exact absurd rfl different | exact apart | exact apart.symm

/-- What holds as long as the attacher opens no segment of an earlier run. -/
structure Sharing (setup : Setup) (base : Nat) (life : Lifecycle) : Prop where
  naming : Naming setup base life.names life.creator
  mutex : Mutex setup life.locks
  creatorLock : life.creator.pc.Lock setup (life.locks.pc .creator)
  attacherLock : life.attacher.pc.Lock setup (life.locks.pc .attacher)
  initialised : ∀ ring object, life.creator.finished ring = some object →
    (life.segments object).initialised = true
  opened : ∀ ring object, life.attacher.opened ring = some object →
    life.creator.made ring.other = some object
  passed : ∀ ring object, life.attacher.mapped ring = some object →
    life.creator.finished ring.other = some object ∧
      ∀ fd, (life.locks.pc .creator).seeks ≠ some (setup.key ring.other, fd)
  saw : ∀ entry ∈ life.attacher.sawInit, entry.2 = true
  seen : ∀ ring object, life.attacher.mapped ring = some object →
    (object, true) ∈ life.attacher.sawInit
  attached : life.attacher.pc.Shape life.attacher.bufs

theorem Creator.segment_sub {creator : Creator} {of upper : CreateStage → Option Nat}
    (sub : ∀ stage, of stage = some object → upper stage = some object)
    (found : creator.segment of ring = some object) : creator.segment upper ring = some object := by
  unfold Creator.segment at found ⊢
  cases at_ : creator.pc with
  | create current stage =>
    simp only [at_] at found ⊢
    split at found
    · rename_i here
      rw [if_pos here]
      exact sub stage found
    · rename_i here
      rw [if_neg here]
      exact found
  | destroy | ready | detach | unlink | gone =>
    simp only [at_] at found
    exact found

theorem CreateStage.finished_made (stage : CreateStage) (done : stage.finished = some object) :
    stage.made = some object := by
  cases stage <;> first | exact done | cases done

theorem Creator.finished_made {creator : Creator}
    (done : creator.finished ring = some object) : creator.made ring = some object :=
  Creator.segment_sub CreateStage.finished_made done

/-- A segment that the creator has made is initialised, or under the file lock. -/
theorem Sharing.made_finished {life : Lifecycle} (sharing : Sharing setup base life)
    (made : life.creator.made ring = some object) :
    life.creator.finished ring = some object ∨ life.locks.Holding .creator (setup.key ring) := by
  have lock := sharing.creatorLock
  unfold Creator.made Creator.segment at made
  unfold Creator.finished Creator.segment
  cases at_ : life.creator.pc with
  | create current stage =>
    simp only [at_] at made
    rw [at_] at lock
    by_cases here : current = ring
    · subst here
      rw [if_pos rfl] at made
      cases stage with
      | lock | reopen => cases made
      | truncate | init => exact Or.inr lock
      | unlock =>
        cases made
        exact Or.inl (if_pos rfl)
    · rw [if_neg here] at made
      exact Or.inl ((if_neg here).trans made)
  | destroy | ready | detach | unlink | gone =>
    simp only [at_] at made
    exact Or.inl made

/-- What a step of the creator does to the segments as it knows them. -/
theorem CreatorMoves.segments {life after : Lifecycle} (moved : CreatorMoves setup life after)
    (shape : life.creator.pc.Shape life.creator.bufs) :
    (after.creator.made = life.creator.made ∧ after.creator.finished = life.creator.finished) ∨
      (∃ ring, life.creator.pc = .create ring .lock ∧
        after.creator.made = Function.update life.creator.made ring (some life.names.next) ∧
        after.creator.finished = life.creator.finished) ∨
      (∃ ring object, life.creator.pc = .create ring (.init object) ∧
        after.creator.made = life.creator.made ∧
        after.creator.finished = Function.update life.creator.finished ring (some object) ∧
        (after.segments object).initialised = true) := by
  cases moved with
  | destroy at_ =>
    exact Or.inl ⟨Creator.segment_pastDestroy at_ shape rfl, Creator.segment_pastDestroy at_ shape rfl⟩
  | locking | unlocking | send => exact Or.inl ⟨rfl, rfl⟩
  | create at_ =>
    exact Or.inr (Or.inl ⟨_, at_, Creator.segment_create at_ _ _, Creator.segment_keeps at_ rfl⟩)
  | «exists» at_ => exact Or.inl ⟨Creator.segment_keeps at_ rfl, Creator.segment_keeps at_ rfl⟩
  | reopen at_ =>
    rw [at_] at shape
    cases shape
  | truncate at_ => exact Or.inl ⟨Creator.segment_keeps at_ rfl, Creator.segment_keeps at_ rfl⟩
  | init at_ =>
    exact Or.inr (Or.inr ⟨_, _, at_, Creator.segment_keeps at_ rfl, Creator.segment_create at_ _ _,
      by simp [Lifecycle.creatorAt, Lifecycle.setSegment]⟩)
  | «return» at_ =>
    exact Or.inl ⟨Creator.segment_return at_ shape rfl rfl, Creator.segment_return at_ shape rfl rfl⟩
  | destruct at_ =>
    have goes := life.creator.segment_runs (by rw [at_]; rfl)
      (show CreatorPc.constructed (.detach .send) = true from rfl) life.creator.producer
    exact Or.inl ⟨goes _, goes _⟩
  | detach at_ =>
    rename_i ring object _
    have goes := life.creator.segment_runs (by rw [at_]; rfl)
      (CreatorPc.constructed_detach ring ((life.segments object).view.clientAttached + 1 = 1))
      life.creator.producer
    exact Or.inl ⟨goes _, goes _⟩
  | unlink at_ =>
    rename_i ring
    have goes := life.creator.segment_runs (by rw [at_]; rfl)
      (CreatorPc.constructed_pastDetach ring) life.creator.producer
    exact Or.inl ⟨goes _, goes _⟩

theorem CreatorMoves.made {life after : Lifecycle} (moved : CreatorMoves setup life after)
    (shape : life.creator.pc.Shape life.creator.bufs)
    (made : life.creator.made ring = some object) : after.creator.made ring = some object := by
  rcases moved.segments shape with ⟨same, -⟩ | ⟨current, at_, same, -⟩ | ⟨_, _, -, same, -⟩
  · rw [same]
    exact made
  · have elsewhere : ring ≠ current := by
      rintro rfl
      simp [Creator.segment, at_, CreateStage.made] at made
    rw [same, Function.update_of_ne elsewhere]
    exact made
  · rw [same]
    exact made

theorem CreatorMoves.finished {life after : Lifecycle} (moved : CreatorMoves setup life after)
    (shape : life.creator.pc.Shape life.creator.bufs)
    (done : life.creator.finished ring = some object) :
    after.creator.finished ring = some object := by
  rcases moved.segments shape with ⟨-, same⟩ | ⟨_, -, -, same⟩ | ⟨current, _, at_, -, same, -⟩
  · rw [same]
    exact done
  · rw [same]
    exact done
  · have elsewhere : ring ≠ current := by
      rintro rfl
      simp [Creator.segment, at_, CreateStage.finished] at done
    rw [same, Function.update_of_ne elsewhere]
    exact done

/-- No step takes back that a segment has been initialised. -/
theorem CreatorMoves.initialised {life after : Lifecycle} (moved : CreatorMoves setup life after)
    (shape : life.creator.pc.Shape life.creator.bufs) (old : object < life.names.next)
    (done : (life.segments object).initialised = true) :
    (after.segments object).initialised = true := by
  have update (changed : Nat) (segment : Segment) (keeps : changed = object →
      segment.initialised = true) :
      (Function.update life.segments changed segment object).initialised = true := by
    rw [Function.update_apply]
    split
    · rename_i same
      exact keeps same.symm
    · exact done
  cases moved with
  | destroy | locking | «exists» | unlocking | «return» | destruct | unlink => exact done
  | create => exact update _ _ fun same => absurd old (same ▸ Nat.lt_irrefl _)
  | reopen at_ =>
    rw [at_] at shape
    cases shape
  | truncate | send | detach =>
    refine update _ _ fun same => ?_
    subst same
    exact done
  | init => exact update _ _ fun _ => rfl

theorem CreatorPc.lock_constructed {pc : CreatorPc} (built : pc.constructed = true)
    (setup : Setup) (lock : LockPc String) : pc.Lock setup lock = (lock = .outside) := by
  cases pc with
  | destroy | create => cases built
  | ready | detach | unlink | gone => rfl

theorem LockPc.Entering.holding {lock : LockPc String} (entering : lock.Entering key)
    (at_ : lock = .holding other fd) : lock = .holding key fd := by
  subst at_
  rcases entering with outside | ⟨_, seeks⟩
  · cases outside
  · cases seeks
    rfl

/-- What a step of the creator does to the locks: it is after the lock of the segment that
it is about to make, or gives a lock back. -/
theorem Sharing.creator_locks {life after : Lifecycle} (sharing : Sharing setup base life)
    (moved : CreatorMoves setup life after) :
    after.locks = life.locks ∨
      ∃ label, Locks.Moves setup.process life.locks .creator label after.locks ∧
        ((∀ other, other ≠ .creator → setup.process other ≠ setup.process .creator) →
          Locks.Careful setup.process (.creator, label) life.locks) ∧
        ∀ key fd, (after.locks.pc .creator).seeks = some (key, fd) →
          ∃ ring, life.creator.pc = .create ring .lock ∧ key = setup.key ring := by
  have lock := sharing.creatorLock
  cases moved with
  | locking at_ waits locked =>
    rw [at_] at lock
    obtain ⟨label, moves, careful, entering⟩ := lockStep_spec locked waits lock
    refine Or.inr ⟨label, moves, fun _ => careful, fun key fd seeks => ⟨_, at_, ?_⟩⟩
    rcases entering with outside | ⟨_, own⟩
    · rw [outside] at seeks
      cases seeks
    · rw [own] at seeks
      cases seeks
      rfl
  | unlocking at_ busy unlocked =>
    rw [at_] at lock
    obtain ⟨label, moves, -, absent, careful⟩ := unlockStep_spec unlocked lock busy
    refine Or.inr ⟨label, moves, fun alone => careful alone (fun delete => nomatch delete),
      fun key fd seeks => ?_⟩
    rw [absent] at seeks
    cases seeks
  | reopen at_ =>
    have shape := sharing.naming.shape
    rw [at_] at shape
    cases shape
  | _ => exact Or.inl rfl

theorem Sharing.creator_lock {life after : Lifecycle} (sharing : Sharing setup base life)
    (moved : CreatorMoves setup life after) :
    after.creator.pc.Lock setup (after.locks.pc .creator) := by
  have lock := sharing.creatorLock
  cases moved with
  | destroy at_ =>
    rename_i ring
    rw [at_] at lock
    cases ring
    · exact lock
    · exact Or.inl lock
  | locking at_ waits locked =>
    rw [at_] at lock
    obtain ⟨-, -, -, entering⟩ := lockStep_spec locked waits lock
    change life.creator.pc.Lock setup _
    rw [at_]
    exact entering
  | create at_ holding =>
    rw [at_] at lock
    exact ⟨_, lock.holding holding⟩
  | «exists» at_ taken =>
    have made := sharing.naming.fresh _ _ (by rw [at_]; rfl) taken
    simp [Creator.segment, at_, CreateStage.made] at made
  | reopen at_ =>
    have shape := sharing.naming.shape
    rw [at_] at shape
    cases shape
  | truncate at_ =>
    rw [at_] at lock
    exact lock
  | init at_ =>
    rw [at_] at lock
    obtain ⟨fd, holding⟩ := lock
    change (life.locks.pc .creator).Leaving _
    rw [holding]
    rfl
  | unlocking at_ busy unlocked =>
    rw [at_] at lock
    obtain ⟨-, -, leaving, -⟩ := unlockStep_spec unlocked lock busy
    change life.creator.pc.Lock setup _
    rw [at_]
    exact leaving
  | «return» at_ free =>
    rename_i ring _
    cases ring
    · exact Or.inl free
    · exact free
  | send => exact lock
  | destruct at_ =>
    rw [at_] at lock
    exact lock
  | detach at_ =>
    rw [at_] at lock
    exact (CreatorPc.lock_constructed (CreatorPc.constructed_detach _ _) _ _).mpr lock
  | unlink at_ =>
    rw [at_] at lock
    exact (CreatorPc.lock_constructed (CreatorPc.constructed_pastDetach _) _ _).mpr lock

theorem CreatorMoves.attacher {life after : Lifecycle} (moved : CreatorMoves setup life after)
    (shape : life.creator.pc.Shape life.creator.bufs) : after.attacher = life.attacher := by
  cases moved with
  | reopen at_ =>
    rw [at_] at shape
    cases shape
  | _ => rfl

theorem Sharing.creator {life after : Lifecycle} (different : setup.fromParty ≠ setup.toParty)
    (sharing : Sharing setup base life) (moved : CreatorMoves setup life after) :
    Sharing setup base after := by
  have shape := sharing.naming.shape
  have attacher := moved.attacher shape
  have locks := sharing.creator_locks moved
  have keeps (ring : Ring) (object : Nat) (done : life.creator.finished ring = some object) :
      (after.segments object).initialised = true := by
    have bounds := sharing.naming.made ring object (Creator.finished_made done)
    exact moved.initialised shape bounds.2 (sharing.initialised ring object done)
  refine ⟨sharing.naming.creator different moved, ?_, sharing.creator_lock moved, ?_, ?_, ?_, ?_,
    ?_, ?_, ?_⟩ <;> try rw [attacher]
  · rcases locks with same | ⟨label, moves, careful, -⟩
    · rw [same]
      exact sharing.mutex
    · exact sharing.mutex.step moves careful
  · rcases locks with same | ⟨label, moves, -, -⟩
    · rw [same]
      exact sharing.attacherLock
    · rw [moves.others (by decide)]
      exact sharing.attacherLock
  · intro ring object done
    rcases moved.segments shape with ⟨-, same⟩ | ⟨_, -, -, same⟩ | ⟨current, made, at_, -, same, new⟩
    · exact keeps ring object (congrFun same ring ▸ done)
    · exact keeps ring object (congrFun same ring ▸ done)
    · rw [congrFun same ring, Function.update_apply] at done
      split at done
      · cases done
        exact new
      · exact keeps ring object done
  · intro ring object found
    exact moved.made shape (sharing.opened ring object found)
  · intro ring object found
    obtain ⟨done, unsought⟩ := sharing.passed ring object found
    refine ⟨moved.finished shape done, fun fd seeks => ?_⟩
    rcases locks with same | ⟨label, -, -, sought⟩
    · rw [same] at seeks
      exact unsought fd seeks
    · obtain ⟨current, at_, same⟩ := sought _ fd seeks
      by_cases here : ring.other = current
      · subst here
        simp [Creator.segment, at_, CreateStage.finished] at done
      · exact setup.key_ne different here same
  · exact sharing.saw
  · exact sharing.seen
  · exact sharing.attached

/-- `shm_open` of the attacher finds no segment of an earlier run. -/
def Lifecycle.Fresh (setup : Setup) (base : Nat) : Label → Lifecycle → Prop
  | .attacher, life => ∀ ring object, life.attacher.pc = .attach ring .open →
      life.names.entry (setup.key ring.other) = some object → base ≤ object
  | .creator _, _ => True

/-- A step inside `attach_shm` concerns its own ring only. -/
theorem Attacher.segment_attach {attacher later : Attacher} {of : AttachStage → Option Nat}
    (found : later.segment of ring = some object) (at_ : attacher.pc = .attach current stage)
    (next : later.pc = .attach current following) (bufs : later.bufs = attacher.bufs) :
    ring = current ∧ of following = some object ∨ attacher.segment of ring = some object := by
  by_cases here : ring = current
  · subst here
    left
    simpa [Attacher.segment, next] using found
  · right
    simpa [Attacher.segment, at_, next, bufs, Ne.symm here] using found

theorem Attacher.segment_keeps {attacher later : Attacher} {of : AttachStage → Option Nat}
    (found : later.segment of ring = some object) (at_ : attacher.pc = .attach current stage)
    (next : later.pc = .attach current following) (bufs : later.bufs = attacher.bufs)
    (same : of following = of stage) : attacher.segment of ring = some object := by
  rcases Attacher.segment_attach found at_ next bufs with ⟨rfl, here⟩ | found
  · simpa [Attacher.segment, at_, same] using here
  · exact found

theorem Attacher.segment_return {attacher : Attacher}
    (at_ : attacher.pc = .attach ring (.unlock object)) {of : AttachStage → Option Nat}
    (fresh : of .open = none) (unlock : of (.unlock object) = some object)
    (found : Attacher.segment { attacher with
      pc := .pastAttach ring
      bufs := Function.update attacher.bufs ring (some object) } of other = some taken) :
    attacher.segment of other = some taken := by
  cases ring <;> cases other <;>
    simp_all [Attacher.segment, AttacherPc.pastAttach]

/-- A segment that the attacher has opened was open before or had the name. -/
theorem AttacherMoves.opened {life after : Lifecycle} (moved : AttacherMoves setup life after)
    (found : after.attacher.opened ring = some object) :
    life.attacher.opened ring = some object ∨
      life.attacher.pc = .attach ring .open ∧
        life.names.entry (setup.key ring.other) = some object := by
  cases moved with
  | begin at_ =>
    left
    cases ring
    · simp [Attacher.segment, Lifecycle.attacherAt, AttachStage.opened] at found
    · simpa [Attacher.segment, at_, Lifecycle.attacherAt] using found
  | «open» at_ entry =>
    rcases Attacher.segment_attach found at_ rfl rfl with ⟨rfl, same⟩ | found
    · cases same
      exact Or.inr ⟨at_, entry⟩
    · exact Or.inl found
  | locking | unlocking | recv => exact Or.inl found
  | map at_ | unlink at_ =>
    exact Or.inl (Attacher.segment_keeps found at_ rfl rfl rfl)
  | unmappable => cases found
  | check at_ next =>
    rcases next with rfl | rfl
    · exact Or.inl (Attacher.segment_keeps found at_ rfl rfl rfl)
    · cases found
  | «return» at_ => exact Or.inl (Attacher.segment_return at_ rfl rfl found)

theorem AttacherMoves.mapped {life after : Lifecycle} (moved : AttacherMoves setup life after)
    (found : after.attacher.mapped ring = some object) :
    life.attacher.mapped ring = some object ∨
      life.attacher.pc = .attach ring (.map object) ∧
        ∃ key fd, life.locks.pc .attacher = .holding key fd ∧
          (object, (life.segments object).initialised) ∈ after.attacher.sawInit := by
  cases moved with
  | begin at_ =>
    left
    cases ring
    · simp [Attacher.segment, Lifecycle.attacherAt, AttachStage.mapped] at found
    · simpa [Attacher.segment, at_, Lifecycle.attacherAt] using found
  | locking | unlocking | recv => exact Or.inl found
  | map at_ holding =>
    rcases Attacher.segment_attach found at_ rfl rfl with ⟨rfl, same⟩ | found
    · cases same
      exact Or.inr ⟨at_, _, _, holding, by simp⟩
    · exact Or.inl found
  | «open» at_ | unlink at_ =>
    exact Or.inl (Attacher.segment_keeps found at_ rfl rfl rfl)
  | unmappable => cases found
  | check at_ next =>
    rcases next with rfl | rfl
    · exact Or.inl (Attacher.segment_keeps found at_ rfl rfl rfl)
    · cases found
  | «return» at_ => exact Or.inl (Attacher.segment_return at_ rfl rfl found)

theorem AttacherMoves.shape {life after : Lifecycle} (moved : AttacherMoves setup life after)
    (shape : life.attacher.pc.Shape life.attacher.bufs) :
    after.attacher.pc.Shape after.attacher.bufs := by
  cases moved with
  | begin at_ =>
    rw [at_] at shape
    exact shape
  | unmappable => trivial
  | unlink at_ =>
    rename_i ring _
    rw [at_] at shape
    cases ring <;> exact shape
  | «open» at_ entry =>
    rename_i ring _
    rw [at_] at shape
    cases ring <;> exact shape
  | map at_ holding =>
    rename_i ring _ _ _
    rw [at_] at shape
    cases ring <;> exact shape
  | locking | unlocking | recv => exact shape
  | check at_ next =>
    rename_i ring _ _
    rw [at_] at shape
    rcases next with rfl | rfl
    · cases ring <;> exact shape
    · trivial
  | «return» at_ free =>
    rename_i ring object
    rw [at_] at shape
    cases ring
    · have absent : life.attacher.bufs .recv = none := congrFun shape .recv
      exact ⟨⟨object, by simp⟩, by simp [absent]⟩
    · obtain ⟨⟨sent, found⟩, -⟩ := shape
      rintro (_ | _)
      · exact ⟨sent, by simp [found]⟩
      · exact ⟨object, by simp⟩

theorem AttacherMoves.creator {life after : Lifecycle} (moved : AttacherMoves setup life after) :
    after.creator = life.creator := by
  cases moved <;> rfl

theorem AttacherMoves.initialised {life after : Lifecycle} (moved : AttacherMoves setup life after)
    (object : Nat) : (after.segments object).initialised = (life.segments object).initialised := by
  cases moved with
  | check | recv =>
    change (Function.update life.segments _ _ object).initialised = _
    rw [Function.update_apply]
    split
    · rename_i same
      rw [same]
    · rfl
  | _ => rfl

theorem AttacherMoves.saw {life after : Lifecycle} (moved : AttacherMoves setup life after)
    (member : entry ∈ after.attacher.sawInit) :
    entry ∈ life.attacher.sawInit ∨ ∃ ring object, life.attacher.pc = .attach ring (.map object) ∧
      entry = (object, (life.segments object).initialised) ∧
      ∃ key fd, life.locks.pc .attacher = .holding key fd := by
  cases moved with
  | map at_ holding =>
    rcases List.mem_append.mp member with old | new
    · exact Or.inl old
    · exact Or.inr ⟨_, _, at_, List.mem_singleton.mp new, _, _, holding⟩
  | _ => exact Or.inl member

theorem AttacherMoves.sawInit {life after : Lifecycle} (moved : AttacherMoves setup life after)
    (member : entry ∈ life.attacher.sawInit) : entry ∈ after.attacher.sawInit := by
  cases moved with
  | map => exact List.mem_append_left _ member
  | _ => exact member

/-- What a step of the attacher does to the locks. -/
theorem Sharing.attacher_locks {life after : Lifecycle} (sharing : Sharing setup base life)
    (moved : AttacherMoves setup life after) :
    after.locks = life.locks ∨
      ∃ label, Locks.Moves setup.process life.locks .attacher label after.locks ∧
        ((∀ other, other ≠ .attacher → setup.process other ≠ setup.process .attacher) →
          Locks.Careful setup.process (.attacher, label) life.locks) := by
  have lock := sharing.attacherLock
  cases moved with
  | locking at_ waits locked =>
    rw [at_] at lock
    obtain ⟨label, moves, careful, -⟩ := lockStep_spec locked waits lock
    exact Or.inr ⟨label, moves, fun _ => careful⟩
  | unlocking at_ busy unlocked =>
    rename_i ring object _
    rw [at_] at lock
    obtain ⟨label, moves, -, -, careful⟩ := unlockStep_spec unlocked lock busy
    refine Or.inr ⟨label, moves, fun alone => careful alone fun _ other different => ?_⟩
    have mapped : life.attacher.mapped ring = some object := by
      simp [Attacher.segment, at_, AttachStage.mapped]
    cases other with
    | creator => exact (sharing.passed ring object mapped).2
    | attacher => exact absurd rfl different
  | _ => exact Or.inl rfl

theorem Sharing.attacher_lock {life after : Lifecycle} (sharing : Sharing setup base life)
    (moved : AttacherMoves setup life after) :
    after.attacher.pc.Lock setup (after.locks.pc .attacher) := by
  have lock := sharing.attacherLock
  cases moved with
  | begin at_ =>
    rw [at_] at lock
    exact lock
  | «open» at_ =>
    rw [at_] at lock
    exact Or.inl lock
  | locking at_ waits locked =>
    rw [at_] at lock
    obtain ⟨-, -, -, entering⟩ := lockStep_spec locked waits lock
    change life.attacher.pc.Lock setup _
    rw [at_]
    exact entering
  | map at_ holding =>
    rw [at_] at lock
    exact ⟨_, lock.holding holding⟩
  | unmappable => trivial
  | check at_ next =>
    rw [at_] at lock
    rcases next with rfl | rfl
    · exact lock
    · trivial
  | unlink at_ =>
    rw [at_] at lock
    obtain ⟨fd, holding⟩ := lock
    change (life.locks.pc .attacher).Leaving _
    rw [holding]
    rfl
  | unlocking at_ busy unlocked =>
    rw [at_] at lock
    obtain ⟨-, -, leaving, -⟩ := unlockStep_spec unlocked lock busy
    change life.attacher.pc.Lock setup _
    rw [at_]
    exact leaving
  | «return» at_ free =>
    rename_i ring _
    cases ring <;> exact free
  | recv at_ =>
    rw [at_] at lock
    change life.attacher.pc.Lock setup _
    rw [at_]
    exact lock

theorem LockPc.Leaving.holding {lock : LockPc String} (leaving : lock.Leaving key)
    (seeks : lock.seeks = some (other, fd)) : lock = .holding other fd ∧ key = other := by
  cases lock with
  | outside | unlocked | closed => cases seeks
  | opened | granted | counted => cases leaving
  | holding =>
    cases seeks
    cases leaving
    exact ⟨rfl, rfl⟩

/-- Once initialised and not under its lock, a segment has been left by `create_shm`. -/
theorem Sharing.left {life : Lifecycle} (different : setup.fromParty ≠ setup.toParty)
    (sharing : Sharing setup base life) (done : life.creator.finished ring = some object)
    (free : ¬ life.locks.Holding .creator (setup.key ring)) :
    (life.locks.pc .creator).seeks ≠ some (setup.key ring, fd) := by
  intro seeks
  have lock := sharing.creatorLock
  unfold Creator.finished Creator.segment at done
  cases at_ : life.creator.pc with
  | create current stage =>
    rw [at_] at lock
    simp only [at_] at done
    have here : ring = current → CreateStage.finished stage = some object := by
      rintro rfl
      rwa [if_pos rfl] at done
    cases stage with
    | lock =>
      rcases lock with outside | ⟨_, own⟩
      · rw [outside] at seeks
        cases seeks
      · rw [own] at seeks
        cases here (setup.key_inj different (congrArg Prod.fst (Option.some.inj seeks)).symm)
    | reopen | truncate | init =>
      obtain ⟨_, holding⟩ := lock
      rw [holding] at seeks
      cases here (setup.key_inj different (congrArg Prod.fst (Option.some.inj seeks)).symm)
    | unlock =>
      exact free ⟨_, (lock.holding seeks).1⟩
  | destroy | ready | detach | unlink | gone =>
    rw [at_] at lock
    rw [lock] at seeks
    cases seeks

theorem Sharing.attacher {life after : Lifecycle} (different : setup.fromParty ≠ setup.toParty)
    (sharing : Sharing setup base life) (fresh : Lifecycle.Fresh setup base .attacher life)
    (moved : AttacherMoves setup life after) : Sharing setup base after := by
  have locks := sharing.attacher_locks moved
  have creator := moved.creator
  have unmoved : after.locks.pc .creator = life.locks.pc .creator := by
    rcases locks with same | ⟨_, moves, -⟩
    · rw [same]
    · exact moves.others (by decide)
  -- What the attacher maps under the lock, the creator has initialised and left.
  have ready (key : String) (fd : Option Nat) (ring : Ring) (object : Nat) (at_ : life.attacher.pc = .attach ring (.map object))
      (holding : life.locks.pc .attacher = .holding key fd) :
      life.creator.finished ring.other = some object ∧
        ¬ life.locks.Holding .creator (setup.key ring.other) := by
    have lock := sharing.attacherLock
    rw [at_] at lock
    have mine : life.locks.Holding .attacher (setup.key ring.other) := ⟨_, lock.holding holding⟩
    have alone : ¬ life.locks.Holding .creator (setup.key ring.other) := fun theirs =>
      sharing.mutex.exclusive theirs mine
    have made := sharing.opened ring object (by simp [Attacher.segment, at_, AttachStage.opened])
    exact ⟨(sharing.made_finished made).resolve_right alone, alone⟩
  refine ⟨sharing.naming.attacher moved, ?_, ?_, sharing.attacher_lock moved, ?_, ?_, ?_, ?_, ?_, ?_⟩
  · rcases locks with same | ⟨label, moves, careful⟩
    · rw [same]
      exact sharing.mutex
    · exact sharing.mutex.step moves careful
  · rw [creator, unmoved]
    exact sharing.creatorLock
  · intro ring object done
    rw [moved.initialised]
    exact sharing.initialised ring object (creator ▸ done)
  · intro ring object found
    rw [creator]
    rcases moved.opened found with old | ⟨at_, entry⟩
    · exact sharing.opened ring object old
    · refine (sharing.naming.stale _ _ entry).resolve_left ?_
      exact Nat.not_lt.mpr (fresh ring object at_ entry)
  · intro ring object found
    rw [creator, unmoved]
    rcases moved.mapped found with old | ⟨at_, _, _, holding, -⟩
    · exact sharing.passed ring object old
    · obtain ⟨done, free⟩ := ready _ _ ring object at_ holding
      exact ⟨done, fun fd => sharing.left different done free⟩
  · intro entry member
    rcases moved.saw member with old | ⟨ring, object, at_, rfl, _, _, holding⟩
    · exact sharing.saw entry old
    · exact sharing.initialised _ _ (ready _ _ ring object at_ holding).1
  · intro ring object found
    rcases moved.mapped found with old | ⟨at_, _, _, holding, member⟩
    · exact moved.sawInit (sharing.seen ring object old)
    · rwa [sharing.initialised _ _ (ready _ _ ring object at_ holding).1] at member
  · exact moved.shape sharing.attached

theorem Sharing.start (setup : Setup) (names : Directory String) (segments : Nat → Segment)
    (lockFiles : Directory String) (messages strings : List Bytes) :
    Sharing setup names.next (Lifecycle.start names segments lockFiles messages strings) where
  naming := Naming.start setup names segments lockFiles messages strings
  mutex := ⟨(Locks.Guarded.start lockFiles).counted, fun _ => Locks.Guarded.start lockFiles⟩
  creatorLock := rfl
  attacherLock := rfl
  initialised := fun _ _ done => nomatch done
  opened := fun _ _ found => nomatch found
  passed := fun _ _ found => nomatch found
  saw := fun _ member => nomatch member
  seen := fun _ _ found => nomatch found
  attached := rfl

theorem Sharing.step {life after : Lifecycle} (different : setup.fromParty ≠ setup.toParty)
    (sharing : Sharing setup base life) (fresh : Lifecycle.Fresh setup base label life)
    (moved : Lifecycle.next setup label life = some after) : Sharing setup base after := by
  cases label with
  | creator destruct => exact sharing.creator different (creatorStep_moves moved)
  | attacher => exact sharing.attacher different fresh (attacherStep_moves moved)

@[simp] theorem Ring.other_other (ring : Ring) : ring.other.other = ring := by
  cases ring <;> rfl

/-- The attacher has a segment of an earlier run, or has met a failed assertion. -/
def Lifecycle.Stale (base : Nat) (life : Lifecycle) : Prop :=
  life.attacher.pc = .crashed ∨ ∃ ring object, life.attacher.opened ring = some object ∧ object < base

/-- What `attach_shm` has once reached for a segment it keeps. -/
structure AttachStage.Grows (of : AttachStage → Option Nat) : Prop where
  fresh : of .open = none
  check : of (.map object) = some known → of (.check object) = some known
  unlink : of (.check object) = some known → of (.unlink object) = some known
  unlock : of (.unlink object) = some known → of (.unlock object) = some known
  done : of (.unlock object) = some object

theorem Attacher.segment_grows {attacher later : Attacher} {of : AttachStage → Option Nat}
    (at_ : attacher.pc = .attach current stage) (next : later.pc = .attach current following)
    (bufs : later.bufs = attacher.bufs) (grow : of stage = some known → of following = some known)
    (found : attacher.segment of ring = some known) : later.segment of ring = some known := by
  by_cases here : current = ring
  · simp only [Attacher.segment, at_, next, here, if_true] at found ⊢
    exact grow found
  · simpa [Attacher.segment, at_, next, bufs, here] using found

theorem AttacherMoves.keeps {life after : Lifecycle} {of : AttachStage → Option Nat}
    (moved : AttacherMoves setup life after) (grows : AttachStage.Grows of)
    (shape : life.attacher.pc.Shape life.attacher.bufs)
    (found : life.attacher.segment of ring = some known) :
    after.attacher.pc = .crashed ∨ after.attacher.segment of ring = some known := by
  cases moved with
  | begin at_ =>
    rw [at_] at shape
    have empty : life.attacher.bufs = fun _ => none := shape
    simp [Attacher.segment, at_, empty] at found
  | «open» at_ entry =>
    refine Or.inr (Attacher.segment_grows at_ rfl rfl (fun known => ?_) found)
    rw [grows.fresh] at known
    cases known
  | locking | unlocking | recv => exact Or.inr found
  | map at_ => exact Or.inr (Attacher.segment_grows at_ rfl rfl grows.check found)
  | unlink at_ => exact Or.inr (Attacher.segment_grows at_ rfl rfl grows.unlock found)
  | unmappable => exact Or.inl rfl
  | check at_ next =>
    rcases next with rfl | rfl
    · exact Or.inr (Attacher.segment_grows at_ rfl rfl grows.unlink found)
    · exact Or.inl rfl
  | «return» at_ =>
    rename_i current object _
    right
    have done : of (.unlock object) = some object := grows.done
    rw [at_] at shape
    cases current
    · have absent : life.attacher.bufs .recv = none := congrFun shape .recv
      cases ring <;> simp_all [Attacher.segment, AttacherPc.pastAttach]
    · cases ring <;> simp_all [Attacher.segment, AttacherPc.pastAttach]

theorem AttachStage.opened_grows : AttachStage.Grows AttachStage.opened :=
  ⟨rfl, fun same => same, fun same => same, fun same => same, rfl⟩

theorem AttacherMoves.crashed {life after : Lifecycle} (moved : AttacherMoves setup life after)
    (crashed : life.attacher.pc = .crashed) : after.attacher.pc = .crashed := by
  cases moved <;> simp_all [Lifecycle.attacherAt]

/-- What holds in every run, from any leftovers. -/
structure Leftover (setup : Setup) (base : Nat) (life : Lifecycle) : Prop where
  naming : Naming setup base life.names life.creator
  attached : life.attacher.pc.Shape life.attacher.bufs

theorem Leftover.step {life after : Lifecycle} (different : setup.fromParty ≠ setup.toParty)
    (leftover : Leftover setup base life)
    (moved : Lifecycle.next setup label life = some after) : Leftover setup base after := by
  cases label with
  | creator destruct =>
    have moves := creatorStep_moves moved
    refine ⟨leftover.naming.creator different moves, ?_⟩
    rw [moves.attacher leftover.naming.shape]
    exact leftover.attached
  | attacher =>
    have moves := attacherStep_moves moved
    exact ⟨leftover.naming.attacher moves, moves.shape leftover.attached⟩

theorem Leftover.stale {life after : Lifecycle} (leftover : Leftover setup base life)
    (stale : life.Stale base) (moved : Lifecycle.next setup label life = some after) :
    after.Stale base := by
  cases label with
  | creator destruct =>
    unfold Lifecycle.Stale
    rw [(creatorStep_moves moved).attacher leftover.naming.shape]
    exact stale
  | attacher =>
    have moves := attacherStep_moves moved
    rcases stale with crashed | ⟨ring, object, found, old⟩
    · exact Or.inl (moves.crashed crashed)
    · rcases moves.keeps AttachStage.opened_grows leftover.attached found with crashed | kept
      · exact Or.inl crashed
      · exact Or.inr ⟨ring, object, kept, old⟩

/-- Party 1 creates in process 0 and party 2 attaches in process 1. -/
def pair : Setup where
  fromParty := 1
  toParty := 2
  taskid := "t"
  plain := by decide
  bufSize := 8
  enableCv := true
  process := fun role => if role = .creator then 0 else 1

def creates (count : Nat) : List Lifecycle.Label := List.replicate count (.creator false)

end GaiaNet.Mem
