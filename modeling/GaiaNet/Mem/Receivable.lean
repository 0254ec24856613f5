import GaiaNet.Mem.SharedRings

/-! Whether what the creator has sent can still be received: `client_attached` counts the
attacher and the creator's destructor alike, and the first of the two unlinks. -/

namespace GaiaNet.Mem

open Lib Lib.Directory Lib.Transition

theorem perform_header {view later : SharedMemoryView} {action : Action σ}
    (performed : action.perform view = some (later, next)) :
    later.clientAttached = view.clientAttached ∧ later.enableCv = view.enableCv := by
  cases action with
  | write | read =>
    simp only [Action.perform] at performed
    split at performed
    · cases performed
      exact ⟨rfl, rfl⟩
    · cases performed
  | «local» =>
    cases performed
    exact ⟨rfl, rfl⟩
  | outside => cases performed

/-- The segment that `create_shm` has given its size. -/
def CreateStage.sized : CreateStage → Option Nat
  | .init object | .unlock object => some object
  | _ => none

theorem CreateStage.sized_made (stage : CreateStage) (reached : stage.sized = some object) :
    stage.made = some object := by
  cases stage <;> first | exact reached | cases reached

/-- The segment for which `attach_init` has returned. -/
def AttachStage.counted : AttachStage → Option Nat
  | .unlink object | .unlock object => some object
  | _ => none

theorem AttachStage.mapped_grows : AttachStage.Grows AttachStage.mapped :=
  ⟨rfl, fun same => (nomatch same), fun same => same, fun same => same, rfl⟩

theorem AttachStage.counted_grows : AttachStage.Grows AttachStage.counted :=
  ⟨rfl, fun same => (nomatch same), fun same => (nomatch same), fun same => same, rfl⟩

/-- What `attach_shm` has of a segment from some stage on, at the latest once `attach_init` has
returned. -/
structure AttachStage.Keeps (of : AttachStage → Option Nat) : Prop where
  grows : AttachStage.Grows of
  counted : ∀ stage object, AttachStage.counted stage = some object → of stage = some object

theorem AttachStage.counted_mapped (stage : AttachStage) (object : Nat)
    (counted : stage.counted = some object) : stage.mapped = some object := by
  cases stage <;> first | exact counted | cases counted

theorem AttachStage.mapped_keeps : AttachStage.Keeps AttachStage.mapped :=
  ⟨mapped_grows, counted_mapped⟩

theorem AttachStage.counted_keeps : AttachStage.Keeps AttachStage.counted :=
  ⟨counted_grows, fun _ _ counted => counted⟩

/-- The destructor has executed `++client_attached` of the ring. -/
def CreatorPc.detached : CreatorPc → Ring → Bool
  | .unlink .send, ring | .detach .recv, ring => ring = .send
  | .unlink .recv, _ | .gone, _ => true
  | _, _ => false

theorem CreatorPc.detached_next (ring other : Ring) (first : Prop) [Decidable first] :
    (if first then CreatorPc.unlink ring else .pastDetach ring).detached other =
      ((CreatorPc.detach ring).detached other || other = ring) := by
  split <;> cases ring <;> cases other <;> rfl

theorem CreatorPc.detached_unlink (ring other : Ring) :
    (CreatorPc.pastDetach ring).detached other = (CreatorPc.unlink ring).detached other := by
  cases ring <;> cases other <;> rfl

/-- A session on a clean name space: the segments it makes can be opened and attached
until the attacher or the destructor has counted itself. -/
structure Clean (setup : Setup) (base : Nat) (life : Lifecycle) : Prop where
  sharing : Sharing setup base life
  unused : ∀ ring object, life.names.entry (setup.key ring) = some object → base ≤ object
  named : ∀ ring object, life.creator.made ring = some object → life.attacher.pc ≠ .crashed →
    life.attacher.segment AttachStage.counted ring.other ≠ some object →
    life.creator.pc.detached ring = false → life.names.entry (setup.key ring) = some object
  sized : ∀ ring object, life.creator.segment CreateStage.sized ring = some object →
    (life.segments object).size ≠ 0
  header : ∀ ring object, life.creator.finished ring = some object →
    (life.segments object).view.enableCv = setup.enableCv
  count : ∀ ring object, life.creator.finished ring = some object →
    life.attacher.pc ≠ .crashed → life.attacher.segment AttachStage.counted ring.other ≠ some object →
    life.creator.pc.detached ring = false → (life.segments object).view.clientAttached = 0
  blank : ∀ ring object, life.creator.made ring = some object →
    life.creator.finished ring ≠ some object →
    (life.segments object).view.inPos = (life.segments object).view.outPos

theorem Lifecycle.setView_other (life : Lifecycle) (view : SharedMemoryView)
    (different : other ≠ object) :
    (life.setView object view).segments other = life.segments other := by
  simp [Lifecycle.setView, Lifecycle.setSegment, different]

theorem Lifecycle.setView_self (life : Lifecycle) (view : SharedMemoryView) (object : Nat) :
    (life.setView object view).segments object = { life.segments object with view := view } := by
  simp [Lifecycle.setView, Lifecycle.setSegment]

/-- A step of the creator that leaves names and segments alone. -/
theorem Clean.quiet {life after : Lifecycle} (clean : Clean setup base life)
    (sharing : Sharing setup base after) (names : after.names = life.names)
    (segments : after.segments = life.segments) (attacher : after.attacher = life.attacher)
    (known : ∀ of, of CreateStage.lock = none →
      (∀ object, of (.unlock object) = some object) →
      after.creator.segment of = life.creator.segment of)
    (detached : ∀ ring, after.creator.pc.detached ring = life.creator.pc.detached ring) :
    Clean setup base after := by
  have made := known CreateStage.made rfl fun _ => rfl
  have finished := known CreateStage.finished rfl fun _ => rfl
  have sized := known CreateStage.sized rfl fun _ => rfl
  refine ⟨sharing, ?_, ?_, ?_, ?_, ?_, ?_⟩ <;> intro ring object <;>
    simp only [names, segments, attacher, Creator.made, Creator.finished, made, finished, sized,
      detached]
  · exact clean.unused ring object
  · exact clean.named ring object
  · exact clean.sized ring object
  · exact clean.header ring object
  · exact clean.count ring object
  · exact clean.blank ring object

/-- A step of the creator on one view, as `send` and the destructor make them. -/
theorem Clean.viewed {life after : Lifecycle} (clean : Clean setup base life)
    (sharing : Sharing setup base after) (names : after.names = life.names)
    (buf : life.creator.bufs current = some target)
    (segments : after.segments = (life.setView target view).segments)
    (attacher : after.attacher = life.attacher)
    (before : life.creator.pc.constructed = true) (later : after.creator.pc.constructed = true)
    (bufs : after.creator.bufs = life.creator.bufs)
    (enabled : view.enableCv = (life.segments target).view.enableCv)
    (grown : ∀ ring, life.creator.pc.detached ring = true → after.creator.pc.detached ring = true)
    (uncounted : after.creator.pc.detached current = false →
      view.clientAttached = (life.segments target).view.clientAttached) :
    Clean setup base after := by
  have known (of : CreateStage → Option Nat) :
      after.creator.segment of = life.creator.segment of := by
    rw [Creator.segment_constructed before, Creator.segment_constructed later, bufs]
  have mine : life.creator.made current = some target :=
    (congrFun (Creator.segment_constructed before _) current).trans buf
  have apart (ring : Ring) (made : life.creator.made ring = some target) : ring = current :=
    clean.sharing.naming.apart _ _ _ made mine
  have undetached (ring : Ring) (later : after.creator.pc.detached ring = false) :
      life.creator.pc.detached ring = false := by
    by_contra before
    rw [grown ring (by simpa using before)] at later
    cases later
  refine ⟨sharing, ?_, ?_, ?_, ?_, ?_, ?_⟩ <;> intro ring object <;>
    simp only [names, segments, attacher, Creator.made, Creator.finished, known]
  · exact clean.unused ring object
  · exact fun made alive uncounted later =>
      clean.named ring object made alive uncounted (undetached ring later)
  · intro sized
    by_cases same : object = target
    · subst same
      rw [Lifecycle.setView_self]
      exact clean.sized ring object sized
    · rw [Lifecycle.setView_other _ _ same]
      exact clean.sized ring object sized
  · intro done
    by_cases same : object = target
    · subst same
      rw [Lifecycle.setView_self]
      exact enabled.trans (clean.header ring object done)
    · rw [Lifecycle.setView_other _ _ same]
      exact clean.header ring object done
  · intro done alive uncounted_ later
    have zero := clean.count ring object done alive uncounted_ (undetached ring later)
    by_cases same : object = target
    · subst same
      have here := apart ring (Creator.finished_made done)
      subst here
      rw [Lifecycle.setView_self]
      exact (uncounted later).trans zero
    · rwa [Lifecycle.setView_other _ _ same]
  · intro made unfinished
    rw [Creator.segment_constructed before] at made unfinished
    exact absurd made unfinished

theorem Clean.destroy {life : Lifecycle} (clean : Clean setup base life)
    (at_ : life.creator.pc = .destroy ring)
    (sharing : Sharing setup base
      ({ life with names := life.names.unlink (setup.key ring) }.creatorAt (.pastDestroy ring))) :
    Clean setup base
      ({ life with names := life.names.unlink (setup.key ring) }.creatorAt (.pastDestroy ring)) := by
  have shape := clean.sharing.naming.shape
  have none (of : CreateStage → Option Nat) (locked : of .lock = none) (other : Ring) :
      Creator.segment { life.creator with pc := .pastDestroy ring } of other = none :=
    (congrFun (Creator.segment_pastDestroy at_ shape locked) other).trans
      (Creator.segment_destroy at_ shape of other)
  refine ⟨sharing, fun other object found => clean.unused other object (unlink_found found),
    fun other object made => ?_, fun other object sized => ?_, fun other object done => ?_,
    fun other object done => ?_, fun other object made => ?_⟩
  · cases (none CreateStage.made rfl other).symm.trans made
  · cases (none CreateStage.sized rfl other).symm.trans sized
  · cases (none CreateStage.finished rfl other).symm.trans done
  · cases (none CreateStage.finished rfl other).symm.trans done
  · cases (none CreateStage.made rfl other).symm.trans made

/-- A step inside `create_shm` on the segment it is making; `names` may have gained it. -/
theorem Clean.works {life after : Lifecycle} {segment : Segment}
    (clean : Clean setup base life) (sharing : Sharing setup base after)
    (at_ : life.creator.pc = .create current stage)
    (creator : after.creator = { life.creator with pc := .create current later })
    (attacher : after.attacher = life.attacher)
    (making : CreateStage.made later = some target)
    (segments : after.segments = Function.update life.segments target segment)
    (others : ∀ ring, ring ≠ current →
      after.names.entry (setup.key ring) = life.names.entry (setup.key ring))
    (unused : ∀ ring object, after.names.entry (setup.key ring) = some object → base ≤ object)
    (entry : life.attacher.pc ≠ .crashed →
      life.attacher.segment AttachStage.counted current.other ≠ some target →
      after.names.entry (setup.key current) = some target)
    (elsewhere : ∀ ring, ring ≠ current → life.creator.made ring ≠ some target)
    (sized : CreateStage.sized later = some target → segment.size ≠ 0)
    (header : CreateStage.finished later = some target →
      segment.view.enableCv = setup.enableCv ∧ segment.view.clientAttached = 0)
    (blank : segment.view.inPos = segment.view.outPos) : Clean setup base after := by
  have here (of : CreateStage → Option Nat) : after.creator.segment of current = of later := by
    rw [creator, Creator.segment_create at_, Function.update_self]
  have there (of : CreateStage → Option Nat) (ring : Ring) (apart : ring ≠ current) :
      after.creator.segment of ring = life.creator.segment of ring := by
    rw [creator, Creator.segment_create at_, Function.update_of_ne apart]
  have attached (ring : Ring) : life.creator.pc.detached ring = false := by rw [at_]; rfl
  have self : after.segments target = segment := by rw [segments, Function.update_self]
  have other (of : CreateStage → Option Nat)
      (sub : ∀ stage object, of stage = some object → CreateStage.made stage = some object)
      (ring : Ring) (apart : ring ≠ current) (object : Nat)
      (found : life.creator.segment of ring = some object) :
      after.segments object = life.segments object := by
    rw [segments, Function.update_of_ne]
    rintro rfl
    exact elsewhere ring apart (Creator.segment_sub (fun stage => sub stage _) found)
  have same (object : Nat) (made : CreateStage.made later = some object) : object = target :=
    Option.some.inj (made.symm.trans making)
  refine ⟨sharing, unused, fun ring object made alive uncounted _ => ?_,
    fun ring object found => ?_, fun ring object done => ?_,
    fun ring object done alive uncounted _ => ?_, fun ring object made unfinished => ?_⟩ <;>
    by_cases apart : ring = current
  · subst apart
    cases same object ((here _).symm.trans made)
    rw [attacher] at alive uncounted
    exact entry alive uncounted
  · rw [others ring apart]
    rw [attacher] at alive uncounted
    exact clean.named ring object ((there _ ring apart).symm.trans made) alive uncounted (attached ring)
  · subst apart
    have reached := (here _).symm.trans found
    cases same object (CreateStage.sized_made _ reached)
    rw [self]
    exact sized reached
  · have found := (there _ ring apart).symm.trans found
    rw [other _ (fun stage _ => CreateStage.sized_made stage) ring apart object found]
    exact clean.sized ring object found
  · subst apart
    have reached := (here _).symm.trans done
    cases same object (CreateStage.finished_made _ reached)
    rw [self]
    exact (header reached).1
  · have done := (there _ ring apart).symm.trans done
    rw [other _ (fun stage _ => CreateStage.finished_made stage) ring apart object done]
    exact clean.header ring object done
  · subst apart
    have reached := (here _).symm.trans done
    cases same object (CreateStage.finished_made _ reached)
    rw [self]
    exact (header reached).2
  · have done := (there _ ring apart).symm.trans done
    rw [attacher] at alive uncounted
    rw [other _ (fun stage _ => CreateStage.finished_made stage) ring apart object done]
    exact clean.count ring object done alive uncounted (attached ring)
  · subst apart
    cases same object ((here _).symm.trans made)
    rw [self]
    exact blank
  · have made := (there _ ring apart).symm.trans made
    rw [other _ (fun _ _ made => made) ring apart object made]
    exact clean.blank ring object made fun done => unfinished ((there _ ring apart).trans done)

theorem Clean.creator {life after : Lifecycle} (different : setup.fromParty ≠ setup.toParty)
    (clean : Clean setup base life) (moved : CreatorMoves setup life after) :
    Clean setup base after := by
  have sharing := clean.sharing.creator different moved
  have shape := clean.sharing.naming.shape
  have naming := clean.sharing.naming
  cases moved with
  | destroy at_ => exact clean.destroy at_ sharing
  | locking | unlocking =>
    exact clean.quiet sharing rfl rfl rfl (fun _ _ _ => rfl) fun _ => rfl
  | create at_ =>
    rename_i ring _ _ _ free
    refine clean.works sharing at_ rfl rfl rfl rfl
      (fun other apart => add_other _ (setup.key_ne different apart)) (fun other object found => ?_)
      (fun _ _ => add_entry _ _) (fun other apart made => ?_) (fun none => by cases none)
      (fun none => by cases none) rfl
    · by_cases here : setup.key other = setup.key ring
      · rw [here] at found
        cases (add_entry _ _).symm.trans found
        exact naming.old
      · exact clean.unused other object ((add_other _ here).symm.trans found)
    · exact absurd (naming.made other _ made).2 (Nat.lt_irrefl _)
  | «exists» at_ taken =>
    have made := naming.fresh _ _ (by rw [at_]; rfl) taken
    simp [Creator.segment, at_, CreateStage.made] at made
  | reopen at_ =>
    rw [at_] at shape
    cases shape
  | truncate at_ =>
    rename_i ring object
    have made : life.creator.made ring = some object := by
      simp [Creator.segment, at_, CreateStage.made]
    have unfinished : life.creator.finished ring ≠ some object := by
      simp [Creator.segment, at_, CreateStage.finished]
    refine clean.works sharing at_ rfl rfl rfl rfl (fun _ _ => rfl) clean.unused
      (fun alive uncounted => clean.named ring object made alive uncounted (by rw [at_]; rfl))
      (fun other apart same => apart (naming.apart _ _ _ same made)) (fun _ => ?_)
      (fun none => by cases none) (clean.blank ring object made unfinished)
    simp [viewSize]
  | init at_ =>
    rename_i ring object
    have made : life.creator.made ring = some object := by
      simp [Creator.segment, at_, CreateStage.made]
    have sized : life.creator.segment CreateStage.sized ring = some object := by
      simp [Creator.segment, at_, CreateStage.sized]
    exact clean.works sharing at_ rfl rfl rfl rfl (fun _ _ => rfl) clean.unused
      (fun alive uncounted => clean.named ring object made alive uncounted (by rw [at_]; rfl))
      (fun other apart same => apart (naming.apart _ _ _ same made))
      (fun _ => clean.sized ring object sized) (fun _ => ⟨rfl, rfl⟩) rfl
  | «return» at_ =>
    rename_i ring _ _
    refine clean.quiet sharing rfl rfl rfl
      (fun of locked unlock => Creator.segment_return at_ shape locked (unlock _)) fun other => ?_
    rw [at_]
    cases ring <;> cases other <;> rfl
  | send at_ buf performed =>
    obtain ⟨count, enabled⟩ := perform_header performed
    have built : life.creator.pc.constructed = true := by rw [at_]; rfl
    exact clean.viewed sharing rfl buf rfl rfl built built rfl enabled (fun _ same => same) fun _ => count
  | destruct at_ =>
    refine clean.quiet sharing rfl rfl rfl
      (fun of _ _ => life.creator.segment_runs (by rw [at_]; rfl)
        (show CreatorPc.constructed (.detach .send) = true from rfl) _ _) ?_
    intro ring
    rw [at_]
    rfl
  | detach at_ buf =>
    rename_i ring object
    have step (other : Ring) := CreatorPc.detached_next ring other
      ((life.segments object).view.clientAttached + 1 = 1)
    refine clean.viewed sharing rfl buf rfl rfl (by rw [at_]; rfl) (CreatorPc.constructed_detach _ _)
      rfl rfl (fun other before => ?_) (fun later => ?_)
    · rw [at_] at before
      exact (step other).trans (by rw [before]; rfl)
    · have counted := (step ring).symm.trans later
      simp at counted
  | unlink at_ =>
    rename_i ring
    have known (of : CreateStage → Option Nat) :=
      life.creator.segment_runs (by rw [at_]; rfl)
        (CreatorPc.constructed_pastDetach ring) life.creator.producer of
    have detached (other : Ring) : (CreatorPc.pastDetach ring).detached other =
        life.creator.pc.detached other := by
      rw [at_]
      exact CreatorPc.detached_unlink ring other
    refine ⟨sharing, fun other object found => clean.unused other object (unlink_found found),
      fun other object made alive uncounted later => ?_, fun other object found => ?_,
      fun other object found => ?_, fun other object found alive uncounted later => ?_,
      fun other object found unfinished => ?_⟩
    · have before := (detached other).symm.trans later
      have elsewhere : other ≠ ring := by
        rintro rfl
        rw [at_] at before
        cases other <;> cases before
      have found := clean.named other object ((congrFun (known _) other).symm.trans made) alive
        uncounted before
      exact (unlink_other _ (setup.key_ne different elsewhere)).trans found
    · exact clean.sized other object ((congrFun (known _) other).symm.trans found)
    · exact clean.header other object ((congrFun (known _) other).symm.trans found)
    · exact clean.count other object ((congrFun (known _) other).symm.trans found) alive uncounted
        ((detached other).symm.trans later)
    · refine clean.blank other object ((congrFun (known _) other).symm.trans found) fun done => ?_
      exact unfinished ((congrFun (known _) other).trans done)

theorem AttacherMoves.names {life after : Lifecycle} (moved : AttacherMoves setup life after) :
    after.names = life.names ∨ ∃ ring object, life.attacher.pc = .attach ring (.unlink object) ∧
      after.names = life.names.unlink (setup.key ring.other) ∧
      after.attacher.segment AttachStage.counted ring = some object := by
  cases moved with
  | unlink at_ =>
    exact Or.inr ⟨_, _, at_, rfl, by simp [Attacher.segment, Lifecycle.attacherAt, AttachStage.counted]⟩
  | _ => exact Or.inl rfl

/-- What a step of the attacher changes in a segment. -/
theorem AttacherMoves.views {life after : Lifecycle} (moved : AttacherMoves setup life after)
    (object : Nat) :
    after.segments object = life.segments object ∨
    (∃ ring, life.attacher.pc = .attach ring (.check object) ∧
      after.segments object = { life.segments object with
        view := { (life.segments object).view with
          clientAttached := (life.segments object).view.clientAttached + 1 } } ∧
      (after.attacher.segment AttachStage.counted ring = some object ∨
        after.attacher.pc = .crashed)) ∨
    ∃ view, after.segments object = { life.segments object with view := view } ∧
      view.clientAttached = (life.segments object).view.clientAttached ∧
      view.enableCv = (life.segments object).view.enableCv ∧
      ∀ of, life.attacher.segment of .recv = some object := by
  cases moved with
  | check at_ next =>
    rename_i ring target _
    by_cases here : object = target
    · subst here
      refine Or.inr (Or.inl ⟨ring, at_, life.setView_self _ object, ?_⟩)
      rcases next with rfl | rfl
      · left
        simp [Attacher.segment, Lifecycle.attacherAt, AttachStage.counted]
      · exact Or.inr rfl
    · exact Or.inl (life.setView_other _ here)
  | recv at_ buf performed =>
    rename_i target _ view _
    by_cases here : object = target
    · subst here
      obtain ⟨count, enabled⟩ := perform_header performed
      exact Or.inr (Or.inr ⟨view, life.setView_self _ object, count, enabled,
        fun of => by simpa [Attacher.segment, at_] using buf⟩)
    · exact Or.inl (life.setView_other _ here)
  | _ => exact Or.inl rfl

theorem Clean.attacher {life after : Lifecycle} (different : setup.fromParty ≠ setup.toParty)
    (clean : Clean setup base life) (moved : AttacherMoves setup life after) :
    Clean setup base after := by
  have creator := moved.creator
  have naming := clean.sharing.naming
  have alive (later : after.attacher.pc ≠ .crashed) : life.attacher.pc ≠ .crashed :=
    fun crashed => later (moved.crashed crashed)
  have uncounted (ring : Ring) (object : Nat) (later : after.attacher.pc ≠ .crashed)
      (apart : after.attacher.segment AttachStage.counted ring ≠ some object) :
      life.attacher.segment AttachStage.counted ring ≠ some object := fun found =>
    (moved.keeps AttachStage.counted_grows clean.sharing.attached found).elim later apart
  -- Only the owner of a ring opens its segment.
  have owner (ring current : Ring) (object : Nat) (made : life.creator.made ring = some object)
      (opened : life.attacher.opened current = some object) : ring.other = current := by
    rw [naming.apart _ _ _ made (clean.sharing.opened current object opened), Ring.other_other]
  refine ⟨clean.sharing.attacher different (fun ring object _ found => clean.unused _ object found)
    moved, fun ring object found => ?_, fun ring object made later apart attached => ?_,
    fun ring object found => ?_, fun ring object done => ?_,
    fun ring object done later apart attached => ?_, fun ring object made unfinished => ?_⟩
  · rcases moved.names with same | ⟨_, _, -, same, -⟩
    · exact clean.unused ring object (same ▸ found)
    · exact clean.unused ring object (unlink_found (same ▸ found))
  · rw [creator] at made attached
    have found := clean.named ring object made (alive later) (uncounted _ _ later apart) attached
    rcases moved.names with same | ⟨current, taken, at_, same, counted⟩
    · rwa [same]
    · rw [same, unlink_other _ (setup.key_ne different ?_)]
      · exact found
      · rintro rfl
        have opened : life.attacher.opened current = some taken := by
          simp [Attacher.segment, at_, AttachStage.opened]
        have mine := clean.sharing.opened current taken opened
        rw [made] at mine
        cases mine
        rw [Ring.other_other] at apart
        exact apart counted
  · rw [creator] at found
    have sized := clean.sized ring object found
    rcases moved.views object with same | ⟨_, -, same, -⟩ | ⟨_, same, -⟩ <;> rwa [same]
  · rw [creator] at done
    have enabled := clean.header ring object done
    rcases moved.views object with same | ⟨_, -, same, -⟩ | ⟨_, same, -, kept, -⟩ <;> rw [same]
    · exact enabled
    · exact enabled
    · exact kept.trans enabled
  · rw [creator] at done attached
    have zero := clean.count ring object done (alive later) (uncounted _ _ later apart) attached
    rcases moved.views object with same | ⟨current, at_, -, counted⟩ | ⟨_, same, kept, -⟩
    · rwa [same]
    · have here := owner ring current object (Creator.finished_made done)
        (by simp [Attacher.segment, at_, AttachStage.opened])
      subst here
      exact absurd (counted.resolve_right later) apart
    · rw [same]
      exact kept.trans zero
  · rw [creator] at made unfinished
    have equal := clean.blank ring object made unfinished
    rcases moved.views object with same | ⟨_, -, same, -⟩ | ⟨_, -, -, -, own⟩
    · rwa [same]
    · rwa [same]
    · have done := (clean.sharing.passed _ _ (own AttachStage.mapped)).1
      have here := naming.apart _ _ _ made (Creator.finished_made done)
      subst here
      exact absurd done unfinished

theorem Clean.step {life after : Lifecycle} (different : setup.fromParty ≠ setup.toParty)
    (clean : Clean setup base life) (moved : Lifecycle.next setup label life = some after) :
    Clean setup base after := by
  cases label with
  | creator destruct => exact clean.creator different (creatorStep_moves moved)
  | attacher => exact clean.attacher different (attacherStep_moves moved)

namespace Lifecycle

/-- Bytes written and not yet read. -/
def Unread (life : Lifecycle) (object : Nat) : Prop :=
  (life.segments object).view.inPos ≠ (life.segments object).view.outPos

/-- `attach_shm` would open the segment under the key, map it and pass `attach_init`. -/
def Attachable (setup : Setup) (life : Lifecycle) (ring : Ring) (object : Nat) : Prop :=
  life.names.entry (setup.key ring) = some object ∧ (life.segments object).size ≠ 0 ∧
    (life.segments object).view.clientAttached + 1 = 1 ∧
    (life.segments object).view.enableCv = setup.enableCv

/-- While the attacher is alive it has got as far with every segment that holds unread bytes, or
can still attach it. -/
def Receivable (of : AttachStage → Option Nat) (setup : Setup) (life : Lifecycle) : Prop :=
  life.attacher.pc ≠ .crashed → ∀ ring object, life.creator.made ring = some object →
    life.Unread object →
    life.attacher.segment of ring.other = some object ∨ life.Attachable setup ring object

/-- The destructor counts itself on a segment with unread bytes only after the attacher has got
as far with it. -/
def Patient (of : AttachStage → Option Nat) : Label → Lifecycle → Prop
  | .creator _, life => ∀ ring object, life.creator.pc = .detach ring →
      life.creator.bufs ring = some object → life.Unread object → life.attacher.pc ≠ .crashed →
      life.attacher.segment of ring.other = some object
  | .attacher, _ => True

/-- What the patience of the destructor leaves behind. -/
def Kept (of : AttachStage → Option Nat) (life : Lifecycle) : Prop :=
  ∀ ring object, life.creator.pc.detached ring = true → life.creator.made ring = some object →
    life.attacher.pc = .crashed ∨ ¬ life.Unread object ∨
      life.attacher.segment of ring.other = some object

end Lifecycle

theorem Attacher.segment_sub {attacher : Attacher} {of upper : AttachStage → Option Nat}
    (sub : ∀ stage, of stage = some object → upper stage = some object)
    (found : attacher.segment of ring = some object) :
    attacher.segment upper ring = some object := by
  unfold Attacher.segment at found ⊢
  cases at_ : attacher.pc with
  | attach current stage =>
    simp only [at_] at found ⊢
    split at found
    · rename_i here
      rw [if_pos here]
      exact sub stage found
    · rename_i here
      rw [if_neg here]
      exact found
  | away | attached | crashed =>
    simp only [at_] at found
    exact found

theorem CreateStage.finished_sized (stage : CreateStage) (done : stage.finished = some object) :
    stage.sized = some object := by
  cases stage <;> first | exact done | cases done

theorem Clean.attachable {life : Lifecycle} (clean : Clean setup base life)
    (keeps : AttachStage.Keeps of) (done : life.creator.finished ring = some object)
    (alive : life.attacher.pc ≠ .crashed)
    (missing : life.attacher.segment of ring.other ≠ some object)
    (attached : life.creator.pc.detached ring = false) : life.Attachable setup ring object := by
  have uncounted : life.attacher.segment AttachStage.counted ring.other ≠ some object :=
    fun counted => missing (Attacher.segment_sub (fun stage => keeps.counted stage _) counted)
  refine ⟨clean.named ring object (Creator.finished_made done) alive uncounted attached,
    clean.sized ring object (Creator.segment_sub CreateStage.finished_sized done), ?_,
    clean.header ring object done⟩
  rw [clean.count ring object done alive uncounted attached]
  rfl

theorem Clean.receivable {life : Lifecycle} (clean : Clean setup base life)
    (keeps : AttachStage.Keeps of) (kept : life.Kept of) : life.Receivable of setup := by
  intro alive ring object made unread
  by_cases reached : life.attacher.segment of ring.other = some object
  · exact Or.inl reached
  right
  have done : life.creator.finished ring = some object := by
    by_contra unfinished
    exact unread (clean.blank ring object made unfinished)
  have attached : life.creator.pc.detached ring = false := by
    by_contra detached
    rcases kept ring object (by simpa using detached) made with crashed | empty | found
    · exact alive crashed
    · exact empty unread
    · exact reached found
  exact clean.attachable keeps done alive reached attached

theorem Lifecycle.Kept.detach {life : Lifecycle} {view : SharedMemoryView}
    (kept : life.Kept of) (patient : life.Patient of (.creator destruct))
    (at_ : life.creator.pc = .detach current) (buf : life.creator.bufs current = some target)
    (positions : view.inPos = (life.segments target).view.inPos ∧
      view.outPos = (life.segments target).view.outPos)
    (detached : life.creator.pc.detached ring = true ∨ ring = current)
    (made : life.creator.made ring = some object) :
    life.attacher.pc = .crashed ∨ ¬ (life.setView target view).Unread object ∨
      life.attacher.segment of ring.other = some object := by
  have same : (life.setView target view).Unread object ↔ life.Unread object := by
    unfold Lifecycle.Unread
    by_cases here : object = target
    · subst here
      rw [Lifecycle.setView_self]
      simp only [positions]
    · rw [Lifecycle.setView_other _ _ here]
  rw [same]
  rcases detached with before | rfl
  · exact kept ring object before made
  · have built : life.creator.pc.constructed = true := by rw [at_]; rfl
    have own : life.creator.bufs ring = some object :=
      (congrFun (Creator.segment_constructed built _) ring).symm.trans made
    by_cases alive : life.attacher.pc = .crashed
    · exact Or.inl alive
    · by_cases unread : life.Unread object
      · exact Or.inr (Or.inr (patient ring object at_ own unread alive))
      · exact Or.inr (Or.inl unread)

theorem Clean.kept {life after : Lifecycle} (clean : Clean setup base life)
    (keeps : AttachStage.Keeps of) (kept : life.Kept of) (patient : life.Patient of label)
    (moved : Lifecycle.next setup label life = some after) : after.Kept of := by
  intro ring object detached made
  cases label with
  | creator destruct =>
    have shape := clean.sharing.naming.shape
    have moves := creatorStep_moves moved
    cases moves with
    | destroy at_ =>
      rename_i current
      cases current <;> cases detached
    | «return» at_ =>
      rename_i current _ _
      cases current <;> cases detached
    | locking at_ | unlocking at_ | send at_ =>
      have before : life.creator.pc.detached ring = true := detached
      rw [at_] at before
      cases before
    | create | «exists» | truncate | init | destruct => cases detached
    | reopen at_ =>
      rw [at_] at shape
      cases shape
    | detach at_ buf =>
      rename_i current target
      have built : life.creator.pc.constructed = true := by rw [at_]; rfl
      have step := CreatorPc.detached_next current ring
        ((life.segments target).view.clientAttached + 1 = 1)
      refine kept.detach patient at_ buf ⟨rfl, rfl⟩ ?_ ?_
      · rw [at_]
        simpa using step.symm.trans detached
      · exact (congrFun (life.creator.segment_runs built (CreatorPc.constructed_detach _ _) _ _) ring).symm.trans
          made
    | unlink at_ =>
      rename_i current
      have built : life.creator.pc.constructed = true := by rw [at_]; rfl
      refine kept ring object ?_ ?_
      · rw [at_]
        exact (CreatorPc.detached_unlink current ring).symm.trans detached
      · exact (congrFun (life.creator.segment_runs built (CreatorPc.constructed_pastDetach _) _ _)
          ring).symm.trans made
  | attacher =>
    have moves := attacherStep_moves moved
    rw [moves.creator] at detached made
    have later (reached : life.attacher.segment of ring.other = some object) :
        after.attacher.pc = .crashed ∨ ¬ after.Unread object ∨
          after.attacher.segment of ring.other = some object :=
      (moves.keeps keeps.grows clean.sharing.attached reached).imp_right Or.inr
    rcases kept ring object detached made with crashed | empty | reached
    · exact Or.inl (moves.crashed crashed)
    · unfold Lifecycle.Unread at empty ⊢
      rcases moves.views object with same | ⟨_, -, same, -⟩ | ⟨_, -, -, -, own⟩
      · exact Or.inr (Or.inl (same ▸ empty))
      · exact Or.inr (Or.inl (same ▸ empty))
      · have done := (clean.sharing.passed _ _ (own AttachStage.mapped)).1
        have here := clean.sharing.naming.apart _ _ _ made (Creator.finished_made done)
        subst here
        exact later (own of)
    · exact later reached

theorem Clean.breaks {life : Lifecycle} (clean : Clean setup base life)
    (keeps : AttachStage.Keeps of) (impatient : ¬ life.Patient of label) :
    ∃ after, Lifecycle.next setup label life = some after ∧ ¬ after.Receivable of setup := by
  cases label with
  | attacher => exact absurd trivial impatient
  | creator destruct =>
    simp only [Lifecycle.Patient, not_forall] at impatient
    obtain ⟨ring, object, at_, buf, unread, alive, missing⟩ := impatient
    have built : life.creator.pc.constructed = true := by rw [at_]; rfl
    have done : life.creator.finished ring = some object :=
      (congrFun (Creator.segment_constructed built _) ring).trans buf
    have attached : life.creator.pc.detached ring = false := by
      rw [at_]
      cases ring <;> rfl
    obtain ⟨-, -, count, -⟩ := clean.attachable keeps done alive missing attached
    have moved : Lifecycle.next setup (.creator destruct) life =
        some ((life.setView object { (life.segments object).view with
          clientAttached := (life.segments object).view.clientAttached + 1 }).creatorAt
            (if (life.segments object).view.clientAttached + 1 = 1 then .unlink ring
              else .pastDetach ring)) := by
      simp only [Lifecycle.next, Lifecycle.creatorStep, at_, Lifecycle.detachStep, buf,
        Option.map_some]
    refine ⟨_, moved, fun receivable => ?_⟩
    have self := life.setView_self { (life.segments object).view with
      clientAttached := (life.segments object).view.clientAttached + 1 } object
    have again := receivable alive ring object
      ((congrFun (Creator.segment_constructed (CreatorPc.constructed_detach _ _) _) ring).trans buf)
    simp only [Lifecycle.Unread, Lifecycle.Attachable, Lifecycle.creatorAt, self] at again
    rcases again unread with reached | ⟨-, -, again, -⟩
    · exact missing reached
    · omega

theorem Clean.start (setup : Setup) (names : Directory String) (segments : Nat → Segment)
    (lockFiles : Directory String) (messages strings : List Bytes)
    (unused : ∀ ring, names.entry (setup.key ring) = none) :
    Clean setup names.next (Lifecycle.start names segments lockFiles messages strings) where
  sharing := Sharing.start setup names segments lockFiles messages strings
  unused := fun ring _ found => by cases (unused ring).symm.trans found
  named := fun _ _ made => by cases made
  sized := fun _ _ found => by cases found
  header := fun _ _ done => by cases done
  count := fun _ _ done => by cases done
  blank := fun _ _ made => by cases made

theorem receivable_iff_patient (setup : Setup) (names lockFiles : Directory String)
    (segments : Nat → Segment) (messages strings : List Bytes) (labels : List Lifecycle.Label)
    (creates : setup.fromParty < setup.toParty)
    (unused : ∀ ring, names.entry (setup.key ring) = none) (keeps : AttachStage.Keeps of) :
    Always (Lifecycle.next setup) (Lifecycle.Receivable of setup) labels
        (Lifecycle.start names segments lockFiles messages strings) ↔
      Meets (Lifecycle.next setup) (Lifecycle.Patient of) labels
        (Lifecycle.start names segments lockFiles messages strings) := by
  have different : setup.fromParty ≠ setup.toParty := UInt32.ne_of_lt creates
  refine Always.iff_meets (Clean setup names.next) (Lifecycle.Kept of)
    (fun _ _ _ clean moved => clean.step different moved)
    (fun _ _ _ clean kept patient moved => clean.kept keeps kept patient moved)
    (fun _ clean kept => clean.receivable keeps kept)
    (fun _ _ clean _ impatient => clean.breaks keeps impatient)
    labels (Clean.start setup names segments lockFiles messages strings unused) ?_
  intro ring object detached
  cases detached

/-- In a session on a clean name space, in every interleaving: every segment with unread
bytes is mapped by the attacher or can still be attached, as long as the attacher is alive,
if and only if the destructor never counts itself on such a segment before the attacher
has mapped it. It is the same with segments for which `attach_init` has returned. -/
theorem data_receivable (setup : Setup) (names lockFiles : Directory String)
    (segments : Nat → Segment) (messages strings : List Bytes) (labels : List Lifecycle.Label)
    (creates : setup.fromParty < setup.toParty)
    (unused : ∀ ring, names.entry (setup.key ring) = none) :
    (Always (Lifecycle.next setup) (Lifecycle.Receivable AttachStage.mapped setup) labels
        (Lifecycle.start names segments lockFiles messages strings) ↔
      Meets (Lifecycle.next setup) (Lifecycle.Patient AttachStage.mapped) labels
        (Lifecycle.start names segments lockFiles messages strings)) ∧
    (Always (Lifecycle.next setup) (Lifecycle.Receivable AttachStage.counted setup) labels
        (Lifecycle.start names segments lockFiles messages strings) ↔
      Meets (Lifecycle.next setup) (Lifecycle.Patient AttachStage.counted) labels
        (Lifecycle.start names segments lockFiles messages strings)) :=
  ⟨receivable_iff_patient setup names lockFiles segments messages strings labels creates unused
      AttachStage.mapped_keeps,
    receivable_iff_patient setup names lockFiles segments messages strings labels creates unused
      AttachStage.counted_keeps⟩

/-- The creator sends one byte and is destroyed before the attacher has called anything. -/
def hasty : List Lifecycle.Label := creates 27 ++ [.creator true, .creator false]

/-- The whole message is in the segment, which nobody can attach any more. -/
theorem hasty_unreceivable :
    ∃ final, run (Lifecycle.next pair) hasty
        (Lifecycle.start .empty (fun _ => .empty) .empty [[7]] []) = some final ∧
      final.creator.producer.todo = [] ∧ ¬ final.Receivable AttachStage.mapped pair := by
  refine ⟨_, rfl, rfl, fun receivable => ?_⟩
  have alive : AttacherPc.away ≠ .crashed := nofun
  have unread : (5 : UInt32) ≠ 0 := by decide
  rcases receivable alive .send 0 rfl unread with mapped | ⟨-, -, again, -⟩
  · cases mapped
  · cases again

theorem data_receivable_hasty :
    ¬ Meets (Lifecycle.next pair) (Lifecycle.Patient AttachStage.mapped) hasty
      (Lifecycle.start .empty (fun _ => .empty) .empty [[7]] []) := by
  obtain ⟨final, finished, -, lost⟩ := hasty_unreceivable
  intro meets
  have always := (data_receivable pair .empty .empty (fun _ => .empty) [[7]] [] hasty (by decide)
    fun _ => rfl).1.mpr meets
  exact lost (always.last hasty finished)

theorem data_lost :
    ∃ labels, ¬ Always (Lifecycle.next pair) (Lifecycle.Receivable AttachStage.mapped pair) labels
      (Lifecycle.start .empty (fun _ => .empty) .empty [[7]] []) := by
  obtain ⟨final, finished, -, lost⟩ := hasty_unreceivable
  exact ⟨hasty, fun always => lost (always.last hasty finished)⟩

end GaiaNet.Mem
