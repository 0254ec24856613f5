import GaiaNet.Mem.KeyLock

/-! The table of key mutexes counts its users: an entry is there as long as a thread waits
for its mutex or holds it, and no longer. -/

namespace GaiaNet.Mem

open Lib Lib.CountedLock Lib.Transition

variable {Thread Key : Type}

/-- The entry that a thread's `pair` refers to, once it is counted there. -/
def KeyPc.refers : KeyPc Key → Option (Key × Nat)
  | .counted key serial | .waiting key serial | .unlocked key serial => some (key, serial)
  | _ => none

/-- The thread owns the global mutex. -/
def KeyPc.critical : KeyPc Key → Bool
  | .looking _ | .counted _ _ | .finding _ | .unlocked _ _ | .erasing _ | .leaving => true
  | _ => false

/-- The key that the thread deals with. -/
def KeyPc.key : KeyPc Key → Option Key
  | .getting key | .looking key | .counted key _ | .waiting key _ | .freeing key | .finding key
  | .unlocked key _ | .erasing key => some key
  | _ => none

theorem KeyPc.key_refers {pc : KeyPc Key} {key : Key} (refers : pc.refers = some (key, serial)) :
    pc.key = some key := by
  cases pc <;> cases refers <;> rfl

/-- The key that the thread does not hold yet or any more. -/
def KeyPc.lacks : KeyPc Key → Option Key
  | .getting key | .looking key | .counted key _ | .waiting key _ | .unlocked key _ => some key
  | _ => none

/-- The key that the thread is going to unlock. -/
def KeyPc.frees : KeyPc Key → Option Key
  | .freeing key | .finding key => some key
  | _ => none

namespace KeyTable

/-- The thread has passed the increment under the key and not yet the decrement; the entry
is the one that it waits for, holds or has just unlocked. -/
def Uses (table : KeyTable Thread Key) (thread : Thread) (key : Key) (serial : Nat) : Prop :=
  table.held thread key = some serial ∨ (table.pc thread).refers = some (key, serial)

/-- The counter of a key; 0 without an entry. -/
def counter (table : KeyTable Thread Key) (key : Key) : Nat :=
  match table.globalMap key with
  | none => 0
  | some (_, lock) => lock.count

/-- The users of a key and their entry. -/
structure Census (table : KeyTable Thread Key) (key : Key) (users : List Thread) : Prop where
  nodup : users.Nodup
  user : ∀ thread, thread ∈ users ↔ ∃ serial, table.Uses thread key serial
  counted : table.counter key = users.length
  entry : ∀ thread serial, table.Uses thread key serial →
    ∃ lock, table.globalMap key = some (serial, lock)
  holder : ∀ serial lock, table.globalMap key = some (serial, lock) →
    ∀ thread, lock.holder = some thread ↔ table.held thread key ≠ none
  unused : users = [] → table.globalMap key ≠ none → ∃ thread, table.pc thread = .erasing key
  erasing : ∀ thread, table.pc thread = .erasing key → users = []

structure Sound (table : KeyTable Thread Key) : Prop where
  critical : ∀ thread, (table.pc thread).critical = true ↔ table.globalMtx = some thread
  census : ∀ key, ∃ users, table.Census key users
  lacks : ∀ thread key, (table.pc thread).lacks = some key → table.held thread key = none
  frees : ∀ thread key, (table.pc thread).frees = some key → table.held thread key ≠ none
  defined : ∀ thread, table.pc thread ≠ .undefined

/-- Every other thread is where it was. -/
def Apart (thread : Thread) (table after : KeyTable Thread Key) : Prop :=
  ∀ other, other ≠ thread →
    after.pc other = table.pc other ∧ after.held other = table.held other

section

variable {table after : KeyTable Thread Key} {thread : Thread}

theorem Apart.uses (apart : Apart thread table after) (different : other ≠ thread) :
    after.Uses other key serial ↔ table.Uses other key serial := by
  obtain ⟨pc, held⟩ := apart other different
  unfold Uses
  rw [pc, held]

/-- A thread without the mutex that is not on its way to one either. -/
theorem not_uses (held : table.held thread key = none) (refers : (table.pc thread).refers = none)
    (serial : Nat) : ¬ table.Uses thread key serial := by
  rintro (holds | waits)
  · rw [held] at holds
    cases holds
  · rw [refers] at waits
    cases waits

/-- A step leaves the census of a key alone if it changes neither the entry nor what the
thread does under this key. -/
theorem Census.frame {users : List Thread} (census : table.Census key users)
    (apart : Apart thread table after) (entry : after.globalMap key = table.globalMap key)
    (held : after.held thread key = table.held thread key)
    (refers : ∀ serial, (after.pc thread).refers = some (key, serial) ↔
      (table.pc thread).refers = some (key, serial))
    (erasing : after.pc thread = .erasing key ↔ table.pc thread = .erasing key) :
    after.Census key users := by
  have uses (other : Thread) (serial : Nat) :
      after.Uses other key serial ↔ table.Uses other key serial := by
    by_cases same : other = thread
    · subst same
      unfold Uses
      rw [held, refers]
    · exact apart.uses same
  have holds (other : Thread) : after.held other key = table.held other key := by
    by_cases same : other = thread
    · rw [same, held]
    · rw [(apart other same).2]
  have erases (other : Thread) : after.pc other = .erasing key ↔ table.pc other = .erasing key := by
    by_cases same : other = thread
    · rw [same]
      exact erasing
    · rw [(apart other same).1]
  refine ⟨census.nodup, ?_, ?_, ?_, ?_, ?_, ?_⟩
  · intro other
    simp only [uses]
    exact census.user other
  · unfold counter
    rw [entry]
    exact census.counted
  · intro other serial used
    rw [entry]
    exact census.entry other serial ((uses other serial).mp used)
  · intro serial lock found other
    rw [entry] at found
    rw [holds other]
    exact census.holder serial lock found other
  · intro none present
    rw [entry] at present
    obtain ⟨other, at_⟩ := census.unused none present
    exact ⟨other, (erases other).mpr at_⟩
  · intro other at_
    exact census.erasing other ((erases other).mp at_)

/-- What a step of one thread has to keep for it and for the keys. -/
theorem Sound.moved (sound : table.Sound) (apart : Apart thread table after)
    (own : (after.pc thread).critical = true ↔ after.globalMtx = some thread)
    (global : ∀ other, other ≠ thread → (after.globalMtx = some other ↔ table.globalMtx = some other))
    (census : ∀ key, ∃ users, after.Census key users)
    (lacks : ∀ key, (after.pc thread).lacks = some key → after.held thread key = none)
    (frees : ∀ key, (after.pc thread).frees = some key → after.held thread key ≠ none)
    (defined : after.pc thread ≠ .undefined) : after.Sound := by
  refine ⟨fun other => ?_, census, fun other key => ?_, fun other key => ?_, fun other => ?_⟩
  all_goals by_cases same : other = thread
  · rw [same]
    exact own
  · rw [(apart other same).1, global other same]
    exact sound.critical other
  · rw [same]
    exact lacks key
  · rw [(apart other same).1, (apart other same).2]
    exact sound.lacks other key
  · rw [same]
    exact frees key
  · rw [(apart other same).1, (apart other same).2]
    exact sound.frees other key
  · rw [same]
    exact defined
  · rw [(apart other same).1]
    exact sound.defined other

/-- A step that only moves a thread, to or from the global mutex perhaps. -/
theorem Sound.idle (sound : table.Sound) (apart : Apart thread table after)
    (entries : after.globalMap = table.globalMap)
    (held : after.held thread = table.held thread)
    (refers : (after.pc thread).refers = (table.pc thread).refers)
    (before : ∀ key, table.pc thread ≠ .erasing key) (later : ∀ key, after.pc thread ≠ .erasing key)
    (own : (after.pc thread).critical = true ↔ after.globalMtx = some thread)
    (global : ∀ other, other ≠ thread → (after.globalMtx = some other ↔ table.globalMtx = some other))
    (lacks : ∀ key, (after.pc thread).lacks = some key → table.held thread key = none)
    (frees : ∀ key, (after.pc thread).frees = some key → table.held thread key ≠ none)
    (defined : after.pc thread ≠ .undefined) : after.Sound := by
  refine sound.moved apart own global (fun key => ?_) ?_ ?_ defined
  · obtain ⟨users, census⟩ := sound.census key
    exact ⟨users, census.frame apart (by rw [entries]) (by rw [held]) (fun serial => by rw [refers])
      ⟨fun at_ => absurd at_ (later key), fun at_ => absurd at_ (before key)⟩⟩
  · rw [held]
    exact lacks
  · rw [held]
    exact frees

/-- Nobody else is inside while a thread is. -/
theorem Sound.alone (sound : table.Sound) (inside : (table.pc thread).critical = true)
    (at_ : table.pc other = .erasing key) : other = thread := by
  have mine := (sound.critical thread).mp inside
  have theirs := (sound.critical other).mp (by rw [at_]; rfl)
  rw [mine] at theirs
  exact (Option.some.inj theirs).symm

theorem setEntry_same [DecidableEq Key] (table : KeyTable Thread Key) (key : Key)
    (entry : Option (Nat × CountedLock Thread)) :
    (table.setEntry key entry).globalMap key = entry := by
  simp [setEntry]

theorem setEntry_other [DecidableEq Key] (table : KeyTable Thread Key)
    (entry : Option (Nat × CountedLock Thread))
    (different : other ≠ key) : (table.setEntry key entry).globalMap other = table.globalMap other :=
  Function.update_of_ne different _ _

end

section

variable [DecidableEq Thread] {table after : KeyTable Thread Key} {thread : Thread}

@[simp] theorem goto_pc_self (table : KeyTable Thread Key) (thread : Thread) (pc : KeyPc Key) :
    (table.goto thread pc).pc thread = pc := by
  simp [goto]

theorem goto_apart {later : KeyTable Thread Key} (pc : KeyPc Key) (same : later.pc = table.pc)
    (held : ∀ other, other ≠ thread → later.held other = table.held other) :
    Apart thread table (later.goto thread pc) := by
  intro other different
  refine ⟨?_, held other different⟩
  rw [goto, same]
  exact Function.update_of_ne different _ _

/-- A step inside a function, which concerns the key that the thread deals with. -/
theorem Sound.onKey {later : KeyTable Thread Key} {pc : KeyPc Key} (sound : table.Sound)
    (pcs : later.pc = table.pc) (mtx : later.globalMtx = table.globalMtx)
    (entries : ∀ other, other ≠ key → later.globalMap other = table.globalMap other)
    (others : ∀ other, other ≠ thread → later.held other = table.held other)
    (held : ∀ other, other ≠ key → later.held thread other = table.held thread other)
    (before : (table.pc thread).key = some key) (after : pc.key = some key ∨ pc.key = none)
    (critical : pc.critical = (table.pc thread).critical)
    (lacks : ∀ other, pc.lacks = some other → later.held thread other = none)
    (frees : pc.frees = none) (defined : pc ≠ .undefined)
    (census : ∃ users, (later.goto thread pc).Census key users) : (later.goto thread pc).Sound := by
  have apart : Apart thread table (later.goto thread pc) := goto_apart pc pcs others
  have only (other : Key) (there : pc.key = some other) : other = key := by
    rcases after with same | none
    · rw [same] at there
      exact (Option.some.inj there).symm
    · rw [none] at there
      cases there
  have was (other : Key) (there : (table.pc thread).key = some other) : other = key := by
    rw [before] at there
    exact (Option.some.inj there).symm
  refine sound.moved apart ?_ (fun other _ => by rw [← mtx]; rfl) (fun other => ?_) ?_ ?_ ?_
  · rw [goto_pc_self, critical, sound.critical thread, ← mtx]
    rfl
  · by_cases here : other = key
    · rw [here]
      exact census
    obtain ⟨users, census⟩ := sound.census other
    refine ⟨users, census.frame apart (entries other here) (held other here) (fun serial => ?_) ?_⟩
    · rw [goto_pc_self]
      exact ⟨fun refers => absurd (only other (KeyPc.key_refers refers)) here,
        fun refers => absurd (was other (KeyPc.key_refers refers)) here⟩
    · rw [goto_pc_self]
      exact ⟨fun at_ => absurd (only other (by rw [at_]; rfl)) here,
        fun at_ => absurd (was other (by rw [at_]; rfl)) here⟩
  · rw [goto_pc_self]
    exact lacks
  · rw [goto_pc_self, frees]
    intro other freed
    cases freed
  · rw [goto_pc_self]
    exact defined

/-- The global mutex is taken when it is free. -/
theorem Sound.lockGlobal (sound : table.Sound) (pc : KeyPc Key)
    (moved : table.lockGlobal thread pc = some after) (critical : pc.critical = true)
    (refers : pc.refers = (table.pc thread).refers) (before : ∀ key, table.pc thread ≠ .erasing key)
    (later : ∀ key, pc ≠ .erasing key)
    (lacks : ∀ key, pc.lacks = some key → table.held thread key = none)
    (frees : ∀ key, pc.frees = some key → table.held thread key ≠ none)
    (defined : pc ≠ .undefined) : after.Sound := by
  unfold KeyTable.lockGlobal at moved
  cases free : table.globalMtx with
  | some owner => simp [free] at moved
  | none =>
    simp only [free] at moved
    cases moved
    refine sound.idle (goto_apart pc rfl fun _ _ => rfl) rfl rfl ?_ before ?_ ?_ ?_ ?_ ?_ ?_
    all_goals simp only [goto, Function.update_self]
    · exact refers
    · exact later
    · exact ⟨fun _ => trivial, fun _ => critical⟩
    · intro other different
      rw [free]
      exact ⟨fun same => absurd (Option.some.inj same).symm different, fun same => by cases same⟩
    · exact lacks
    · exact frees
    · exact defined

theorem Sound.unlockGlobal (sound : table.Sound) (pc : KeyPc Key)
    (owned : (table.pc thread).critical = true) (left : pc.critical = false)
    (refers : pc.refers = (table.pc thread).refers) (before : ∀ key, table.pc thread ≠ .erasing key)
    (later : ∀ key, pc ≠ .erasing key)
    (lacks : ∀ key, pc.lacks = some key → table.held thread key = none) (frees : pc.frees = none)
    (defined : pc ≠ .undefined) : (table.unlockGlobal thread pc).Sound := by
  have mine := (sound.critical thread).mp owned
  refine sound.idle (goto_apart pc rfl fun _ _ => rfl) rfl rfl ?_ before ?_ ?_ ?_ ?_ ?_ ?_
  all_goals simp only [KeyTable.unlockGlobal, goto, Function.update_self]
  · exact refers
  · exact later
  · rw [left]
    exact ⟨fun same => (by cases same), fun same => (by cases same)⟩
  · intro other different
    rw [mine]
    exact ⟨fun same => (by cases same), fun same => absurd (Option.some.inj same).symm different⟩
  · exact lacks
  · intro key freed
    rw [frees] at freed
    cases freed
  · exact defined

/-- One user more, counted in an entry that all users refer to. -/
theorem Census.join {users : List Thread} (census : table.Census key users)
    (apart : Apart thread table after) (fresh : thread ∉ users)
    (absent : table.held thread key = none) (held : after.held thread key = none)
    (refers : (after.pc thread).refers = some (key, serial))
    (stored : after.globalMap key = some (serial, lock)) (count : lock.count = users.length + 1)
    (same : ∀ user other, table.Uses user key other → other = serial)
    (holder : ∀ user, lock.holder = some user ↔ table.held user key ≠ none)
    (noErasing : ∀ user, after.pc user ≠ .erasing key) : after.Census key (thread :: users) := by
  refine ⟨List.nodup_cons.mpr ⟨fresh, census.nodup⟩, ?_, ?_, ?_, ?_, ?_, ?_⟩
  · intro user
    rw [List.mem_cons]
    by_cases own : user = thread
    · exact ⟨fun _ => ⟨serial, Or.inr (by rw [own]; exact refers)⟩, fun _ => Or.inl own⟩
    · simp only [apart.uses own, own, false_or]
      exact census.user user
  · unfold counter
    rw [stored]
    simpa using count
  · intro user other used
    by_cases own : user = thread
    · subst own
      have at_ : other = serial := by
        rcases used with holds | waits
        · rw [held] at holds
          cases holds
        · rw [refers] at waits
          cases waits
          rfl
      exact ⟨lock, by rw [stored, at_]⟩
    · have at_ := same user other ((apart.uses own).mp used)
      exact ⟨lock, by rw [stored, at_]⟩
  · intro other found here user
    rw [stored] at here
    cases here
    by_cases own : user = thread
    · subst own
      rw [holder user, absent, held]
    · rw [(apart user own).2]
      exact holder user
  · intro none
    cases none
  · intro user at_
    exact absurd at_ (noErasing user)

/-- The same users, of whom the thread has taken or given back the mutex. -/
theorem Census.keep {users : List Thread} (census : table.Census key users)
    (apart : Apart thread table after) (uses : table.Uses thread key serial)
    (same : ∀ other, after.Uses thread key other ↔ table.Uses thread key other)
    (found : table.globalMap key = some (serial, old))
    (stored : after.globalMap key = some (serial, lock)) (count : lock.count = old.count)
    (holder : ∀ user, lock.holder = some user ↔ after.held user key ≠ none)
    (plain : after.pc thread ≠ .erasing key) : after.Census key users := by
  have member : thread ∈ users := (census.user thread).mpr ⟨serial, uses⟩
  have each (user : Thread) (other : Nat) :
      after.Uses user key other ↔ table.Uses user key other := by
    by_cases own : user = thread
    · rw [own]
      exact same other
    · exact apart.uses own
  refine ⟨census.nodup, ?_, ?_, ?_, ?_, ?_, ?_⟩
  · intro user
    simp only [each]
    exact census.user user
  · have counted := census.counted
    unfold counter at counted ⊢
    rw [found] at counted
    rw [stored]
    exact count.trans counted
  · intro user other used
    obtain ⟨before, there⟩ := census.entry user other ((each user other).mp used)
    rw [found] at there
    cases there
    exact ⟨lock, stored⟩
  · intro other current here
    rw [stored] at here
    cases here
    exact holder
  · intro none
    rw [none] at member
    cases member
  · intro user at_
    by_cases own : user = thread
    · rw [own] at at_
      exact absurd at_ plain
    · rw [(apart user own).1] at at_
      exact census.erasing user at_

/-- The last user goes on to erase the entry. -/
theorem Census.leave {users : List Thread} (census : table.Census key users)
    (apart : Apart thread table after) (inside : (table.pc thread).critical = true)
    (sound : table.Sound) (uses : table.Uses thread key serial)
    (absent : table.held thread key = none) (held : after.held thread key = none)
    (refers : (after.pc thread).refers = none)
    (found : table.globalMap key = some (serial, lock))
    (stored : after.globalMap key = some (serial, CountedLock.leave lock))
    (last : (CountedLock.leave lock).count = 0 ↔ after.pc thread = .erasing key) :
    after.Census key (users.erase thread) := by
  have member := (census.user thread).mpr ⟨serial, uses⟩
  have length : (users.erase thread).length = users.length - 1 := List.length_erase_of_mem member
  have count : (CountedLock.leave lock).count = (users.erase thread).length := by
    have counted := census.counted
    unfold counter at counted
    rw [found] at counted
    rw [length, ← counted]
    rfl
  refine ⟨census.nodup.erase thread, ?_, ?_, ?_, ?_, ?_, ?_⟩
  · intro user
    rw [census.nodup.mem_erase_iff, census.user user]
    by_cases own : user = thread
    · subst own
      refine ⟨fun both => absurd rfl both.1, fun ⟨other, used⟩ => ?_⟩
      exact absurd used (not_uses held refers other)
    · simp only [apart.uses own, ne_eq, own, not_false_eq_true, true_and]
  · unfold counter
    rw [stored]
    exact count
  · intro user other used
    by_cases own : user = thread
    · subst own
      exact absurd used (not_uses held refers other)
    · obtain ⟨old, there⟩ := census.entry user other ((apart.uses own).mp used)
      rw [found] at there
      cases there
      exact ⟨_, stored⟩
  · intro other current here user
    rw [stored] at here
    cases here
    by_cases own : user = thread
    · have before := census.holder serial lock found thread
      rw [absent] at before
      rw [own, held]
      exact before
    · rw [(apart user own).2]
      exact census.holder serial lock found user
  · intro none _
    rw [none] at count
    exact ⟨thread, last.mp count⟩
  · intro user at_
    by_cases own : user = thread
    · rw [own] at at_
      rw [last.mpr at_] at count
      exact List.length_eq_zero_iff.mp count.symm
    · rw [(apart user own).1] at at_
      exact absurd (sound.alone inside at_) own

/-- A thread calls one of the functions. -/
theorem Sound.call {pc : KeyPc Key} (sound : table.Sound) (outside : table.pc thread = .outside)
    (refers : pc.refers = none) (critical : pc.critical = false) (plain : ∀ key, pc ≠ .erasing key)
    (lacks : ∀ key, pc.lacks = some key → table.held thread key = none)
    (frees : ∀ key, pc.frees = some key → table.held thread key ≠ none)
    (defined : pc ≠ .undefined) : (table.goto thread pc).Sound := by
  refine sound.idle (goto_apart pc rfl fun _ _ => rfl) rfl rfl ?_ ?_ ?_ ?_ (fun _ _ => Iff.rfl) ?_ ?_
    ?_
  all_goals try rw [goto_pc_self]
  · rw [refers, outside]
    rfl
  · rw [outside]
    exact fun key same => by cases same
  · exact plain
  · have own := sound.critical thread
    rw [outside] at own
    rw [critical]
    exact own
  · exact lacks
  · exact frees
  · exact defined

end

section

variable [DecidableEq Thread] [DecidableEq Key] {table after : KeyTable Thread Key} {thread : Thread}

/-- The increment, in an entry that was there or has been made. -/
theorem Sound.counted {later : KeyTable Thread Key} {users : List Thread} (sound : table.Sound)
    (at_ : table.pc thread = .looking key) (census : table.Census key users)
    (pc : later.pc = table.pc) (held : later.held = table.held)
    (mtx : later.globalMtx = table.globalMtx)
    (map : later.globalMap = (table.setEntry key (some (serial, lock))).globalMap)
    (count : lock.count = users.length + 1)
    (same : ∀ user other, table.Uses user key other → other = serial)
    (holder : ∀ user, lock.holder = some user ↔ table.held user key ≠ none) :
    (later.goto thread (.counted key serial)).Sound := by
  have inside : (table.pc thread).critical = true := by rw [at_]; rfl
  have absent := sound.lacks thread key (by rw [at_]; rfl)
  have fresh : thread ∉ users := by
    intro member
    obtain ⟨serial, holds | refers⟩ := (census.user thread).mp member
    · rw [absent] at holds
      cases holds
    · rw [at_] at refers
      cases refers
  have apart : Apart thread table (later.goto thread (.counted key serial)) :=
    goto_apart _ pc fun _ _ => by rw [held]
  have noErasing (user : Thread) : (later.goto thread (.counted key serial)).pc user ≠ .erasing key := by
    intro erasing
    by_cases own : user = thread
    · rw [own, goto_pc_self] at erasing
      cases erasing
    · rw [(apart user own).1] at erasing
      exact own (sound.alone inside erasing)
  refine sound.onKey pc mtx (fun other different => ?_) (fun _ _ => by rw [held])
    (fun _ _ => by rw [held]) (by rw [at_]; rfl) (Or.inl rfl) (by rw [at_]; rfl) ?_ rfl
    (fun same => by cases same)
    ⟨_, census.join apart fresh absent (by rw [goto, held]; exact absent) (by rw [goto_pc_self]; rfl)
      ?_ count same holder noErasing⟩
  · rw [map]
    exact setEntry_other _ _ different
  · intro other lacks
    cases lacks
    rw [held]
    exact absent
  · rw [goto, map]
    exact setEntry_same _ _ _

theorem Sound.countIn (sound : table.Sound) (at_ : table.pc thread = .looking key) :
    (table.countIn thread key).Sound := by
  obtain ⟨users, census⟩ := sound.census key
  have counted := census.counted
  unfold counter at counted
  unfold KeyTable.countIn
  cases found : table.globalMap key with
  | none =>
    simp only [found] at counted ⊢
    have idle (user : Thread) (serial : Nat) : ¬ table.Uses user key serial := by
      intro uses
      obtain ⟨lock, there⟩ := census.entry user serial uses
      rw [found] at there
      cases there
    refine sound.counted at_ census rfl rfl rfl rfl (by rw [← counted]; rfl)
      (fun user other uses => absurd uses (idle user other)) fun user => ?_
    refine ⟨fun same => (by cases same), fun holds => ?_⟩
    obtain ⟨serial, holds⟩ := Option.ne_none_iff_exists'.mp holds
    exact absurd (Or.inl holds) (idle user serial)
  | some entry =>
    obtain ⟨serial, lock⟩ := entry
    simp only [found] at counted ⊢
    refine sound.counted at_ census rfl rfl rfl rfl (by rw [← counted]; rfl)
      (fun user other uses => ?_) fun user => census.holder serial lock found user
    obtain ⟨lock, there⟩ := census.entry user other uses
    rw [found] at there
    cases there
    rfl

theorem setHeld_self (table : KeyTable Thread Key) (thread : Thread) (key : Key)
    (serial : Option Nat) : (table.setHeld thread key serial).held thread key = serial := by
  simp [setHeld]

theorem setHeld_key (table : KeyTable Thread Key) (thread : Thread) (serial : Option Nat)
    (different : other ≠ key) :
    (table.setHeld thread key serial).held thread other = table.held thread other := by
  simp [setHeld, different]

theorem setHeld_other (table : KeyTable Thread Key) (key : Key) (serial : Option Nat)
    (different : other ≠ thread) :
    (table.setHeld thread key serial).held other = table.held other :=
  Function.update_of_ne different _ _

theorem Sound.lockKey (sound : table.Sound) (at_ : table.pc thread = .waiting key serial)
    (moved : table.lockKey thread key serial = some after) : after.Sound := by
  obtain ⟨users, census⟩ := sound.census key
  have uses : table.Uses thread key serial := Or.inr (by rw [at_]; rfl)
  have absent := sound.lacks thread key (by rw [at_]; rfl)
  obtain ⟨lock, found⟩ := census.entry thread serial uses
  unfold KeyTable.lockKey at moved
  simp only [found, if_true] at moved
  obtain ⟨taken, free, rfl⟩ := Option.map_eq_some_iff.mp moved
  have taken_eq : lock.holder = none ∧ taken = { lock with holder := some thread } := by
    unfold take at free
    cases held : lock.holder with
    | some owner => simp [held] at free
    | none =>
      simp only [held, Option.some.injEq] at free
      exact ⟨rfl, free.symm⟩
  obtain ⟨nobody, rfl⟩ := taken_eq
  have others (other : Thread) (different : other ≠ thread) :=
    setHeld_other (table.setEntry key (some (serial, { lock with holder := some thread }))) key
      (some serial) different
  refine sound.onKey rfl rfl (fun other different => setEntry_other _ _ different) others
    (fun other different => setHeld_key _ _ _ different) (by rw [at_]; rfl) (Or.inr rfl)
    (by rw [at_]; rfl) (fun other lacks => by cases lacks) rfl (fun same => by cases same)
    ⟨users, census.keep (goto_apart _ rfl others) uses ?_ found (setEntry_same _ _ _) rfl ?_
      (by rw [goto_pc_self]; exact fun same => by cases same)⟩
  · intro other
    unfold Uses
    rw [goto_pc_self, at_, absent]
    simp [goto, setHeld, KeyPc.refers]
  · intro user
    by_cases own : user = thread
    · subst own
      simp [goto, setHeld]
    · have free := census.holder serial lock found user
      rw [nobody] at free
      change some thread = some user ↔ (KeyTable.setHeld _ _ _ _).held user key ≠ none
      rw [others user own]
      refine ⟨fun same => absurd (Option.some.inj same).symm own, fun holds => ?_⟩
      cases free.mpr holds

theorem Sound.unlockKey (sound : table.Sound) (at_ : table.pc thread = .finding key) :
    (table.unlockKey thread key).Sound := by
  obtain ⟨users, census⟩ := sound.census key
  have holds := sound.frees thread key (by rw [at_]; rfl)
  obtain ⟨serial, held⟩ := Option.ne_none_iff_exists'.mp holds
  have uses : table.Uses thread key serial := Or.inl held
  obtain ⟨lock, found⟩ := census.entry thread serial uses
  have mine := (census.holder serial lock found thread).mpr holds
  unfold KeyTable.unlockKey
  simp only [found, mine, if_true]
  have others (other : Thread) (different : other ≠ thread) :=
    setHeld_other (table.setEntry key (some (serial, unlock lock))) key none different
  refine sound.onKey rfl rfl (fun other different => setEntry_other _ _ different) others
    (fun other different => setHeld_key _ _ _ different) (by rw [at_]; rfl) (Or.inl rfl)
    (by rw [at_]; rfl) (fun other lacks => by cases lacks; exact setHeld_self _ _ _ _) rfl
    (fun same => by cases same)
    ⟨users, census.keep (goto_apart _ rfl others) uses ?_ found (setEntry_same _ _ _) rfl ?_
      (by rw [goto_pc_self]; exact fun same => by cases same)⟩
  · intro other
    unfold Uses
    rw [goto_pc_self, at_, held]
    simp [goto, setHeld, KeyPc.refers]
  · intro user
    by_cases own : user = thread
    · subst own
      simp [goto, setHeld, unlock]
    · have theirs := census.holder serial lock found user
      rw [mine] at theirs
      change (none : Option Thread) = some user ↔ (KeyTable.setHeld _ _ _ _).held user key ≠ none
      rw [others user own]
      refine ⟨fun same => (by cases same), fun holding => ?_⟩
      exact absurd (Option.some.inj (theirs.mpr holding)).symm own

theorem Sound.countOut (sound : table.Sound) (at_ : table.pc thread = .unlocked key serial) :
    (table.countOut thread key serial).Sound := by
  have inside : (table.pc thread).critical = true := by rw [at_]; rfl
  obtain ⟨users, census⟩ := sound.census key
  have uses : table.Uses thread key serial := Or.inr (by rw [at_]; rfl)
  have absent := sound.lacks thread key (by rw [at_]; rfl)
  obtain ⟨lock, found⟩ := census.entry thread serial uses
  unfold KeyTable.countOut
  simp only [found, if_true]
  by_cases last : (leave lock).count = 0
  all_goals
    simp only [last, if_true, if_false]
    refine sound.onKey rfl rfl (fun other different => setEntry_other _ _ different)
      (fun _ _ => rfl) (fun _ _ => rfl) (by rw [at_]; rfl) (by simp [KeyPc.key]) (by rw [at_]; rfl)
      (fun other lacks => by cases lacks) rfl (fun same => by cases same)
      ⟨_, census.leave (goto_apart _ rfl fun _ _ => rfl) inside sound uses absent absent
        (by rw [goto_pc_self]; rfl) found (setEntry_same _ _ _) ?_⟩
    rw [goto_pc_self]
    simp [last]

theorem Sound.erase (sound : table.Sound) (at_ : table.pc thread = .erasing key) :
    ((table.setEntry key none).goto thread .leaving).Sound := by
  obtain ⟨users, census⟩ := sound.census key
  cases census.erasing thread at_
  have apart : Apart thread table ((table.setEntry key none).goto thread .leaving) :=
    goto_apart _ rfl fun _ _ => rfl
  have idle (user : Thread) (serial : Nat) : ¬ table.Uses user key serial := by
    intro uses
    cases (census.user user).mpr ⟨serial, uses⟩
  have later (user : Thread) (serial : Nat) :
      ¬ ((table.setEntry key none).goto thread .leaving).Uses user key serial := by
    intro uses
    by_cases own : user = thread
    · subst own
      rcases uses with holds | refers
      · exact idle user serial (Or.inl holds)
      · rw [goto_pc_self] at refers
        cases refers
    · exact idle user serial ((apart.uses own).mp uses)
  have erased := setEntry_same table key none
  refine sound.onKey rfl rfl (fun other different => setEntry_other _ _ different)
    (fun _ _ => rfl) (fun _ _ => rfl) (by rw [at_]; rfl) (Or.inr rfl) (by rw [at_]; rfl)
    (fun other lacks => by cases lacks) rfl (fun same => by cases same)
    ⟨[], List.nodup_nil, ?_, ?_, ?_, ?_, ?_, ?_⟩
  · intro user
    refine ⟨fun member => (by cases member), ?_⟩
    rintro ⟨serial, uses⟩
    exact absurd uses (later user serial)
  · unfold counter
    simp only [goto, erased]
    rfl
  · intro user serial uses
    exact absurd uses (later user serial)
  · intro serial lock here
    simp only [goto, erased] at here
    cases here
  · intro _ present
    exact absurd erased present
  · intro _ _
    rfl

theorem Sound.advance (sound : table.Sound) (moved : next (thread, .advance) table = some after) :
    after.Sound := by
  cases at_ : table.pc thread with
  | outside | undefined => simp [next, at_] at moved
  | getting key =>
    simp only [next, at_] at moved
    refine sound.lockGlobal _ moved rfl (by rw [at_]; rfl) (by simp [at_]) (by simp) ?_
      (by simp [KeyPc.frees]) (by simp)
    intro other lacks
    cases lacks
    exact sound.lacks thread key (by rw [at_]; rfl)
  | looking key =>
    simp only [next, at_] at moved
    cases moved
    exact sound.countIn at_
  | counted key serial =>
    simp only [next, at_] at moved
    cases moved
    refine sound.unlockGlobal _ (by rw [at_]; rfl) rfl (by rw [at_]; rfl) (by simp [at_]) (by simp) ?_
      rfl (by simp)
    intro other lacks
    cases lacks
    exact sound.lacks thread key (by rw [at_]; rfl)
  | waiting key serial =>
    simp only [next, at_] at moved
    exact sound.lockKey at_ moved
  | freeing key =>
    simp only [next, at_] at moved
    refine sound.lockGlobal _ moved rfl (by rw [at_]; rfl) (by simp [at_]) (by simp)
      (by simp [KeyPc.lacks]) ?_ (by simp)
    intro other frees
    cases frees
    exact sound.frees thread key (by rw [at_]; rfl)
  | finding key =>
    simp only [next, at_] at moved
    cases moved
    exact sound.unlockKey at_
  | unlocked key serial =>
    simp only [next, at_] at moved
    cases moved
    exact sound.countOut at_
  | erasing key =>
    simp only [next, at_] at moved
    cases moved
    exact sound.erase at_
  | leaving =>
    simp only [next, at_] at moved
    cases moved
    exact sound.unlockGlobal _ (by rw [at_]; rfl) rfl (by rw [at_]; rfl) (by simp [at_]) (by simp)
      (by simp [KeyPc.lacks]) rfl (by simp)

theorem Sound.step (sound : table.Sound) (moved : next label table = some after) : after.Sound := by
  obtain ⟨thread, step⟩ := label
  cases step with
  | get key =>
    simp only [next] at moved
    split at moved
    · rename_i ready
      cases moved
      refine sound.call ready.1 rfl rfl (by simp) ?_ (by simp [KeyPc.frees]) (by simp)
      intro other lacks
      cases lacks
      exact ready.2
    · cases moved
  | free key =>
    simp only [next] at moved
    split at moved
    · rename_i ready
      cases moved
      refine sound.call ready.1 rfl rfl (by simp) (by simp [KeyPc.lacks]) ?_ (by simp)
      intro other frees
      cases frees
      exact ready.2
    · cases moved
  | advance => exact sound.advance moved

end

theorem Sound.start : (KeyTable.start : KeyTable Thread Key).Sound := by
  refine ⟨fun thread => ?_, fun key => ⟨[], List.nodup_nil, fun thread => ?_, rfl, ?_, ?_, ?_, ?_⟩,
    ?_, ?_, ?_⟩
  · simp [KeyTable.start, KeyPc.critical]
  · simp [KeyTable.start, Uses, KeyPc.refers]
  · rintro thread serial (holds | refers)
    · cases holds
    · cases refers
  · intro serial lock found
    cases found
  · exact fun _ present => absurd rfl present
  · exact fun _ _ => rfl
  · exact fun _ _ _ => rfl
  · intro thread key frees
    cases frees
  · intro thread at_
    cases at_

/-- The thread holds the key. -/
def Holds (table : KeyTable Thread Key) (thread : Thread) (key : Key) : Prop :=
  table.held thread key ≠ none

/-- What makes the table a correct one: exclusion, the counters, entries that outlive their
users, and no entry without a user once all are outside. -/
structure Correct (table : KeyTable Thread Key) : Prop where
  exclusive : ∀ key one other, table.Holds one key → table.Holds other key → one = other
  counter : ∀ key, ∃ users : List Thread, users.Nodup ∧
    (∀ thread, thread ∈ users ↔ ∃ serial, table.Uses thread key serial) ∧
    table.counter key = users.length
  kept : ∀ thread key serial, table.Uses thread key serial →
    ∃ lock, table.globalMap key = some (serial, lock)
  defined : ∀ thread, table.pc thread ≠ .undefined
  empty : (∀ thread, table.pc thread = .outside ∧ ∀ key, ¬ table.Holds thread key) →
    ∀ key, table.globalMap key = none

theorem Sound.correct {table : KeyTable Thread Key} (sound : table.Sound) : table.Correct where
  exclusive := by
    intro key one other first second
    obtain ⟨users, census⟩ := sound.census key
    obtain ⟨serial, held⟩ := Option.ne_none_iff_exists'.mp first
    obtain ⟨lock, found⟩ := census.entry one serial (Or.inl held)
    have mine := (census.holder serial lock found one).mpr first
    rw [(census.holder serial lock found other).mpr second] at mine
    exact (Option.some.inj mine).symm
  counter := by
    intro key
    obtain ⟨users, census⟩ := sound.census key
    exact ⟨users, census.nodup, census.user, census.counted⟩
  kept := by
    intro thread key serial uses
    obtain ⟨users, census⟩ := sound.census key
    exact census.entry thread serial uses
  defined := sound.defined
  empty := by
    intro idle key
    obtain ⟨users, census⟩ := sound.census key
    have none : users = [] := by
      refine List.eq_nil_iff_forall_not_mem.mpr fun thread member => ?_
      obtain ⟨serial, holds | refers⟩ := (census.user thread).mp member
      · exact (idle thread).2 key (by rw [Holds, holds]; simp)
      · rw [(idle thread).1] at refers
        cases refers
    cases found : table.globalMap key with
    | none => rfl
    | some entry =>
      obtain ⟨thread, erasing⟩ := census.unused none (by simp [found])
      rw [(idle thread).1] at erasing
      cases erasing

section

variable [DecidableEq Thread] [DecidableEq Key]

/-- In every interleaving of any threads the key locks are a correct table. -/
theorem key_locks_correct {table : KeyTable Thread Key}
    (path : Reaches next (KeyTable.start : KeyTable Thread Key) table) : table.Correct := by
  have sound : table.Sound := path.invariant Sound Sound.start fun _ _ _ sound moved => sound.step moved
  exact sound.correct

/-- The second thread locks the mutex between the unlock and the decrement of the first. -/
def handOver : List (Bool × KeyStep String) :=
  [[(true, .get "key")], List.replicate 4 (true, .advance),
    [(false, .get "key")], List.replicate 3 (false, .advance),
    [(true, .free "key")], List.replicate 2 (true, .advance), [(false, .advance)],
    List.replicate 2 (true, .advance)].flatten

theorem key_locks_correct_handOver :
    ∃ table : KeyTable Bool String, table.held false "key" = some 0 ∧ table.counter "key" = 1 ∧
      table.Correct := by
  have ran : (run next handOver (start : KeyTable Bool String)).map
      (fun table => (table.held false "key", table.counter "key")) = some (some 0, 1) := by
    decide +kernel
  obtain ⟨table, finished, same⟩ := Option.map_eq_some_iff.mp ran
  exact ⟨table, (Prod.mk.inj same).1, (Prod.mk.inj same).2,
    key_locks_correct (Reaches.ofRun _ finished)⟩

end

end KeyTable

end GaiaNet.Mem
