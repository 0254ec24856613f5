/-! A mutex that lives in a table only while somebody uses it: users count themselves
before they wait for it, and the last one removes it. -/

namespace Lib.CountedLock

structure CountedLock (User : Type) where
  count : Nat
  holder : Option User

variable {User : Type}

/-- A user counts itself; an entry that is missing is made. -/
def join : Option (CountedLock User) → CountedLock User
  | none => ⟨1, none⟩
  | some lock => { lock with count := lock.count + 1 }

/-- `lock`; `none` while it is held. -/
def take (user : User) (lock : CountedLock User) : Option (CountedLock User) :=
  match lock.holder with
  | none => some { lock with holder := some user }
  | some _ => none

/-- `unlock`, and the removal by the last user. -/
def release (lock : CountedLock User) : Option (CountedLock User) :=
  if lock.count - 1 = 0 then none else some ⟨lock.count - 1, none⟩

/-- `unlock` alone. -/
def unlock (lock : CountedLock User) : CountedLock User := { lock with holder := none }

/-- A user counts itself out. -/
def leave (lock : CountedLock User) : CountedLock User := { lock with count := lock.count - 1 }

/-- The entry counts exactly these users, one of whom may hold it. -/
structure Counts (entry : Option (CountedLock User)) (users : List User) (holder : Option User) :
    Prop where
  nodup : users.Nodup
  stored : entry = if users.length = 0 then none else some ⟨users.length, holder⟩
  member : ∀ user, holder = some user → user ∈ users

theorem Counts.none : Counts (none : Option (CountedLock User)) [] none :=
  ⟨List.nodup_nil, rfl, fun _ found => nomatch found⟩

theorem Counts.lock (counts : Counts entry users holder) (member : user ∈ users) :
    entry = some ⟨users.length, holder⟩ := by
  rw [counts.stored, if_neg]
  rw [List.length_eq_zero_iff]
  exact List.ne_nil_of_mem member

theorem Counts.join (counts : Counts entry users holder) (new : user ∉ users) :
    Counts (some (CountedLock.join entry)) (user :: users) holder := by
  refine ⟨List.nodup_cons.mpr ⟨new, counts.nodup⟩, ?_, ?_⟩
  · rw [counts.stored]
    cases users with
    | nil =>
      cases held : holder with
      | none => rfl
      | some owner => exact absurd (counts.member owner held) (List.not_mem_nil)
    | cons head rest => rfl
  · intro owner held
    exact List.mem_cons_of_mem user (counts.member owner held)

theorem Counts.take {lock after : CountedLock User} (counts : Counts (some lock) users holder)
    (member : user ∈ users) (taken : CountedLock.take user lock = some after) :
    holder = Option.none ∧ Counts (some after) users (some user) := by
  cases counts.lock member
  cases holder with
  | some owner => cases taken
  | none =>
    cases taken
    refine ⟨rfl, counts.nodup, ?_, ?_⟩
    · rw [if_neg]
      rw [List.length_eq_zero_iff]
      exact List.ne_nil_of_mem member
    · intro other held
      cases held
      exact member

theorem Counts.release [DecidableEq User] {lock : CountedLock User}
    (counts : Counts (some lock) users holder) (member : user ∈ users) :
    Counts (CountedLock.release lock) (users.erase user) Option.none := by
  cases counts.lock member
  have length : (users.erase user).length = users.length - 1 := List.length_erase_of_mem member
  refine ⟨counts.nodup.erase user, ?_, fun _ found => nomatch found⟩
  unfold CountedLock.release
  rw [length]

end Lib.CountedLock
