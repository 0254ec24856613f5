import GaiaNet.Lib.CountedLock
import GaiaNet.Lib.Transition
import Mathlib.Logic.Function.Basic

/-! `get_key_lock` and `free_key_lock` of memchannel.cpp, instruction by instruction, for
any number of threads: the table of mutexes under its global mutex. -/

namespace GaiaNet.Mem

open Lib Lib.CountedLock Lib.Transition

/-- Where a thread stands: from `looking` to `counted` and from `finding` to `leaving` it owns
the global mutex. `serial` is the entry of the map that its `pair` refers to; `undefined` is
reached by a use of an erased entry or of a mutex that is not the thread's. -/
inductive KeyPc (Key : Type) where
  | outside
  | getting (key : Key)
  | looking (key : Key)
  | counted (key : Key) (serial : Nat)
  | waiting (key : Key) (serial : Nat)
  | freeing (key : Key)
  | finding (key : Key)
  | unlocked (key : Key) (serial : Nat)
  | erasing (key : Key)
  | leaving
  | undefined
  deriving DecidableEq

/-- `globalMap` numbers its entries by `made`, the entries made so far; `held` is the entry
whose mutex a thread has locked under a key. A thread count fits in the `int` counter. -/
structure KeyTable (Thread Key : Type) where
  globalMtx : Option Thread
  globalMap : Key → Option (Nat × CountedLock Thread)
  made : Nat
  pc : Thread → KeyPc Key
  held : Thread → Key → Option Nat

/-- A thread calls one of the functions, or goes on in one. -/
inductive KeyStep (Key : Type) where
  | get (key : Key)
  | free (key : Key)
  | advance

namespace KeyTable

variable {Thread Key : Type} [DecidableEq Thread] [DecidableEq Key]

def goto (thread : Thread) (pc : KeyPc Key) (table : KeyTable Thread Key) : KeyTable Thread Key :=
  { table with pc := Function.update table.pc thread pc }

def setEntry (key : Key) (entry : Option (Nat × CountedLock Thread)) (table : KeyTable Thread Key) :
    KeyTable Thread Key :=
  { table with globalMap := Function.update table.globalMap key entry }

def setHeld (thread : Thread) (key : Key) (serial : Option Nat) (table : KeyTable Thread Key) :
    KeyTable Thread Key :=
  { table with
    held := Function.update table.held thread (Function.update (table.held thread) key serial) }

def lockGlobal (thread : Thread) (pc : KeyPc Key) (table : KeyTable Thread Key) :
    Option (KeyTable Thread Key) :=
  match table.globalMtx with
  | none => some { table.goto thread pc with globalMtx := some thread }
  | some _ => none

def unlockGlobal (thread : Thread) (pc : KeyPc Key) (table : KeyTable Thread Key) :
    KeyTable Thread Key :=
  { table.goto thread pc with globalMtx := none }

/-- `s_key_lock_global_map[key]`, which makes a missing entry, and `pair.first++`. -/
def countIn (thread : Thread) (key : Key) (table : KeyTable Thread Key) : KeyTable Thread Key :=
  match table.globalMap key with
  | none =>
    { table.setEntry key (some (table.made, join none)) with made := table.made + 1 }.goto thread
      (.counted key table.made)
  | some (serial, lock) =>
    (table.setEntry key (some (serial, join (some lock)))).goto thread (.counted key serial)

/-- `pair.second.lock()`. -/
def lockKey (thread : Thread) (key : Key) (serial : Nat) (table : KeyTable Thread Key) :
    Option (KeyTable Thread Key) :=
  match table.globalMap key with
  | none => some (table.goto thread .undefined)
  | some (found, lock) =>
    if found = serial then
      (take thread lock).map fun taken =>
        ((table.setEntry key (some (serial, taken))).setHeld thread key (some serial)).goto thread
          .outside
    else some (table.goto thread .undefined)

/-- `find` and `pair.second.unlock()`. -/
def unlockKey (thread : Thread) (key : Key) (table : KeyTable Thread Key) : KeyTable Thread Key :=
  match table.globalMap key with
  | none => table.goto thread .undefined
  | some (serial, lock) =>
    if lock.holder = some thread then
      ((table.setEntry key (some (serial, unlock lock))).setHeld thread key none).goto thread
        (.unlocked key serial)
    else table.goto thread .undefined

/-- `--pair.first == 0`. -/
def countOut (thread : Thread) (key : Key) (serial : Nat) (table : KeyTable Thread Key) :
    KeyTable Thread Key :=
  match table.globalMap key with
  | none => table.goto thread .undefined
  | some (found, lock) =>
    if found = serial then
      (table.setEntry key (some (serial, leave lock))).goto thread
        (if (leave lock).count = 0 then .erasing key else .leaving)
    else table.goto thread .undefined

/-- A thread gets keys it does not hold, as `std::mutex` demands, and frees keys it holds. -/
def next : Thread × KeyStep Key → KeyTable Thread Key → Option (KeyTable Thread Key)
  | (thread, .get key), table =>
    if table.pc thread = .outside ∧ table.held thread key = none then
      some (table.goto thread (.getting key))
    else none
  | (thread, .free key), table =>
    if table.pc thread = .outside ∧ table.held thread key ≠ none then
      some (table.goto thread (.freeing key))
    else none
  | (thread, .advance), table =>
    match table.pc thread with
    | .outside | .undefined => none
    | .getting key => table.lockGlobal thread (.looking key)
    | .looking key => some (table.countIn thread key)
    | .counted key serial => some (table.unlockGlobal thread (.waiting key serial))
    | .waiting key serial => table.lockKey thread key serial
    | .freeing key => table.lockGlobal thread (.finding key)
    | .finding key => some (table.unlockKey thread key)
    | .unlocked key serial => some (table.countOut thread key serial)
    | .erasing key => some ((table.setEntry key none).goto thread .leaving)
    | .leaving => some (table.unlockGlobal thread .outside)

/-- An empty map and no thread at work. -/
def start : KeyTable Thread Key where
  globalMtx := none
  globalMap := fun _ => none
  made := 0
  pc := fun _ => .outside
  held := fun _ _ => none

end KeyTable

end GaiaNet.Mem
