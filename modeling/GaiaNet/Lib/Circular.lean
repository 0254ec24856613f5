import Mathlib.Algebra.Group.Nat.Defs

/-! Lists laid out in a circular memory. A block is stored or loaded in at most
two contiguous parts, split where the memory ends. -/

namespace Lib.Circular

/-- Overwrite the contiguous cells from `offset` on. -/
def store (memory : Nat → α) (offset : Nat) (items : List α) : Nat → α :=
  fun cell => if inside : offset ≤ cell ∧ cell - offset < items.length then
    items.get ⟨cell - offset, inside.2⟩ else memory cell

def load (memory : Nat → α) (offset count : Nat) : List α :=
  (List.range count).map fun index => memory (offset + index)

/-- The cells from `start` on, taken modulo `size`, hold the list. -/
def Holds (size : Nat) (memory : Nat → α) (start : Nat) (items : List α) : Prop :=
  ∀ index (inside : index < items.length), memory ((start + index) % size) = items[index]

@[simp] theorem length_load (memory : Nat → α) (offset count : Nat) :
    (load memory offset count).length = count := by
  simp [load]

theorem store_inside (memory : Nat → α) (offset : Nat) (items : List α) (inside : index < items.length) :
    store memory offset items (offset + index) = items[index] := by
  simp [store, inside]

theorem store_outside (memory : Nat → α) (items : List α)
    (outside : cell < offset ∨ offset + items.length ≤ cell) :
    store memory offset items cell = memory cell := by
  have missed : ¬ (offset ≤ cell ∧ cell - offset < items.length) := by omega
  simp [store, missed]

theorem holds_nil (size : Nat) (memory : Nat → α) (start : Nat) : Holds size memory start [] := by
  intro index inside
  simp at inside

theorem Holds.drop (held : Holds size memory start items) (count : Nat) :
    Holds size memory (start + count) (items.drop count) := by
  intro index inside
  have within : count + index < items.length := by
    rw [List.length_drop] at inside
    omega
  simpa [Nat.add_assoc] using held (count + index) within

/-- Position of a cell `index` places after a wrapped offset below `size`. -/
theorem wrapped_cell (position index : Nat) (positive : 0 < size) (within : index < size) :
    (position + index) % size =
      if position % size + index < size then position % size + index
      else position % size + index - size := by
  have bound := Nat.mod_lt position positive
  rw [Nat.add_mod, Nat.mod_eq_of_lt within]
  split
  · rename_i low
    exact Nat.mod_eq_of_lt low
  · rename_i high
    rw [Nat.mod_eq_sub_mod (by omega), Nat.mod_eq_of_lt (by omega)]

/-- Appending a block in two parts keeps the cells of the list already held. -/
theorem Holds.append {memory : Nat → α} (held : Holds size memory start items) (block : List α) (positive : 0 < size)
    (fits : items.length + block.length ≤ size)
    (offset : position = (start + items.length) % size)
    (part : first = min block.length (size - position)) :
    Holds size (store (store memory position (block.take first)) 0 (block.drop first))
      start (items ++ block) := by
  intro index inside
  rw [List.length_append] at inside
  have low := Nat.mod_lt (start + items.length) positive
  rw [← offset] at low
  by_cases old : index < items.length
  · have kept := held index old
    have cell := wrapped_cell start index positive (by omega)
    have edge := wrapped_cell start items.length positive
    have startLow := Nat.mod_lt start positive
    rw [List.getElem_append_left old, ← kept]
    by_cases full : items.length = size
    · have none : block = [] := List.eq_nil_of_length_eq_zero (by omega)
      subst none
      rw [store_outside _ _ (by simp), store_outside _ _ (by simp; omega)]
    · have edgeAt := edge (by omega)
      rw [← offset] at edgeAt
      have wrap : (block.drop first).length ≤ (start + index) % size := by
        rw [List.length_drop, cell]
        split at edgeAt <;> split <;> omega
      have apart : (start + index) % size < position ∨
          position + (block.take first).length ≤ (start + index) % size := by
        rw [List.length_take, cell]
        split at edgeAt <;> split <;> omega
      rw [store_outside _ _ (.inr (by omega)), store_outside _ _ apart]
  · have new : index - items.length < block.length := by omega
    rw [List.getElem_append_right (by omega)]
    have cell := wrapped_cell (start + items.length) (index - items.length) positive
      (by omega)
    have same : start + items.length + (index - items.length) = start + index := by omega
    rw [same, ← offset] at cell
    rw [cell]
    split
    · rename_i firstPart
      have within : index - items.length < (block.take first).length := by
        rw [List.length_take]
        omega
      rw [store_outside _ _ (.inr (by rw [List.length_drop]; omega)), store_inside _ _ _ within]
      simp
    · rename_i secondPart
      have within : position + (index - items.length) - size < (block.drop first).length := by
        rw [List.length_drop]
        omega
      have written := store_inside (store memory position (block.take first)) 0 (block.drop first)
        within
      rw [Nat.zero_add] at written
      rw [written, List.getElem_drop]
      congr 1
      omega

theorem Holds.take {memory : Nat → α} (held : Holds size memory start (items ++ rest)) :
    Holds size memory start items := by
  intro index inside
  have longer := held index (by rw [List.length_append]; omega)
  rwa [List.getElem_append_left inside] at longer

/-- One more item goes to the cell after the list; the cells of the list are others. -/
theorem Holds.push {memory : Nat → α} (held : Holds size memory start items) (item : α)
    (room : items.length < size) (cell : position = (start + items.length) % size) :
    Holds size (store memory position [item]) start (items ++ [item]) := by
  have appended := held.append [item] (by omega) (by rw [List.length_singleton]; omega) cell rfl
  have low := Nat.mod_lt (start + items.length) (Nat.zero_lt_of_lt room)
  have whole : min [item].length (size - position) = 1 := by
    simp only [List.length_singleton]
    omega
  have nothing (memory : Nat → α) : store memory 0 [] = memory := by
    funext cell
    exact store_outside _ _ (.inr (Nat.zero_le _))
  rw [whole] at appended
  simpa [nothing] using appended

/-- Distinct positions of a list that fits have distinct cells. -/
theorem cell_ne {first second size : Nat} (low : first < second) (close : second < first + size) :
    first % size ≠ second % size := by
  intro same
  have positive : 0 < size := by omega
  have inside : second - first < size := by omega
  have wrapped := wrapped_cell first (second - first) positive inside
  have bound := Nat.mod_lt first positive
  rw [show first + (second - first) = second by omega] at wrapped
  split at wrapped <;> omega

/-- Loading a block in two parts returns the front of the list held. -/
theorem Holds.load (held : Holds size memory start items) (positive : 0 < size)
    (available : count ≤ items.length) (fits : count ≤ size)
    (offset : position = start % size)
    (part : first = min count (size - position)) :
    load memory position first ++ load memory 0 (count - first) = items.take count := by
  have low := Nat.mod_lt start positive
  rw [← offset] at low
  apply List.ext_getElem
  · simp
    omega
  · intro index inLoad inTake
    have bound : index < count := by
      rw [List.length_take] at inTake
      omega
    have kept := held index (by omega)
    have cell := wrapped_cell start index positive (by omega)
    rw [← offset] at cell
    rw [List.getElem_take, ← kept, cell]
    by_cases firstPart : index < first
    · rw [List.getElem_append_left (by simpa using firstPart)]
      have unwrapped : position + index < size := by omega
      simp [Circular.load, unwrapped]
    · rw [List.getElem_append_right (by simpa using firstPart)]
      have wrapped : ¬ position + index < size := by omega
      simp only [Circular.load, List.getElem_map, List.getElem_range, List.length_map,
        List.length_range, wrapped, ↓reduceIte]
      congr 1
      omega

end Lib.Circular
