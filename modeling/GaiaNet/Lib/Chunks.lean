/-! Lists cut into consecutive pieces of one size, the last one possibly shorter. -/

namespace Lib.Chunks

def chunk (size : Nat) (items : List α) (index : Nat) : List α :=
  (items.drop (index * size)).take size

/-- `count` consecutive pieces, beginning with the one at `index`. -/
def chunksFrom (size : Nat) (items : List α) : Nat → Nat → List (List α)
  | _, 0 => []
  | index, count + 1 => chunk size items index :: chunksFrom size items (index + 1) count

/-- Number of pieces needed to cover a length. -/
def chunkCount (size length : Nat) : Nat := (length + size - 1) / size

theorem length_chunk (size : Nat) (items : List α) (index : Nat) :
    (chunk size items index).length = min size (items.length - index * size) := by
  simp [chunk]

theorem chunkCount_covers (positive : 0 < size) (length : Nat) :
    length ≤ chunkCount size length * size := by
  have division := Nat.div_add_mod (length + size - 1) size
  have remainder := Nat.mod_lt (length + size - 1) positive
  rw [chunkCount, Nat.mul_comm]
  omega

theorem lt_chunkCount (index length : Nat) (positive : 0 < size) :
    index < chunkCount size length ↔ index * size < length := by
  rw [chunkCount, Nat.lt_iff_add_one_le, Nat.le_div_iff_mul_le positive, Nat.add_mul]
  omega

end Lib.Chunks
