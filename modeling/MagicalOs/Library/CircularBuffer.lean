import Mathlib.Data.BitVec

/-!
# Circular buffers whose indices wrap around

A buffer of `2 ^ width` cells with two indices of `width` bits.  The indices
are equal both when the buffer is empty and when it is full, so a flag tells
the two apart.  `Holds` relates such a buffer to the list of its contents, and
the operations on the buffer are those of a bounded queue on the list.
-/

namespace MagicalOs.Library.CircularBuffer

variable {α : Type*} {width : Nat}

structure Buffer (width : Nat) (α : Type*) where
  cells : BitVec width → α
  first : BitVec width
  free : BitVec width
  full : Bool

/-- The number of cells. -/
abbrev capacity (width : Nat) : Nat := 2 ^ width

/-- The buffer holds the items, in the order in which they were put in. -/
structure Holds (buffer : Buffer width α) (items : List α) : Prop where
  bounded : items.length ≤ capacity width
  free : buffer.free = buffer.first + BitVec.ofNat width items.length
  full : buffer.full = true ↔ items.length = capacity width
  cells : ∀ index (inList : index < items.length),
    buffer.cells (buffer.first + BitVec.ofNat width index) = items[index]

/-- Put an item into the first free cell. -/
def push (buffer : Buffer width α) (item : α) : Buffer width α where
  cells := fun cell =>
    if cell = buffer.free then item else buffer.cells cell
  first := buffer.first
  free := buffer.free + BitVec.ofNat width 1
  full := buffer.first = buffer.free + BitVec.ofNat width 1

/-- Take the item out of the first cell. -/
def pop (buffer : Buffer width α) : Buffer width α :=
  { buffer with first := buffer.first + BitVec.ofNat width 1, full := false }

/-! ## Offsets -/

private theorem ofNat_eq_zero_iff {count : Nat} (positive : 0 < count)
    (bounded : count ≤ capacity width) :
    BitVec.ofNat width count = BitVec.ofNat width 0 ↔
      count = capacity width := by
  rw [← BitVec.toNat_inj, BitVec.toNat_ofNat, BitVec.toNat_ofNat,
    Nat.zero_mod]
  constructor
  · intro divides
    have multiple := Nat.dvd_of_mod_eq_zero divides
    exact Nat.le_antisymm bounded (Nat.le_of_dvd positive multiple)
  · rintro rfl
    exact Nat.mod_self _

/-- Offsets below the capacity lead to different cells. -/
private theorem offset_inj {first : BitVec width} {left right : Nat}
    (leftSmall : left < capacity width) (rightSmall : right < capacity width)
    (same : first + BitVec.ofNat width left =
      first + BitVec.ofNat width right) : left = right := by
  have equal := (BitVec.add_right_inj first).mp same
  rw [← BitVec.toNat_inj, BitVec.toNat_ofNat, BitVec.toNat_ofNat,
    Nat.mod_eq_of_lt leftSmall, Nat.mod_eq_of_lt rightSmall] at equal
  exact equal

private theorem offset_succ (first : BitVec width) (count : Nat) :
    first + BitVec.ofNat width count + BitVec.ofNat width 1 =
      first + BitVec.ofNat width (count + 1) := by
  rw [BitVec.ofNat_add, BitVec.add_assoc]

/-! ## The operations of a queue -/

namespace Holds

variable {buffer : Buffer width α} {items rest : List α} {item : α}

/-- A buffer is empty when it is not full although its indices are equal. -/
theorem isEmpty_iff (holds : Holds buffer items) :
    items = [] ↔ buffer.full = false ∧ buffer.first = buffer.free := by
  constructor
  · rintro rfl
    have notFull : ¬buffer.full = true := by
      rw [holds.full]
      exact (Nat.two_pow_pos width).ne
    exact ⟨by simpa using notFull, by simp [holds.free]⟩
  · rintro ⟨notFull, same⟩
    by_contra nonEmpty
    have positive := List.length_pos_iff.mpr nonEmpty
    have offset : BitVec.ofNat width items.length = BitVec.ofNat width 0 := by
      have sum := holds.free
      rw [← same] at sum
      simpa using sum.symm
    have isFull := holds.full.mpr
      ((ofNat_eq_zero_iff positive holds.bounded).mp offset)
    rw [notFull] at isFull
    cases isFull

theorem push (holds : Holds buffer items) (room : buffer.full = false)
    (item : α) : Holds (CircularBuffer.push buffer item) (items ++ [item]) := by
  have notFull : items.length ≠ capacity width := by
    rw [Ne, ← holds.full, room]
    simp
  have small : items.length < capacity width :=
    Nat.lt_of_le_of_ne holds.bounded notFull
  have next : buffer.free + BitVec.ofNat width 1 =
      buffer.first + BitVec.ofNat width (items.length + 1) := by
    rw [holds.free, offset_succ]
  constructor
  · rw [List.length_append, List.length_singleton]
    exact small
  · simpa [CircularBuffer.push] using next
  · change decide (buffer.first = buffer.free + BitVec.ofNat width 1) = true ↔ _
    rw [decide_eq_true_eq, next, List.length_append, List.length_singleton,
      ← ofNat_eq_zero_iff (Nat.succ_pos _) small]
    constructor
    · intro same
      simpa using same.symm
    · intro offset
      rw [offset, BitVec.add_zero]
  · intro index inList
    rw [List.length_append, List.length_singleton] at inList
    change (if buffer.first + BitVec.ofNat width index = buffer.free
      then item else buffer.cells (buffer.first + BitVec.ofNat width index)) = _
    by_cases isLast : index = items.length
    · subst isLast
      rw [if_pos holds.free.symm]
      simp
    · have earlier : index < items.length := by omega
      have different :
          buffer.first + BitVec.ofNat width index ≠ buffer.free := by
        rw [holds.free]
        exact fun same => isLast
          (offset_inj (earlier.trans small) small same)
      rw [if_neg different, holds.cells index earlier,
        List.getElem_append_left earlier]

/-- The first cell holds the oldest item. -/
theorem first_cell (holds : Holds buffer (item :: rest)) :
    buffer.cells buffer.first = item := by
  have cell := holds.cells 0 (Nat.succ_pos _)
  simpa using cell

theorem pop (holds : Holds buffer (item :: rest)) :
    Holds (CircularBuffer.pop buffer) rest := by
  have bounded := holds.bounded
  rw [List.length_cons] at bounded
  constructor
  · exact Nat.le_of_succ_le bounded
  · change buffer.free = buffer.first + BitVec.ofNat width 1 + _
    rw [holds.free, List.length_cons, BitVec.ofNat_add, BitVec.add_assoc,
      BitVec.add_comm (BitVec.ofNat width 1)]
  · change false = true ↔ _
    constructor
    · intro impossible
      cases impossible
    · intro isFull
      rw [isFull] at bounded
      exact absurd bounded (Nat.not_succ_le_self _)
  · intro index inList
    have cell := holds.cells (index + 1) (Nat.succ_lt_succ inList)
    change buffer.cells (buffer.first + BitVec.ofNat width 1 + _) = _
    rw [BitVec.ofNat_add, BitVec.add_comm (BitVec.ofNat width index),
      ← BitVec.add_assoc] at cell
    exact cell

/-- A buffer does not hold two lists of items. -/
theorem unique {others : List α} (holds : Holds buffer items)
    (other : Holds buffer others) : items = others := by
  induction items generalizing buffer others with
  | nil => exact (other.isEmpty_iff.mpr (holds.isEmpty_iff.mp rfl)).symm
  | cons item rest hypothesis =>
      cases others with
      | nil => exact holds.isEmpty_iff.mpr (other.isEmpty_iff.mp rfl)
      | cons second others =>
          have same : item = second :=
            holds.first_cell.symm.trans other.first_cell
          rw [same, hypothesis holds.pop other.pop]

end Holds

end MagicalOs.Library.CircularBuffer
