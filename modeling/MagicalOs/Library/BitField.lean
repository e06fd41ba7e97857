import Mathlib.Data.Nat.Basic

/-!
# Bit fields of machine words

A C bit field is a window of `width` bits of a word, starting at bit `start`.
This module gives the two operations of such a window, reading and assigning,
for words of every size, together with the laws which relate them: a field
reads back what was assigned, and assigning one field leaves every disjoint
field unchanged.
-/

namespace MagicalOs.Library.BitField

variable {size : Nat}

/-- The value of the field of `width` bits starting at `start`. -/
def field (word : BitVec size) (start width : Nat) : BitVec width :=
  word.extractLsb' start width

/-- Assign the field of `width` bits starting at `start`. -/
def setField (word : BitVec size) (start width : Nat)
    (value : BitVec width) : BitVec size :=
  (word &&& ~~~((BitVec.allOnes width).setWidth size <<< start)) |||
    (value.setWidth size <<< start)

theorem getLsbD_setField
    (word : BitVec size) (start width : Nat) (value : BitVec width)
    (index : Nat) (inWord : index < size) :
    (setField word start width value).getLsbD index =
      if start ≤ index ∧ index < start + width then
        value.getLsbD (index - start)
      else
        word.getLsbD index := by
  simp only [setField, BitVec.getLsbD_or, BitVec.getLsbD_and,
    BitVec.getLsbD_not, BitVec.getLsbD_shiftLeft, BitVec.getLsbD_setWidth,
    BitVec.getLsbD_allOnes]
  have inWindow : index - start < size := by omega
  by_cases below : index < start
  · have outside : ¬(start ≤ index ∧ index < start + width) := by omega
    simp [inWord, below, outside]
  · by_cases above : index < start + width
    · have inside : start ≤ index ∧ index < start + width := by omega
      have offset : index - start < width := by omega
      simp [inWord, below, inside, inWindow, offset]
    · have outside : ¬(start ≤ index ∧ index < start + width) := by omega
      have offset : width ≤ index - start := by omega
      have zero := BitVec.getLsbD_of_ge value (index - start) offset
      simp [inWord, below, outside, zero, Nat.not_lt.mpr offset]

/-- A field reads back the value which was assigned to it. -/
@[simp]
theorem field_setField_self
    (word : BitVec size) (start width : Nat) (value : BitVec width)
    (fits : start + width ≤ size) :
    field (setField word start width value) start width = value := by
  apply BitVec.eq_of_getLsbD_eq
  intro index inField
  have inWord : start + index < size := by omega
  rw [field, BitVec.getLsbD_extractLsb',
    getLsbD_setField word start width value _ inWord]
  simp [inField]

/-- Assigning one field leaves every disjoint field unchanged. -/
theorem field_setField_of_disjoint
    (word : BitVec size) (start width : Nat) (value : BitVec width)
    (otherStart otherWidth : Nat)
    (disjoint :
      otherStart + otherWidth ≤ start ∨ start + width ≤ otherStart) :
    field (setField word start width value) otherStart otherWidth =
      field word otherStart otherWidth := by
  apply BitVec.eq_of_getLsbD_eq
  intro index inField
  simp only [field, BitVec.getLsbD_extractLsb']
  by_cases inWord : otherStart + index < size
  · rw [getLsbD_setField word start width value _ inWord, if_neg (by omega)]
  · simp [BitVec.getLsbD_of_ge _ _ (Nat.not_lt.mp inWord)]

/-- Assigning to a field the value it has changes nothing. -/
theorem setField_field_self (word : BitVec size) (start width : Nat) :
    setField word start width (field word start width) = word := by
  apply BitVec.eq_of_getLsbD_eq
  intro index inWord
  rw [getLsbD_setField word start width _ _ inWord]
  split
  next inside =>
    have moved : start + (index - start) = index :=
      Nat.add_sub_cancel' inside.1
    have offset : index - start < width := by omega
    rw [field, BitVec.getLsbD_extractLsb', moved]
    simp [offset]
  next => rfl

/-- The last assignment to a field counts. -/
theorem setField_setField (word : BitVec size) (start width : Nat)
    (first last : BitVec width) :
    setField (setField word start width first) start width last =
      setField word start width last := by
  apply BitVec.eq_of_getLsbD_eq
  intro index inWord
  rw [getLsbD_setField _ start width last _ inWord,
    getLsbD_setField word start width last _ inWord,
    getLsbD_setField word start width first _ inWord]
  split
  next => rfl
  next => rfl

/-- Two neighbouring fields, joined, are the field which spans them. -/
theorem field_append
    (word : BitVec size) (start low high : Nat) :
    field word (start + low) high ++ field word start low =
      field word start (high + low) := by
  apply BitVec.eq_of_getLsbD_eq
  intro index inField
  simp only [field, BitVec.getLsbD_append, BitVec.getLsbD_extractLsb']
  by_cases inLow : index < low
  · simp [inLow, show index < high + low from inField]
  · have shifted : start + low + (index - low) = start + index := by omega
    have inHigh : index - low < high := by omega
    simp [inLow, shifted, inHigh, show index < high + low from inField]

/-- A field of a field is a field of the word. -/
theorem field_field
    (word : BitVec size) (start width innerStart innerWidth : Nat)
    (inside : innerStart + innerWidth ≤ width) :
    field (field word start width) innerStart innerWidth =
      field word (start + innerStart) innerWidth := by
  apply BitVec.eq_of_getLsbD_eq
  intro index inField
  have inOuter : innerStart + index < width := by omega
  simp [field, inField, inOuter, Nat.add_assoc]

/-- Masking a window and shifting it down reads the field of that window. -/
theorem setWidth_mask_ushiftRight
    (word mask : BitVec size) (start width : Nat)
    (isMask : mask = (BitVec.allOnes width).setWidth size <<< start)
    (fits : start + width ≤ size) :
    ((word &&& mask) >>> start).setWidth width = field word start width := by
  subst isMask
  apply BitVec.eq_of_getLsbD_eq
  intro index inField
  have inWord : start + index < size := by omega
  have inMask : index < size := by omega
  simp [field, inField, inWord, inMask]

/-- Shifting a word down and masking it reads the field of that window. -/
theorem ushiftRight_mask
    (word mask : BitVec size) (start width : Nat)
    (isMask : mask = (BitVec.allOnes width).setWidth size) :
    (word >>> start) &&& mask = (field word start width).setWidth size := by
  subst isMask
  apply BitVec.eq_of_getLsbD_eq
  intro index inWord
  by_cases inField : index < width
  · simp [field, inField, inWord]
  · have beyond := Nat.not_lt.mp inField
    have zero := BitVec.getLsbD_of_ge (field word start width) index beyond
    simp [inField, inWord, zero]

/-! ## Single bits -/

theorem field_one (word : BitVec size) (bit : Nat) :
    field word bit 1 = BitVec.ofBool (word.getLsbD bit) := by
  apply BitVec.eq_of_getLsbD_eq
  intro index inField
  rw [Nat.lt_one_iff.mp inField, field, BitVec.getLsbD_extractLsb']
  simp

/-- A mask of one bit tests the field of this bit. -/
theorem and_twoPow_ne_zero_iff (word : BitVec size) {bit : Nat}
    (inWord : bit < size) :
    word &&& BitVec.twoPow size bit ≠ BitVec.ofNat size 0 ↔
      field word bit 1 = 1#1 := by
  rw [BitVec.and_twoPow, field_one]
  cases word.getLsbD bit with
  | false => simp
  | true =>
      apply iff_of_true _ rfl
      intro zero
      have differ := congrArg (fun power => power.getLsbD bit) zero
      simp [inWord] at differ

/-! ## Words assembled from shifted values -/

/-- A value of `width` bits, moved to the window which starts at `start`. -/
def shifted (size : Nat) {width : Nat} (value : BitVec width) (start : Nat) :
    BitVec size :=
  value.setWidth size <<< start

@[simp]
theorem field_or (left right : BitVec size) (start width : Nat) :
    field (left ||| right) start width =
      field left start width ||| field right start width := by
  apply BitVec.eq_of_getLsbD_eq
  intro index inField
  simp [field, inField]

theorem field_and (left right : BitVec size) (start width : Nat) :
    field (left &&& right) start width =
      field left start width &&& field right start width := by
  apply BitVec.eq_of_getLsbD_eq
  intro index inField
  simp [field, inField]

/-- The window of a shifted value holds the value, -/
theorem field_shifted_self {width : Nat} (value : BitVec width) (start : Nat)
    (fits : start + width ≤ size) :
    field (shifted size value start) start width = value := by
  apply BitVec.eq_of_getLsbD_eq
  intro index inField
  have inWord : start + index < size := by omega
  simp [field, shifted, inField, inWord]

/-- and every disjoint window is zero. -/
theorem field_shifted_of_disjoint {width : Nat} (value : BitVec width)
    (start otherStart otherWidth : Nat)
    (disjoint :
      otherStart + otherWidth ≤ start ∨ start + width ≤ otherStart) :
    field (shifted size value start) otherStart otherWidth =
      BitVec.ofNat otherWidth 0 := by
  apply BitVec.eq_of_getLsbD_eq
  intro index inField
  simp only [field, shifted, BitVec.getLsbD_extractLsb',
    BitVec.getLsbD_shiftLeft, BitVec.getLsbD_setWidth]
  rcases disjoint with below | above
  · have before : otherStart + index < start := by omega
    simp [before]
  · have beyond : width ≤ otherStart + index - start := by omega
    simp [BitVec.getLsbD_of_ge value _ beyond]

end MagicalOs.Library.BitField
