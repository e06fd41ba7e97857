import MagicalOs.Library.ByteMemory

/-!
# The order of strings

A string is less than another one when it is so at the first byte in which the
two differ, the NUL behind the shorter one included.  Bytes are compared without
a sign; a routine that subtracts signed characters finds the same order exactly
when both bytes are in the same half of their range.
-/

namespace MagicalOs.Library.StringOrder

open MagicalOs.Library.ByteMemory

/-- The first two bytes that differ, and a NUL for the end of a string. -/
def firstDifference : List Byte → List Byte → Option (Byte × Byte)
  | [], [] => none
  | [], other :: _ => some (0#8, other)
  | byte :: _, [] => some (byte, 0#8)
  | byte :: left, other :: right =>
      if byte = other then firstDifference left right else some (byte, other)

/-- The result of a routine that goes by the first difference. -/
def outcome (rule : Byte → Byte → Int) (left right : List Byte) : Int :=
  match firstDifference left right with
  | none => 0
  | some (byte, other) => rule byte other

/-- The result has the sign of the order, and is zero for equal strings. -/
structure Orders (left right : List Byte) (result : Int) : Prop where
  sign : compare result 0 = compare left right
  zero : result = 0 ↔ left = right

/-- The difference of two signed characters. -/
def signedDifference (byte other : Byte) : Int :=
  byte.toInt - other.toInt

/-- The shorter string first, and otherwise the difference. -/
def shorterFirst (byte other : Byte) : Int :=
  if byte = 0#8 then -1
  else if other = 0#8 then 1
  else signedDifference byte other

/-- Where two strings differ, both bytes are in the same half. -/
def SameHalf (left right : List Byte) : Prop :=
  ∀ byte other, firstDifference left right = some (byte, other) →
    byte.msb = other.msb

/-! ## Bytes -/

section Bytes

variable {byte other : Byte}

theorem compare_of_lt (less : byte < other) : compare byte other = .lt :=
  if_pos less

theorem compare_of_gt (greater : other < byte) :
    compare byte other = .gt := by
  have notLess : ¬byte < other := BitVec.lt_asymm greater
  have different : byte ≠ other := (BitVec.ne_of_lt greater).symm
  exact (if_neg notLess).trans (if_neg different)

/-- The sign changes the order of two bytes from different halves only. -/
theorem signed_lt_iff (less : byte < other) :
    byte.toInt < other.toInt ↔ byte.msb = other.msb := by
  have otherBound := other.isLt
  have byteHalf := @BitVec.msb_eq_false_iff_two_mul_lt 8 byte
  have otherHalf := @BitVec.msb_eq_false_iff_two_mul_lt 8 other
  rw [BitVec.toInt_eq_msb_cond, BitVec.toInt_eq_msb_cond]
  rw [BitVec.lt_def] at less
  cases byteMsb : byte.msb with
  | false =>
      rw [byteMsb, eq_self, true_iff] at byteHalf
      cases otherMsb : other.msb with
      | false => simp [less]
      | true =>
          apply iff_of_false _ Bool.false_ne_true
          simp only [Bool.false_eq_true, if_true, if_false]
          omega
  | true =>
      have byteLarge : ¬2 * byte.toNat < 2 ^ 8 := by
        rw [← byteHalf, byteMsb]
        exact Bool.noConfusion
      have otherMsb : other.msb = true := by
        rw [← Bool.not_eq_false, otherHalf]
        omega
      rw [otherMsb]
      simp only [if_true, iff_true]
      omega

theorem signedDifference_ne_zero (different : byte ≠ other) :
    signedDifference byte other ≠ 0 :=
  fun zero => different (BitVec.eq_of_toInt_eq (Int.sub_eq_zero.mp zero))

theorem shorterFirst_ne_zero (different : byte ≠ other) :
    shorterFirst byte other ≠ 0 := by
  rw [shorterFirst]
  by_cases byteZero : byte = 0#8
  · rw [if_pos byteZero]
    decide
  rw [if_neg byteZero]
  by_cases otherZero : other = 0#8
  · rw [if_pos otherZero]
    decide
  · rw [if_neg otherZero]
    exact signedDifference_ne_zero different

/-- The difference of signed characters, and the order of the bytes. -/
theorem signed_iff (different : byte ≠ other) :
    compare (signedDifference byte other) 0 = compare byte other ↔
      byte.msb = other.msb := by
  rcases BitVec.lt_trichotomy byte other with less | same | greater
  · have moved : byte.toInt - other.toInt < 0 ↔ byte.toInt < other.toInt :=
      ⟨Int.lt_of_sub_neg, Int.sub_neg_of_lt⟩
    rw [signedDifference, compare_of_lt less, Int.compare_eq_lt, moved, signed_lt_iff less]
  · exact absurd same different
  · rw [signedDifference, compare_of_gt greater, Int.compare_eq_gt,
      Int.sub_pos, signed_lt_iff greater, eq_comm]

/-- The shorter string comes first in the order, too. -/
theorem shorterFirst_sign (different : byte ≠ other)
    (half : byte.msb = other.msb) :
    compare (shorterFirst byte other) 0 = compare byte other := by
  rw [shorterFirst]
  by_cases byteZero : byte = 0#8
  · have positive : 0#8 < other := by
      apply (BitVec.pos_iff_ne_zero _).mpr
      rw [← byteZero]
      exact different.symm
    rw [if_pos byteZero, byteZero, compare_of_lt positive]
    rfl
  rw [if_neg byteZero]
  by_cases otherZero : other = 0#8
  · have positive : 0#8 < byte := (BitVec.pos_iff_ne_zero _).mpr byteZero
    rw [if_pos otherZero, otherZero, compare_of_gt positive]
    rfl
  · rw [if_neg otherZero]
    exact (signed_iff different).mpr half

end Bytes

/-! ## Strings -/

section Strings

variable {left right : List Byte} {byte other : Byte}

theorem firstDifference_eq_none :
    firstDifference left right = none ↔ left = right := by
  induction left generalizing right with
  | nil =>
      cases right with
      | nil => exact iff_of_true rfl rfl
      | cons other right => simp [firstDifference]
  | cons byte left hypothesis =>
      cases right with
      | nil => simp [firstDifference]
      | cons other right =>
          rw [firstDifference]
          by_cases same : byte = other
          · rw [if_pos same, hypothesis, same]
            simp
          · rw [if_neg same]
            simp [same]

/-- Only the end of a string differs from the other one by a NUL. -/
theorem of_firstDifference (leftNonzero : ∀ byte ∈ left, byte ≠ 0#8)
    (rightNonzero : ∀ byte ∈ right, byte ≠ 0#8)
    (first : firstDifference left right = some (byte, other)) :
    byte ≠ other ∧ compare left right = compare byte other := by
  induction left generalizing right with
  | nil =>
      cases right with
      | nil => cases first
      | cons next right =>
          rcases Prod.mk.inj (Option.some.inj first) with ⟨rfl, rfl⟩
          have nonzero := rightNonzero next (List.mem_cons_self ..)
          have less : 0#8 < next := (BitVec.pos_iff_ne_zero _).mpr nonzero
          exact ⟨nonzero.symm, (compare_of_lt less).symm⟩
  | cons head left hypothesis =>
      cases right with
      | nil =>
          rcases Prod.mk.inj (Option.some.inj first) with ⟨rfl, rfl⟩
          have nonzero := leftNonzero head (List.mem_cons_self ..)
          have greater : 0#8 < head := (BitVec.pos_iff_ne_zero _).mpr nonzero
          exact ⟨nonzero, (compare_of_gt greater).symm⟩
      | cons next right =>
          rw [firstDifference] at first
          rw [List.compare_cons_cons]
          by_cases same : head = next
          · rw [if_pos same] at first
            rw [same, Std.ReflOrd.compare_self]
            rw [List.forall_mem_cons] at leftNonzero rightNonzero
            exact hypothesis leftNonzero.2 rightNonzero.2 first
          · rw [if_neg same] at first
            rcases Prod.mk.inj (Option.some.inj first) with ⟨rfl, rfl⟩
            refine ⟨same, ?_⟩
            rcases BitVec.lt_trichotomy head next with less | same | greater
            · rw [compare_of_lt less]
              rfl
            · contradiction
            · rw [compare_of_gt greater]
              rfl

variable {rule : Byte → Byte → Int}

@[simp]
theorem outcome_nil : outcome rule [] [] = 0 :=
  rfl

@[simp]
theorem outcome_nil_cons : outcome rule [] (other :: right) = rule 0#8 other :=
  rfl

@[simp]
theorem outcome_cons_nil : outcome rule (byte :: left) [] = rule byte 0#8 :=
  rfl

@[simp]
theorem outcome_cons_self :
    outcome rule (byte :: left) (byte :: right) = outcome rule left right := by
  rw [outcome, firstDifference, if_pos rfl, outcome]

theorem outcome_cons_of_ne (different : byte ≠ other) :
    outcome rule (byte :: left) (other :: right) = rule byte other := by
  rw [outcome, firstDifference, if_neg different]

theorem outcome_of_first
    (first : firstDifference left right = some (byte, other)) :
    outcome rule left right = rule byte other := by
  rw [outcome, first]

/-- A rule that tells different bytes apart tells different strings apart. -/
theorem outcome_eq_zero (tells : ∀ byte other, byte ≠ other →
      rule byte other ≠ 0)
    (leftNonzero : ∀ byte ∈ left, byte ≠ 0#8)
    (rightNonzero : ∀ byte ∈ right, byte ≠ 0#8) :
    outcome rule left right = 0 ↔ left = right := by
  cases first : firstDifference left right with
  | none =>
      have same := firstDifference_eq_none.mp first
      rw [outcome, first]
      exact iff_of_true rfl same
  | some bytes =>
      rcases bytes with ⟨byte, other⟩
      have different := (of_firstDifference leftNonzero rightNonzero first).1
      rw [outcome_of_first first]
      apply iff_of_false (tells byte other different)
      intro same
      rw [firstDifference_eq_none.mpr same] at first
      cases first

/-- A rule finds the order if it does so at the first difference. -/
theorem orders_outcome_iff (tells : ∀ byte other, byte ≠ other →
      rule byte other ≠ 0)
    (leftNonzero : ∀ byte ∈ left, byte ≠ 0#8)
    (rightNonzero : ∀ byte ∈ right, byte ≠ 0#8) :
    Orders left right (outcome rule left right) ↔
      ∀ byte other, firstDifference left right = some (byte, other) →
        compare (rule byte other) 0 = compare byte other := by
  constructor
  · intro orders byte other first
    have ordered := (of_firstDifference leftNonzero rightNonzero first).2
    rw [← ordered, ← orders.sign, outcome_of_first first]
  · intro rules
    have zero := outcome_eq_zero tells leftNonzero rightNonzero
    refine ⟨?_, zero⟩
    cases first : firstDifference left right with
    | none =>
        have same := firstDifference_eq_none.mp first
        rw [zero.mpr same, same, Std.ReflOrd.compare_self,
          Std.ReflOrd.compare_self]
    | some bytes =>
        rcases bytes with ⟨byte, other⟩
        have ordered := (of_firstDifference leftNonzero rightNonzero first).2
        rw [outcome_of_first first, ordered]
        exact rules byte other first

end Strings

end MagicalOs.Library.StringOrder
