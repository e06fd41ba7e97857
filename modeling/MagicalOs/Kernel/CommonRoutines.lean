import MagicalOs.Library.HeldBytes
import MagicalOs.Library.StringOrder

/-!
# String comparison in the kernel

`str_compare`, `strcmp` and `strncmp` walk over two strings in memory.  Nothing
but a NUL or a difference ends the loops of the first two, so the iterations of
the model are bounded; on two C strings there is a result from the length of
either of them on.
-/

namespace MagicalOs.Kernel.CommonRoutines

open MagicalOs.Library.ByteMemory
open MagicalOs.Library.HeldBytes
open MagicalOs.Library.StringOrder

/-- `str_compare`; a `char` is signed. -/
def strCompare (mem : Memory) : (iterations src dst : Nat) → Option Int
  | 0, _, _ => none
  | iterations + 1, src, dst =>
      if mem src ≠ 0#8 ∧ mem dst ≠ 0#8 then
        if mem src ≠ mem dst then
          some ((mem src).toInt - (mem dst).toInt)
        else
          strCompare mem iterations (src + 1) (dst + 1)
      else if mem src ≠ 0#8 then
        some 1
      else if mem dst ≠ 0#8 then
        some (-1)
      else
        some 0

/-- `strcmp`. -/
def strcmp (mem : Memory) : (iterations s1 s2 : Nat) → Option Int
  | 0, _, _ => none
  | iterations + 1, s1, s2 =>
      if mem s1 = mem s2 then
        if mem s1 = 0#8 then
          some 0
        else
          strcmp mem iterations (s1 + 1) (s2 + 1)
      else
        some ((mem s1).toInt - (mem s2).toInt)

/-- `strncmp`. -/
def strncmp (mem : Memory) : (n s1 s2 : Nat) → Int
  | 0, _, _ => 0
  | n + 1, s1, s2 =>
      if mem s1 ≠ mem s2 then
        (mem s1).toInt - (mem s2).toInt
      else if mem s1 = 0#8 then
        0
      else
        strncmp mem n (s1 + 1) (s2 + 1)

/-! ## What the loops compute -/

section Loops

variable {mem : Memory} {src dst s1 s2 iterations n : Nat}
  {left right : List Byte}

/-- `str_compare` finds a shorter string, or the first difference. -/
theorem strCompare_eq (leftHeld : HoldsString mem src left)
    (rightHeld : HoldsString mem dst right)
    (enough : left.length < iterations) :
    strCompare mem iterations src dst =
      some (outcome shorterFirst left right) := by
  induction left generalizing src dst iterations right with
  | nil =>
      rcases Nat.exists_eq_succ_of_ne_zero (Nat.ne_of_gt enough) with
        ⟨remaining, rfl⟩
      have leftZero := leftHeld.nil
      rw [strCompare, if_neg (by simp [leftZero]), if_neg (by simp [leftZero])]
      cases right with
      | nil =>
          have rightZero := rightHeld.nil
          simp [rightZero]
      | cons byte rest =>
          rcases rightHeld.head with ⟨value, nonzero⟩
          simp [value, nonzero, shorterFirst]
  | cons head tail induction =>
      rcases Nat.exists_eq_succ_of_ne_zero
        (Nat.ne_of_gt (Nat.zero_lt_of_lt enough)) with ⟨remaining, rfl⟩
      rcases leftHeld.head with ⟨leftValue, leftNonzero⟩
      rw [strCompare]
      cases right with
      | nil =>
          have rightZero := rightHeld.nil
          simp [leftValue, leftNonzero, rightZero, shorterFirst]
      | cons other rest =>
          rcases rightHeld.head with ⟨rightValue, rightNonzero⟩
          rw [leftValue, rightValue, if_pos ⟨leftNonzero, rightNonzero⟩]
          by_cases equal : head = other
          · rw [if_neg (not_not.mpr equal), equal, outcome_cons_self]
            exact induction leftHeld.tail rightHeld.tail
              (Nat.lt_of_succ_lt_succ enough)
          · rw [if_pos equal, outcome_cons_of_ne equal, shorterFirst,
              if_neg leftNonzero, if_neg rightNonzero]
            rfl

/-- `strcmp` returns the first difference. -/
theorem strcmp_eq (leftHeld : HoldsString mem s1 left)
    (rightHeld : HoldsString mem s2 right)
    (enough : right.length < iterations) :
    strcmp mem iterations s1 s2 =
      some (outcome signedDifference left right) := by
  induction right generalizing s1 s2 iterations left with
  | nil =>
      rcases Nat.exists_eq_succ_of_ne_zero (Nat.ne_of_gt enough) with
        ⟨remaining, rfl⟩
      rw [strcmp, rightHeld.nil]
      cases left with
      | nil => simp [leftHeld.nil]
      | cons byte rest =>
          rcases leftHeld.head with ⟨value, nonzero⟩
          rw [value, if_neg nonzero]
          rfl
  | cons head tail induction =>
      rcases Nat.exists_eq_succ_of_ne_zero
        (Nat.ne_of_gt (Nat.zero_lt_of_lt enough)) with ⟨remaining, rfl⟩
      rcases rightHeld.head with ⟨rightValue, rightNonzero⟩
      rw [strcmp, rightValue]
      cases left with
      | nil =>
          rw [leftHeld.nil, if_neg (Ne.symm rightNonzero)]
          rfl
      | cons other rest =>
          rcases leftHeld.head with ⟨leftValue, leftNonzero⟩
          rw [leftValue]
          by_cases equal : other = head
          · rw [if_pos equal, if_neg leftNonzero, equal, outcome_cons_self]
            exact induction leftHeld.tail rightHeld.tail
              (Nat.lt_of_succ_lt_succ enough)
          · rw [if_neg equal, outcome_cons_of_ne equal]
            rfl

/-- A count that suffices for `strcmp` does not stop `strncmp`. -/
theorem strncmp_of_strcmp {order : Int}
    (returns : strcmp mem n s1 s2 = some order) :
    strncmp mem n s1 s2 = order := by
  induction n generalizing s1 s2 with
  | zero => cases returns
  | succ n induction =>
      rw [strcmp] at returns
      rw [strncmp]
      by_cases equal : mem s1 = mem s2
      · rw [if_pos equal] at returns
        rw [if_neg (not_not.mpr equal)]
        by_cases zero : mem s1 = 0#8
        · rw [if_pos zero] at returns
          rw [if_pos zero]
          exact Option.some.inj returns
        · rw [if_neg zero] at returns
          rw [if_neg zero]
          exact induction returns
      · rw [if_neg equal] at returns
        rw [if_pos equal]
        exact Option.some.inj returns

theorem strncmp_eq (leftHeld : HoldsString mem s1 left)
    (rightHeld : HoldsString mem s2 right) (enough : right.length < n) :
    strncmp mem n s1 s2 = outcome signedDifference left right :=
  strncmp_of_strcmp (strcmp_eq leftHeld rightHeld enough)

/-- On C strings, `str_compare` returns zero for equal strings only. -/
theorem strCompare_spec (leftHeld : HoldsString mem src left)
    (rightHeld : HoldsString mem dst right)
    (enough : left.length < iterations) :
    ∃ order, strCompare mem iterations src dst = some order ∧
      (order = 0 ↔ left = right) := by
  refine ⟨_, strCompare_eq leftHeld rightHeld enough, ?_⟩
  exact outcome_eq_zero @shorterFirst_ne_zero leftHeld.nonzero
    rightHeld.nonzero

/-- On C strings, `strcmp` returns zero for equal strings only. -/
theorem strcmp_spec (leftHeld : HoldsString mem s1 left)
    (rightHeld : HoldsString mem s2 right)
    (enough : right.length < iterations) :
    ∃ order, strcmp mem iterations s1 s2 = some order ∧
      (order = 0 ↔ left = right) := by
  refine ⟨_, strcmp_eq leftHeld rightHeld enough, ?_⟩
  exact outcome_eq_zero @signedDifference_ne_zero leftHeld.nonzero
    rightHeld.nonzero

end Loops

end MagicalOs.Kernel.CommonRoutines
