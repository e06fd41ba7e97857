import MagicalOs.Console.Printk
import MagicalOs.Library.Numerals

/-!
# The number conversions

Both functions of `stdlib.c` take the digits off a number from the last one to
the first, and turn them around at the end.  `itox` writes the numeral of every
number.  `itoa` works on the negated number when it is negative, so it does so
for every number that has a counterpart of the other sign.
-/

namespace MagicalOs.Console.NumberConversions

open MagicalOs.Library.ByteMemory
open MagicalOs.Library.CString
open MagicalOs.Library.Numerals
open MagicalOs.Console.Printk

/-! ## Strings for numbers -/

def minus : Byte := 45#8

/-- The sign in front of the digits of a number. -/
def sign (n : Int) : List Byte :=
  if n < 0 then [minus] else []

/-- The letters of a number in base ten. -/
def decimal (n : Int) : List Byte :=
  sign n ++ numeral 10 n.natAbs

/-- Read an optional minus sign and digits. -/
def readDecimal (string : List Byte) : Int :=
  if string.head? = some minus then -(valueOf 10 (string.drop 1) : Int)
  else valueOf 10 string

/-- The buffer holds the canonical decimal numeral of a number. -/
structure HoldsDecimal (n : Int) (buf : List Byte) : Prop where
  digits : ∃ digits, buf = sign n ++ digits ++ [0#8] ∧
    IsNumeral 10 n.natAbs digits
  length : buf.length ≤ 12
  reads : readDecimal (text buf) = n

/-- The buffer holds the canonical hexadecimal numeral of a number. -/
structure HoldsHex (n : Nat) (buf : List Byte) : Prop where
  digits : ∃ digits, buf = digits ++ [0#8] ∧ IsNumeral 16 n digits
  length : buf.length ≤ 9

/-- The only number without a counterpart of the other sign. -/
def intMin : Word := 0x80000000#32

/-! ## The digits of `itoa` -/

section Itoa

variable {n : Word} {room : Nat} {tmp : List Byte}

/-- The last digit of a number without a sign. -/
theorem srem_letter (small : n.toNat < 2 ^ 31) :
    (n.srem 10#32).setWidth 8 + 48#8 = letter (n.toNat % 10) := by
  have positive : n.msb = false := by
    rw [BitVec.msb_eq_decide, decide_eq_false_iff_not, Nat.not_le]
    exact small
  have unsigned : n.srem 10#32 = n.umod 10#32 := by
    rw [BitVec.srem_eq, positive]
    rfl
  have digit : n.toNat % 10 < 10 := Nat.mod_lt _ (by decide)
  apply BitVec.eq_of_toNat_eq
  rw [unsigned, toNat_letter (digit.trans (by decide)), if_pos digit,
    BitVec.toNat_add, BitVec.toNat_setWidth, BitVec.umod_eq,
    BitVec.toNat_umod]
  change (n.toNat % 10 % 256 + 48) % 256 = 48 + n.toNat % 10
  omega

/-- The digits in front of it. -/
theorem toNat_sdiv (small : n.toNat < 2 ^ 31) :
    (n.sdiv 10#32).toNat = n.toNat / 10 := by
  have positive : n.msb = false := by
    rw [BitVec.msb_eq_decide, decide_eq_false_iff_not, Nat.not_le]
    exact small
  have unsigned : n.sdiv 10#32 = n.udiv 10#32 := by
    rw [BitVec.sdiv_eq, positive]
    rfl
  rw [unsigned, BitVec.udiv_eq, BitVec.toNat_udiv]
  rfl

theorem toInt_of_lt (small : n.toNat < 2 ^ 31) : n.toInt = n.toNat := by
  apply BitVec.toInt_eq_toNat_of_lt
  omega

/-- The loop appends the digits, the last one first. -/
theorem itoaLoop_eq (small : n.toNat < 2 ^ 31) (fits : n.toNat < 10 ^ room)
    (positive : 0 < room) :
    itoaLoop room n tmp = tmp ++ (digitsOf 10 n.toNat).map letter := by
  induction room generalizing n tmp with
  | zero => cases positive
  | succ room hypothesis =>
      have quotient := toNat_sdiv small
      have signed : (n.sdiv 10#32).toInt = (n.toNat / 10 : Nat) := by
        rw [toInt_of_lt (by omega), quotient]
      rw [itoaLoop, srem_letter small, signed]
      by_cases last : n.toNat < 10
      · rw [if_neg (by omega), digitsOf_of_lt last, Nat.mod_eq_of_lt last]
        rfl
      · have more : 10 ≤ n.toNat := Nat.not_lt.mp last
        have several : 0 < room := by
          apply Nat.pos_of_ne_zero
          rintro rfl
          omega
        rw [if_pos (by omega), hypothesis (by omega)
          (by rw [quotient]; rw [pow_succ] at fits; omega) several, quotient,
          digitsOf_of_ge (by decide) more, List.map_cons]
        simp

/-- The number that `itoa` converts after the sign is taken off. -/
theorem toNat_magnitude (ordinary : n ≠ intMin) :
    (if n.toInt < 0 then -n else n).toNat = n.toInt.natAbs ∧
      n.toInt.natAbs < 2 ^ 31 := by
  have different : n.toNat ≠ 2 ^ 31 := by
    intro same
    apply ordinary
    apply BitVec.eq_of_toNat_eq
    rw [same]
    rfl
  have bound := n.isLt
  rw [BitVec.toInt_eq_toNat_cond]
  split
  · rw [if_neg (by omega)]
    omega
  · rw [if_pos (by omega), BitVec.toNat_neg]
    omega

/-- What `itoa` writes for every number but one. -/
theorem itoa_eq (ordinary : n ≠ intMin) :
    itoa n = decimal n.toInt ++ [0#8] := by
  rcases toNat_magnitude ordinary with ⟨magnitude, small⟩
  have fits : n.toInt.natAbs < 10 ^ (bufSize - 2) :=
    small.trans (by decide)
  rw [itoa, itoaLoop_eq (by rw [magnitude]; exact small)
    (by rw [magnitude]; exact fits) (by decide), magnitude, decimal, sign,
    numeral]
  split
  · simp [minus]
  · simp

theorem holdsDecimal_decimal {number : Int} (small : number.natAbs < 2 ^ 31) :
    HoldsDecimal number (decimal number ++ [0#8]) := by
  have isNumeral := isNumeral_numeral (by decide : 1 < 10)
    (by decide) number.natAbs
  have short : (numeral 10 number.natAbs).length ≤ 10 :=
    length_numeral_le (by decide) (by decide) (small.trans (by decide))
  rw [decimal]
  constructor
  · exact ⟨numeral 10 number.natAbs, rfl, isNumeral⟩
  · have signLength : (sign number).length ≤ 1 := by
      rw [sign]
      split
      · exact Nat.le_refl 1
      · exact Nat.zero_le 1
    rw [List.length_append, List.length_append, List.length_singleton]
    omega
  · have nonzero : ∀ byte ∈ sign number ++ numeral 10 number.natAbs,
        byte ≠ 0#8 := by
      intro byte member
      rcases List.mem_append.mp member with inSign | inDigits
      · rw [sign] at inSign
        split at inSign
        · rw [List.mem_singleton] at inSign
          rw [inSign, minus]
          decide
        · cases inSign
      · rintro rfl
        exact absurd (isNumeral.le_toNat (by decide) inDigits) (by decide)
    have unsigned : (numeral 10 number.natAbs).head? ≠ some minus := by
      intro leading
      exact absurd (isNumeral.le_toNat (by decide)
        (List.mem_of_head? leading)) (by decide)
    rw [text_append nonzero, readDecimal, sign]
    by_cases negative : number < 0
    · rw [if_pos negative, List.singleton_append, List.head?_cons,
        if_pos rfl, List.drop_one, List.tail_cons, isNumeral.value]
      omega
    · rw [if_neg negative, List.nil_append,
        if_neg unsigned, isNumeral.value]
      omega

/-- `itoa` writes a numeral for every number but the smallest. -/
theorem itoa_holds_decimal_iff (n : Word) :
    HoldsDecimal n.toInt (itoa n) ↔ n ≠ intMin := by
  constructor
  · rintro holds rfl
    rcases holds.digits with ⟨digits, same, -⟩
    have reads := holds.reads
    revert reads
    decide
  · intro ordinary
    rw [itoa_eq ordinary]
    exact holdsDecimal_decimal (toNat_magnitude ordinary).2

/-- The smallest number is written as a minus sign and a parenthesis. -/
theorem itoa_intMin :
    itoa 0x80000000#32 = [45#8, 40#8, 0#8] ∧
      ¬HoldsDecimal (0x80000000#32).toInt (itoa 0x80000000#32) := by
  constructor
  · rfl
  · intro holds
    have reads := holds.reads
    revert reads
    decide

end Itoa

/-! ## The digits of `itox` -/

section Itox

variable {n : Word} {room : Nat} {tmp : List Byte}

theorem hex_letter {digit : Nat} (small : digit < 16) :
    hex.getD digit 0#8 = letter digit := by
  revert digit
  decide

theorem itoxLoop_eq (fits : n.toNat < 16 ^ room) (positive : 0 < room) :
    itoxLoop room n tmp = tmp ++ (digitsOf 16 n.toNat).map letter := by
  induction room generalizing n tmp with
  | zero => cases positive
  | succ room hypothesis =>
      have quotient : (n / 16#32).toNat = n.toNat / 16 := by
        rw [BitVec.toNat_udiv]
        rfl
      rw [itoxLoop, hex_letter (Nat.mod_lt _ (by decide))]
      by_cases last : n.toNat < 16
      · rw [if_neg (by omega), digitsOf_of_lt last, Nat.mod_eq_of_lt last]
        rfl
      · have more : 16 ≤ n.toNat := Nat.not_lt.mp last
        have several : 0 < room := by
          apply Nat.pos_of_ne_zero
          rintro rfl
          omega
        rw [if_pos (by omega), hypothesis
          (by rw [quotient]; rw [pow_succ] at fits; omega) several, quotient,
          digitsOf_of_ge (by decide) more, List.map_cons]
        simp

/-- What `itox` writes. -/
theorem itox_eq (n : Word) : itox n = numeral 16 n.toNat ++ [0#8] := by
  have fits : n.toNat < 16 ^ (bufSize - 1) :=
    n.isLt.trans (by decide)
  rw [itox, itoxLoop_eq fits (by decide), List.nil_append, numeral]

theorem holdsHex_itox (n : Word) : HoldsHex n.toNat (itox n) := by
  have short : (numeral 16 n.toNat).length ≤ 8 :=
    length_numeral_le (by decide) (by decide) (n.isLt.trans_le (by decide))
  rw [itox_eq]
  constructor
  · exact ⟨numeral 16 n.toNat, rfl,
      isNumeral_numeral (by decide) (by decide) n.toNat⟩
  · rw [List.length_append, List.length_singleton]
    omega

end Itox

end MagicalOs.Console.NumberConversions
