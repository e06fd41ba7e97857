import MagicalOs.Library.ByteMemory
import Mathlib.Data.Nat.Digits.Lemmas

/-!
# Numerals

The digits of a number in a base, written with the most significant one in
front.  A string of letters is a canonical numeral when it has no leading
zero, and it stands for the number that its digits add up to by their places.
-/

namespace MagicalOs.Library.Numerals

open MagicalOs.Library.ByteMemory

/-! ## Letters and digits -/

/-- The letter of a digit: `0` to `9`, and the small letters behind them. -/
def letter (digit : Nat) : Byte :=
  BitVec.ofNat 8 (if digit < 10 then 48 + digit else 87 + digit)

/-- The digit that a letter stands for. -/
def digitOf (c : Byte) : Nat :=
  if c.toNat < 58 then c.toNat - 48 else c.toNat - 87

/-- The digits of a number, the lowest one in front; zero has one digit. -/
def digitsOf (base number : Nat) : List Nat :=
  if number = 0 then [0] else Nat.digits base number

/-- The letters of a number in a base. -/
def numeral (base number : Nat) : List Byte :=
  ((digitsOf base number).map letter).reverse

/-- The number that the letters stand for, by their places. -/
def valueOf (base : Nat) (string : List Byte) : Nat :=
  string.foldl (fun value c => base * value + digitOf c) 0

/-- The string is the canonical numeral of the number. -/
structure IsNumeral (base number : Nat) (string : List Byte) : Prop where
  letters : ∀ c ∈ string, ∃ digit < base, c = letter digit
  nonempty : string ≠ []
  canonical : string.head? = some (letter 0) → string = [letter 0]
  value : valueOf base string = number

section Letters

variable {digit : Nat}

theorem toNat_letter (small : digit < 36) :
    (letter digit).toNat = if digit < 10 then 48 + digit else 87 + digit := by
  rw [letter, BitVec.toNat_ofNat]
  split
  · omega
  · omega

theorem digitOf_letter (small : digit < 36) : digitOf (letter digit) = digit := by
  rw [digitOf, toNat_letter small]
  by_cases decimal : digit < 10
  · rw [if_pos decimal, if_pos (by omega), Nat.add_sub_cancel_left]
  · rw [if_neg decimal, if_neg (by omega), Nat.add_sub_cancel_left]

/-- No control character or sign is the letter of a digit. -/
theorem le_toNat_letter (small : digit < 36) : 48 ≤ (letter digit).toNat := by
  rw [toNat_letter small]
  split
  · exact Nat.le_add_right 48 digit
  · omega

/-- Different digits have different letters. -/
theorem letter_inj {other : Nat} (small : digit < 36)
    (otherSmall : other < 36) :
    letter digit = letter other ↔ digit = other := by
  constructor
  · intro same
    rw [← digitOf_letter small, same, digitOf_letter otherSmall]
  · rintro rfl
    rfl

end Letters

/-! ## The digits of a number -/

section Digits

variable {base number digit : Nat}

theorem digitsOf_of_lt (small : number < base) :
    digitsOf base number = [number] := by
  rw [digitsOf]
  split
  · rename_i zero
    rw [zero]
  · rename_i nonzero
    exact Nat.digits_of_lt base number nonzero small

/-- The lowest digit is the remainder, the others are those of the quotient. -/
theorem digitsOf_of_ge (several : 1 < base) (large : base ≤ number) :
    digitsOf base number =
      number % base :: digitsOf base (number / base) := by
  have positive : 0 < number / base :=
    Nat.div_pos large (Nat.zero_lt_of_lt several)
  rw [digitsOf, if_neg (by omega), digitsOf, if_neg positive.ne']
  exact Nat.digits_def' several (by omega)

theorem ofDigits_digitsOf (base number : Nat) :
    Nat.ofDigits base (digitsOf base number) = number := by
  rw [digitsOf]
  split
  · rename_i zero
    rw [zero, Nat.ofDigits_singleton]
  · exact Nat.ofDigits_digits base number

theorem digitsOf_lt (several : 1 < base)
    (member : digit ∈ digitsOf base number) : digit < base := by
  rw [digitsOf] at member
  split at member
  · rw [List.mem_singleton] at member
    omega
  · exact Nat.digits_lt_base several member

theorem digitsOf_ne_nil (base number : Nat) : digitsOf base number ≠ [] := by
  rw [digitsOf]
  split
  · exact List.cons_ne_nil 0 []
  · rename_i nonzero
    exact Nat.digits_ne_nil_iff_ne_zero.mpr nonzero

theorem length_digitsOf_le {count : Nat} (several : 1 < base)
    (positive : 0 < count) (small : number < base ^ count) :
    (digitsOf base number).length ≤ count := by
  rw [digitsOf]
  split
  · exact positive
  · rw [Nat.digits_length_le_iff several]
    exact small

/-- The highest digit is not zero, but for the number zero. -/
theorem getLast_digitsOf
    (zero : (digitsOf base number).getLast? = some 0) :
    digitsOf base number = [0] := by
  rw [digitsOf] at zero ⊢
  split
  · rfl
  · rename_i nonzero
    rw [if_neg nonzero] at zero
    have highest := Nat.getLast_digit_ne_zero base nonzero
    rw [List.getLast?_eq_some_getLast
      (Nat.digits_ne_nil_iff_ne_zero.mpr nonzero), Option.some.injEq] at zero
    exact absurd zero highest

end Digits

/-! ## Reading a string -/

section Reading

variable {base number : Nat} {string rest : List Byte} {c : Byte}

theorem foldl_valueOf (base start : Nat) (string : List Byte) :
    string.foldl (fun value c => base * value + digitOf c) start =
      start * base ^ string.length + valueOf base string := by
  induction string using List.reverseRecOn with
  | nil => simp [valueOf]
  | append_singleton string c hypothesis =>
      rw [valueOf, List.foldl_append, List.foldl_append, hypothesis,
        List.foldl_cons, List.foldl_nil, List.foldl_cons, List.foldl_nil,
        List.length_append, List.length_singleton, pow_succ, valueOf]
      ring

/-- The first letter has the highest place. -/
theorem valueOf_cons (base : Nat) (c : Byte) (string : List Byte) :
    valueOf base (c :: string) =
      digitOf c * base ^ string.length + valueOf base string := by
  rw [valueOf, List.foldl_cons, foldl_valueOf, Nat.mul_zero, Nat.zero_add]

theorem valueOf_snoc (base : Nat) (string : List Byte) (c : Byte) :
    valueOf base (string ++ [c]) =
      base * valueOf base string + digitOf c := by
  rw [valueOf, List.foldl_append]
  rfl

theorem valueOf_reverse_map {digits : List Nat}
    (small : ∀ digit ∈ digits, digit < 36) :
    valueOf base (digits.map letter).reverse = Nat.ofDigits base digits := by
  induction digits with
  | nil => rfl
  | cons digit digits hypothesis =>
      rw [List.forall_mem_cons] at small
      rw [List.map_cons, List.reverse_cons, valueOf_snoc,
        hypothesis small.2, digitOf_letter small.1, Nat.ofDigits_cons,
        Nat.add_comm]

/-- The letters of a number are its canonical numeral. -/
theorem isNumeral_numeral (several : 1 < base) (few : base ≤ 36)
    (number : Nat) : IsNumeral base number (numeral base number) := by
  have small : ∀ digit ∈ digitsOf base number, digit < 36 := by
    intro digit member
    exact (digitsOf_lt several member).trans_le few
  constructor
  · intro c member
    rw [numeral, List.mem_reverse] at member
    rcases List.mem_map.mp member with ⟨digit, inDigits, rfl⟩
    exact ⟨digit, digitsOf_lt several inDigits, rfl⟩
  · rw [numeral, Ne, List.reverse_eq_nil_iff, List.map_eq_nil_iff]
    exact digitsOf_ne_nil base number
  · intro leading
    rw [numeral, List.head?_reverse, List.getLast?_map,
      Option.map_eq_some_iff] at leading
    rcases leading with ⟨digit, last, same⟩
    have highest : digit ∈ digitsOf base number := List.mem_of_getLast? last
    rw [letter_inj (small digit highest) (by omega)] at same
    rw [same] at last
    rw [numeral, getLast_digitsOf last]
    rfl
  · rw [numeral, valueOf_reverse_map small]
    exact ofDigits_digitsOf base number

theorem IsNumeral.le_toNat (few : base ≤ 36)
    (isNumeral : IsNumeral base number string) (member : c ∈ string) :
    48 ≤ c.toNat := by
  rcases isNumeral.letters c member with ⟨digit, small, rfl⟩
  exact le_toNat_letter (small.trans_le few)

theorem length_numeral_le {count : Nat} (several : 1 < base)
    (positive : 0 < count) (small : number < base ^ count) :
    (numeral base number).length ≤ count := by
  rw [numeral, List.length_reverse, List.length_map]
  exact length_digitsOf_le several positive small

end Reading

end MagicalOs.Library.Numerals
