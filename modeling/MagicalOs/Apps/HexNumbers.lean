import MagicalOs.Apps.ShellStrings
import MagicalOs.Console.NumberConversions

/-!
# Hexadecimal numbers in the shell

`str_conv_ahex_int` adds up the digits of a string by their places, which it
counts from the length of the string.  A string of small letters is read as the
number it stands for, reduced to the width of an `int`; so what `itox` has
written is read as the number that it was written for.
-/

namespace MagicalOs.Apps.HexNumbers

open MagicalOs.Library.ByteMemory
open MagicalOs.Library.CString
open MagicalOs.Library.Numerals
open MagicalOs.Apps.ShellStrings
open MagicalOs.Console.Printk
open MagicalOs.Console.NumberConversions

/-! ## Places -/

/-- The digit that `str_conv_ahex_int` takes a character for. -/
def shellDigit (c : Byte) : Word :=
  if 48 ≤ c.toInt ∧ c.toInt ≤ 57 then c.signExtend 32 - 48#32
  else c.signExtend 32 - 97#32 + 10#32

/-- The digits of a string, each at its place. -/
def placeValue : List Byte → Word
  | [] => 0#32
  | c :: rest =>
      shellDigit c * BitVec.ofNat 32 (16 ^ rest.length) + placeValue rest

/-- The shell takes the string for the number. -/
def ReadsAs (string : List Byte) (number : Word) : Prop :=
  strConvAhexInt (string ++ [0#8]) = .ok number

section Places

variable {src string : List Byte}

theorem pow_eq (exponent : Nat) :
    pow 16#32 exponent = BitVec.ofNat 32 (16 ^ exponent) := by
  induction exponent with
  | zero => rfl
  | succ exponent hypothesis =>
      rw [pow, hypothesis, pow_succ, BitVec.ofNat_mul]

/-- The loop adds the places that are left. -/
theorem strConvAhexIntLoop_eq {len i : Int} (terminated : Terminated src)
    (length : len = i + (text src).length + 1) (val : Word) :
    strConvAhexIntLoop len src i val = .ok (val + placeValue (text src)) := by
  induction src generalizing i val with
  | nil => exact absurd terminated (by simp [Terminated])
  | cons c src hypothesis =>
      rw [strConvAhexIntLoop]
      by_cases zero : c = 0#8
      · rw [if_neg (not_not.mpr zero), zero, text_zero, placeValue,
          BitVec.add_zero]
      · rw [text_cons zero, List.length_cons] at length
        have place : (len - 2 - i).toNat = (text src).length := by
          omega
        have later : len = i + 1 + (text src).length + 1 := by
          rw [length]
          push_cast
          omega
        rw [if_pos zero, text_cons zero, placeValue, place, pow_eq,
          hypothesis ((terminated_cons zero).mp terminated) later,
          BitVec.add_assoc]
        rfl

theorem strConvAhexInt_eq (terminated : Terminated src) :
    strConvAhexInt src = .ok (placeValue (text src)) := by
  rw [strConvAhexInt, strGetLen_eq terminated, ok_bind,
    strConvAhexIntLoop_eq terminated (by omega), BitVec.zero_add]

/-- What stands behind the NUL has no influence. -/
theorem strConvAhexInt_append (nonzero : ∀ byte ∈ string, byte ≠ 0#8)
    (rest : List Byte) :
    strConvAhexInt (string ++ 0#8 :: rest) = .ok (placeValue string) := by
  rw [strConvAhexInt_eq terminated_append, text_append nonzero]

theorem placeValue_snoc (string : List Byte) (c : Byte) :
    placeValue (string ++ [c]) = placeValue string * 16#32 + shellDigit c := by
  induction string with
  | nil => simp [placeValue]
  | cons first string hypothesis =>
      rw [List.cons_append, placeValue, placeValue, hypothesis,
        List.length_append, List.length_singleton, pow_succ, BitVec.ofNat_mul,
        ← BitVec.mul_assoc, BitVec.add_mul, BitVec.add_assoc]

end Places

/-! ## Small letters -/

section Numerals

variable {digit : Nat} {string : List Byte}

theorem shellDigit_letter (small : digit < 16) :
    shellDigit (letter digit) = BitVec.ofNat 32 digit := by
  revert digit
  decide

/-- Small letters stand for what their places add up to. -/
theorem placeValue_eq
    (letters : ∀ c ∈ string, ∃ digit < 16, c = letter digit) :
    placeValue string = BitVec.ofNat 32 (valueOf 16 string) := by
  induction string with
  | nil => rfl
  | cons c string hypothesis =>
      rw [List.forall_mem_cons] at letters
      rcases letters.1 with ⟨digit, small, rfl⟩
      rw [placeValue, shellDigit_letter small, hypothesis letters.2,
        valueOf_cons, digitOf_letter (small.trans (by decide)),
        BitVec.ofNat_add, BitVec.ofNat_mul]

theorem letters_ne_zero
    (letters : ∀ c ∈ string, ∃ digit < 16, c = letter digit) :
    ∀ byte ∈ string, byte ≠ 0#8 := by
  intro byte member zero
  rcases letters byte member with ⟨digit, small, rfl⟩
  have large := le_toNat_letter (small.trans (by decide))
  rw [zero] at large
  exact absurd large (by decide)

/-- The conversion of a string of small letters. -/
theorem strConvAhexInt_letters
    (letters : ∀ c ∈ string, ∃ digit < 16, c = letter digit)
    (rest : List Byte) :
    strConvAhexInt (string ++ 0#8 :: rest) =
      .ok (BitVec.ofNat 32 (valueOf 16 string)) := by
  rw [strConvAhexInt_append (letters_ne_zero letters), placeValue_eq letters]

/-- The shell reads what `itox` has written. -/
theorem itox_reads_back (n : Word) :
    HoldsHex n.toNat (itox n) ∧ strConvAhexInt (itox n) = .ok n := by
  have isNumeral := isNumeral_numeral (by decide : 1 < 16) (by decide) n.toNat
  constructor
  · exact holdsHex_itox n
  · rw [itox_eq, strConvAhexInt_letters isNumeral.letters, isNumeral.value,
      BitVec.ofNat_toNat, BitVec.setWidth_eq]

end Numerals

end MagicalOs.Apps.HexNumbers
