import MagicalOs.Console.FormatStrings
import MagicalOs.Console.NumberConversions

/-!
# What `printk` prints

A format is made of characters and conversions, and `printf` prints each of
them by itself.  So does `printk`, but it prints a character as a number, and
an unsigned number like a signed one.

The outputs of a faulty conversion are never made up for by what follows: from
the first one on, `printk` has printed something that `printf` does not print
there, or more than `printf` has printed.
-/

namespace MagicalOs.Console.FormattedOutput

open MagicalOs.Library.ByteMemory
open MagicalOs.Library.CString
open MagicalOs.Library.Numerals
open MagicalOs.Console.Printk
open MagicalOs.Console.NumberConversions
open MagicalOs.Console.FormatStrings

/-! ## Two outputs of a list -/

section Outputs

variable {Item Symbol : Type} {left right : Item → List Symbol}

/-- The left output is as long, or has a symbol which the right one lacks. -/
def Overtakes (left right : Item → List Symbol) : Prop :=
  ∀ item, (right item).length ≤ (left item).length ∨
    ∃ symbol ∈ left item, symbol ∉ right item

/-- An output that contains the other one is the other one. -/
theorem Overtakes.eq_of_contains (overtakes : Overtakes left right)
    {item : Item} {front back : List Symbol}
    (contains : right item = front ++ left item ++ back) :
    front = [] ∧ left item = right item := by
  rcases overtakes item with long | ⟨symbol, inLeft, notInRight⟩
  · rw [contains, List.length_append, List.length_append] at long
    have noFront : front = [] := List.length_eq_zero_iff.mp (by omega)
    have noBack : back = [] := List.length_eq_zero_iff.mp (by omega)
    rw [contains, noFront, noBack]
    simp
  · apply absurd _ notInRight
    rw [contains]
    simp [inLeft]

/-- What is ahead stays ahead. -/
theorem Overtakes.ahead (overtakes : Overtakes left right) (items : List Item)
    {ahead : List Symbol} (nonempty : ahead ≠ []) :
    ahead ++ items.flatMap left ≠ items.flatMap right := by
  induction items generalizing ahead with
  | nil =>
      rw [List.flatMap_nil, List.flatMap_nil, List.append_nil]
      exact nonempty
  | cons item items hypothesis =>
      intro same
      rw [List.flatMap_cons, List.flatMap_cons, ← List.append_assoc] at same
      rcases List.append_eq_append_iff.mp same with
        ⟨missing, contains, -⟩ | ⟨later, splits, rest⟩
      · exact nonempty (overtakes.eq_of_contains contains).1
      · by_cases level : later = []
        · rw [level, List.append_nil] at splits
          have contains : right item = ahead ++ left item ++ [] := by
            rw [List.append_nil, splits]
          exact nonempty (overtakes.eq_of_contains contains).1
        · exact hypothesis level rest.symm

/-- So two outputs are equal only when they are for every item. -/
theorem Overtakes.flatMap_eq_iff (overtakes : Overtakes left right)
    (items : List Item) :
    items.flatMap left = items.flatMap right ↔
      ∀ item ∈ items, left item = right item := by
  induction items with
  | nil => simp
  | cons item items hypothesis =>
      rw [List.flatMap_cons, List.flatMap_cons, List.forall_mem_cons,
        ← hypothesis]
      constructor
      · intro same
        rcases List.append_eq_append_iff.mp same with
          ⟨missing, contains, rest⟩ | ⟨later, splits, rest⟩
        · rw [← List.nil_append (left item)] at contains
          have equal := (overtakes.eq_of_contains contains).2
          rw [equal] at same
          exact ⟨equal, List.append_cancel_left same⟩
        · by_cases level : later = []
          · rw [level, List.append_nil] at splits
            rw [splits] at same
            exact ⟨splits, List.append_cancel_left same⟩
          · exact absurd rest.symm (overtakes.ahead items level)
      · rintro ⟨first, rest⟩
        rw [first, rest]

end Outputs

/-! ## Pieces of a format -/

/-- A character, or a conversion with its argument. -/
inductive Piece where
  | literal (c : Byte) (plain : c ≠ 0#8 ∧ c ≠ percent)
  | decimal (long : Bool) (value : Word)
  | unsigned (long : Bool) (value : Word)
  | hex (long : Bool) (value : Word)
  | char (value : Word)
  | string (bytes : List Byte)

namespace Piece

/-- A conversion with a letter. -/
def conversion (long : Bool) (c : Byte) : List Byte :=
  if long then [percent, modifier, c] else [percent, c]

def format : Piece → List Byte
  | .literal c _ => [c]
  | .decimal long _ => conversion long 100#8
  | .unsigned long _ => conversion long 117#8
  | .hex long _ => conversion long 120#8
  | .char _ => conversion false 99#8
  | .string _ => conversion false 115#8

def arguments : Piece → List Argument
  | .literal _ _ => []
  | .decimal _ value => [.int value]
  | .unsigned _ value => [.int value]
  | .hex _ value => [.int value]
  | .char value => [.int value]
  | .string bytes => [.string bytes]

/-- What `printf` prints. -/
def printf : Piece → List Byte
  | .literal c _ => [c]
  | .decimal _ value => NumberConversions.decimal value.toInt
  | .unsigned _ value => numeral 10 value.toNat
  | .hex _ value => numeral 16 value.toNat
  | .char value => [value.setWidth 8]
  | .string bytes => text bytes

/-- What `printk` sends to `put_char`. -/
def printed : Piece → List Byte
  | .literal c _ => [c]
  | .decimal _ value => text (itoa value)
  | .unsigned _ value => text (itoa value)
  | .hex _ value => text (itox value)
  | .char value => text (itoa value)
  | .string bytes => text bytes

/-- The pieces for which the two are the same. -/
def Right : Piece → Prop
  | .literal _ _ => True
  | .decimal _ value => value ≠ intMin
  | .unsigned _ value => value.toNat < 2 ^ 31
  | .hex _ _ => True
  | .char _ => False
  | .string _ => True

end Piece

/-! ## What the conversions print -/

section Conversions

variable {value : Word} {c : Byte}

theorem text_snoc {string : List Byte}
    (nonzero : ∀ byte ∈ string, byte ≠ 0#8) :
    text (string ++ [0#8]) = string :=
  text_append nonzero

theorem numeral_letters {base number : Nat} (several : 1 < base)
    (few : base ≤ 36) (member : c ∈ numeral base number) : 48 ≤ c.toNat :=
  (isNumeral_numeral several few number).le_toNat few member

theorem text_itox : text (itox value) = numeral 16 value.toNat := by
  rw [itox_eq]
  apply text_snoc
  rintro byte member rfl
  exact absurd (numeral_letters (by decide) (by decide) member) (by decide)

theorem decimal_ne_zero {n : Int} (member : c ∈ decimal n) : c ≠ 0#8 := by
  rintro rfl
  rcases List.mem_append.mp member with inSign | inDigits
  · rw [sign] at inSign
    split at inSign
    · exact absurd (List.mem_singleton.mp inSign) (by decide)
    · cases inSign
  · exact absurd (numeral_letters (by decide) (by decide) inDigits) (by decide)

theorem text_itoa (ordinary : value ≠ intMin) :
    text (itoa value) = decimal value.toInt := by
  rw [itoa_eq ordinary]
  exact text_snoc fun byte member => decimal_ne_zero member

theorem text_itoa_intMin : text (itoa intMin) = [45#8, 40#8] := by
  decide

/-- A number below `2 ^ 31` has no sign. -/
theorem text_itoa_of_lt (small : value.toNat < 2 ^ 31) :
    text (itoa value) = numeral 10 value.toNat := by
  have ordinary : value ≠ intMin := by
    rintro rfl
    exact absurd small (by decide)
  rw [text_itoa ordinary, toInt_of_lt small, decimal, sign,
    if_neg (by omega), Int.natAbs_natCast]
  rfl

theorem toInt_neg (large : ¬value.toNat < 2 ^ 31) : value.toInt < 0 := by
  have bound := value.isLt
  rw [BitVec.toInt_eq_toNat_cond, if_neg (by omega)]
  omega

/-- Any other is printed with a minus sign. -/
theorem minus_mem_text_itoa (large : ¬value.toNat < 2 ^ 31) :
    minus ∈ text (itoa value) := by
  by_cases ordinary : value = intMin
  · rw [ordinary, text_itoa_intMin]
    decide
  · rw [text_itoa ordinary, decimal, sign, if_pos (toInt_neg large)]
    simp

theorem minus_not_mem_numeral {number : Nat} : minus ∉ numeral 10 number := by
  intro member
  exact absurd (numeral_letters (by decide) (by decide) member) (by decide)

theorem numeral_ne_nil (number : Nat) : numeral 10 number ≠ [] :=
  (isNumeral_numeral (by decide) (by decide) number).nonempty

/-- A number takes one byte at least, -/
theorem text_itoa_ne_nil : text (itoa value) ≠ [] := by
  by_cases ordinary : value = intMin
  · rw [ordinary, text_itoa_intMin]
    exact List.cons_ne_nil _ _
  · rw [text_itoa ordinary, decimal]
    intro empty
    exact numeral_ne_nil _ (List.append_eq_nil_iff.mp empty).2

/-- which is never the byte that the number stands for. -/
theorem text_itoa_ne_char : text (itoa value) ≠ [value.setWidth 8] := by
  intro same
  by_cases small : value.toNat < 2 ^ 31
  · have isNumeral := isNumeral_numeral (by decide : 1 < 10) (by decide)
      value.toNat
    rw [text_itoa_of_lt small] at same
    rcases isNumeral.letters (value.setWidth 8) (by rw [same]; simp) with
      ⟨digit, isDigit, letterIs⟩
    have number := isNumeral.value
    rw [same, letterIs, valueOf_cons, digitOf_letter (by omega)] at number
    have byte := congrArg BitVec.toNat letterIs
    rw [toNat_letter (by omega), if_pos isDigit, BitVec.toNat_setWidth,
      ← number] at byte
    simp only [List.length_nil, pow_zero] at byte
    change (digit * 1 + 0) % 256 = 48 + digit at byte
    omega
  · by_cases ordinary : value = intMin
    · rw [ordinary, text_itoa_intMin] at same
      cases same
    · have length := congrArg List.length same
      have several :=
        List.length_pos_iff.mpr (numeral_ne_nil value.toInt.natAbs)
      rw [text_itoa ordinary, decimal, sign, if_pos (toInt_neg small),
        List.length_append, List.length_singleton, List.length_singleton]
        at length
      omega

end Conversions

namespace Piece

/-- Which pieces are printed as `printf` prints them. -/
theorem printed_eq_iff (piece : Piece) :
    printed piece = printf piece ↔ Right piece := by
  cases piece with
  | literal c plain => exact iff_of_true rfl trivial
  | decimal long value =>
      rw [printed, printf, Right]
      constructor
      · rintro same rfl
        rw [text_itoa_intMin] at same
        revert same
        decide
      · exact text_itoa
  | unsigned long value =>
      rw [printed, printf, Right]
      constructor
      · intro same
        by_contra large
        have member := minus_mem_text_itoa large
        rw [same] at member
        exact minus_not_mem_numeral member
      · exact text_itoa_of_lt
  | hex long value => exact iff_of_true text_itox trivial
  | char value => exact iff_of_false text_itoa_ne_char not_false
  | string bytes => exact iff_of_true rfl trivial

theorem printed_overtakes : Overtakes printed printf := by
  intro piece
  by_cases right : Right piece
  · left
    rw [(printed_eq_iff piece).mpr right]
  cases piece with
  | literal c plain => exact absurd trivial right
  | decimal long value =>
      right
      rw [Right, not_not] at right
      refine ⟨40#8, ?_, ?_⟩
      · rw [printed, right, text_itoa_intMin]
        decide
      · rw [printf, right]
        decide
  | unsigned long value =>
      right
      exact ⟨minus, minus_mem_text_itoa right, minus_not_mem_numeral⟩
  | hex long value => exact absurd trivial right
  | char value =>
      left
      exact List.length_pos_iff.mpr text_itoa_ne_nil
  | string bytes => exact absurd trivial right

end Piece

/-! ## Formats -/

section Formats

variable {pieces : List Piece} {rest : List Byte} {more : List Argument}

def format (pieces : List Piece) : List Byte :=
  pieces.flatMap Piece.format

def arguments (pieces : List Piece) : List Argument :=
  pieces.flatMap Piece.arguments

/-- What `printf` prints for the format and its arguments. -/
def printf (pieces : List Piece) : List Byte :=
  pieces.flatMap Piece.printf

theorem printkOutput_piece (piece : Piece) :
    printkOutput (piece.format ++ rest) false (piece.arguments ++ more) =
      piece.printed ++ printkOutput rest false more := by
  cases piece with
  | literal c plain =>
      rw [Piece.format, List.singleton_append, printkOutput.eq_def]
      dsimp only
      rw [if_neg plain.1, if_neg]
      · rfl
      · rintro (same | set)
        · exact plain.2 same
        · cases set
  | decimal long value =>
      cases long
      · rfl
      · rfl
  | unsigned long value =>
      cases long
      · rfl
      · rfl
  | hex long value =>
      cases long
      · rfl
      · rfl
  | char value => rfl
  | string bytes => rfl

/-- `printk` prints piece after piece, and stops at the NUL. -/
theorem printkOutput_format (pieces : List Piece) :
    printkOutput (format pieces ++ 0#8 :: rest) false
        (arguments pieces ++ more) =
      pieces.flatMap Piece.printed := by
  induction pieces with
  | nil =>
      change printkOutput (0#8 :: rest) false more = []
      rw [printkOutput.eq_def]
      rfl
  | cons piece pieces hypothesis =>
      rw [format, arguments] at hypothesis
      rw [format, arguments, List.flatMap_cons, List.flatMap_cons,
        List.flatMap_cons, List.append_assoc, List.append_assoc,
        printkOutput_piece, hypothesis]

end Formats

/--
`printk` prints what `printf` prints exactly when the format has no `%c`, no
unsigned number from `2 ^ 31` on and no signed number without a counterpart.
-/
theorem printk_prints_iff (pieces : List Piece) (rest : List Byte)
    (more : List Argument) :
    printkOutput (format pieces ++ 0#8 :: rest) false
        (arguments pieces ++ more) = printf pieces ↔
      ∀ piece ∈ pieces, piece.Right := by
  rw [printkOutput_format, printf, Piece.printed_overtakes.flatMap_eq_iff]
  simp only [Piece.printed_eq_iff]

/-- The letter `A` is printed as a number. -/
theorem printk_char :
    printkOutput (format [.char 65#32] ++ [0#8]) false
        (arguments [.char 65#32]) = [54#8, 53#8] ∧
      printkOutput (format [.char 65#32] ++ [0#8]) false
        (arguments [.char 65#32]) ≠ printf [.char 65#32] := by
  constructor
  · rfl
  · decide

end MagicalOs.Console.FormattedOutput
