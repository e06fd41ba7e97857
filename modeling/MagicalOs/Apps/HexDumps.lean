import MagicalOs.Apps.HexNumbers
import MagicalOs.Console.TextCells

/-!
# Hexadecimal dumps

`dump_hex` draws the digits of a value from the last to the first, with capital
letters.  The shell takes a capital letter for a digit that is 32 too small, so
it reads back what has been drawn when no digit is a letter.  At the eighth
place the difference is a multiple of `2 ^ 32`, and the letter does no harm.
-/

namespace MagicalOs.Apps.HexDumps

open MagicalOs.Library.ByteMemory
open MagicalOs.Apps.ShellStrings
open MagicalOs.Apps.HexNumbers
open MagicalOs.Console.Screen
open MagicalOs.Console.ScreenBounds
open MagicalOs.Console.TextCells

/-! ## Characters on the screen -/

/-- The characters in a row of the video memory, from a column on. -/
def charactersAt (memory : Memory) (x : Word) (y : Byte) (count : Nat) :
    List Byte :=
  (List.range count).map fun i =>
    memory (cellAddress (narrow (x + BitVec.ofNat 32 i)) y)

/-- The characters of the last digits of a value. -/
def dumpedDigits : Nat → Word → List Byte
  | 0, _ => []
  | count + 1, val =>
      dumpedDigits count (val >>> 4) ++
        [hexDigit ((val &&& 0x0f#32).setWidth 8)]

/-- The digits that matter to the shell are no letters. -/
def DigitsBelowTen (val : Word) (numDigits : Nat) : Prop :=
  ∀ place < min numDigits 7, val.toNat / 16 ^ place % 16 < 10

section Drawing

variable {display : Display} {console : ConsoleState} {x val : Word}
  {y column : Byte} {count : Nat}

theorem low_cellValue (c : Byte) : (cellValue c).setWidth 8 = c := by
  revert c
  decide +kernel

/-- A character is the low byte of its cell. -/
theorem memory_putCharPos_column (c x : Byte) :
    (shown display (putCharPos c x y console)).memory (cellAddress column y) =
      if column = x then c
      else (shown display console).memory (cellAddress column y) := by
  have cell : ∀ column : Byte,
      cellAddress column y = addressOf (y.toNat * columns + column.toNat) :=
    fun column => rfl
  rw [memory_putCharPos, load8_cell (Memory.store16 _ _ _), cell, cell,
    load16_store16_cell]
  by_cases here : column = x
  · rw [if_pos here, if_pos (by rw [here]), low_cellValue]
  · rw [if_neg here, if_neg, ← load8_cell]
    intro same
    apply here
    apply BitVec.eq_of_toNat_eq
    exact Nat.add_left_cancel same

/-- Columns that are less than a row of bytes apart are different. -/
theorem narrow_ne {offset : Nat} (positive : 0 < offset)
    (small : offset < 256) :
    narrow (x + BitVec.ofNat 32 offset) ≠ narrow x := by
  intro same
  have values := congrArg BitVec.toNat same
  rw [narrow, narrow, BitVec.toNat_setWidth, BitVec.toNat_setWidth,
    BitVec.toNat_add, BitVec.toNat_ofNat] at values
  have bound := x.isLt
  omega

/-- The loop draws to the left of its first column only. -/
theorem dumpDigitsPos_kept {drawn : Word} {offset : Nat}
    (right : drawn = x + BitVec.ofNat 32 offset) (positive : 0 < offset)
    (few : count + offset < 256) :
    (shown display (dumpDigitsPos count val x y console)).memory
        (cellAddress (narrow drawn) y) =
      (shown display console).memory (cellAddress (narrow drawn) y) := by
  induction count generalizing val x offset console with
  | zero => rfl
  | succ count hypothesis =>
      have farther : drawn = x - 1#32 + BitVec.ofNat 32 (offset + 1) := by
        rw [right, BitVec.ofNat_add,
          BitVec.add_comm (BitVec.ofNat 32 offset), ← BitVec.add_assoc,
          BitVec.sub_add_cancel]
      rw [dumpDigitsPos, hypothesis farther (by omega) (by omega),
        memory_putCharPos_column, if_neg]
      rw [right]
      exact narrow_ne positive (by omega)

/-- What the loop draws, from left to right. -/
theorem charactersAt_dumpDigitsPos (console : ConsoleState) (val : Word)
    {last : Word} (ends : last = x + BitVec.ofNat 32 count - 1#32)
    (few : count < 256) :
    charactersAt (shown display (dumpDigitsPos count val last y console)).memory
        x y count =
      dumpedDigits count val := by
  induction count generalizing val last console with
  | zero => rfl
  | succ count hypothesis =>
      have column : last = x + BitVec.ofNat 32 count := by
        rw [ends, BitVec.ofNat_add, ← BitVec.add_assoc, BitVec.add_sub_cancel]
      have kept : last = last - 1#32 + BitVec.ofNat 32 1 := by
        rw [BitVec.sub_add_cancel]
      have front := hypothesis
        (putCharPos (hexDigit ((val &&& 0x0f#32).setWidth 8)) (narrow last) y
          console) (val >>> 4) (congrArg (· - 1#32) column) (by omega)
      rw [charactersAt] at front
      rw [charactersAt, List.range_succ, List.map_append, dumpDigitsPos,
        front, List.map_singleton, dumpedDigits, ← column,
        dumpDigitsPos_kept kept Nat.one_pos (by omega),
        memory_putCharPos_column, if_pos rfl]

theorem charactersAt_dumpHexPos {numDigits : Word} (x : Byte)
    (few : numDigits.toNat ≤ 8) :
    charactersAt (shown display (dumpHexPos val numDigits x y console)).memory
        (x.setWidth 32) y numDigits.toNat =
      dumpedDigits numDigits.toNat val := by
  apply charactersAt_dumpDigitsPos console val
  · rw [BitVec.ofNat_toNat, BitVec.setWidth_eq]
  · omega

theorem charactersAt_dumpHex {numDigits : Word}
    (few : numDigits.toNat ≤ 8) :
    charactersAt (shown display (dumpHex val numDigits console)).memory
        console.cursorPos.x (narrow console.cursorPos.y) numDigits.toNat =
      dumpedDigits numDigits.toNat val := by
  rw [dumpHex, memory_updateCursor, dumpDigits_eq]
  apply charactersAt_dumpDigitsPos console val
  · rw [BitVec.ofNat_toNat, BitVec.setWidth_eq]
  · omega

end Drawing

/-! ## What the shell reads -/

section Reading

variable {count number : Nat} {val : Word}

/-- A digit from ten on, which is drawn as a capital letter. -/
def isLetter (digit : Nat) : Nat :=
  if digit < 10 then 0 else 1

/-- The places of the capital letters among the last digits. -/
def letterPlaces : Nat → Nat → Nat
  | 0, _ => 0
  | count + 1, number =>
      16 * letterPlaces count (number / 16) + isLetter (number % 16)

theorem isLetter_le (digit : Nat) : isLetter digit ≤ 1 := by
  rw [isLetter]
  split
  · exact Nat.zero_le 1
  · exact Nat.le_refl 1

theorem isLetter_eq_zero {digit : Nat} : isLetter digit = 0 ↔ digit < 10 := by
  rw [isLetter]
  split
  · rename_i small
    exact iff_of_true rfl small
  · rename_i large
    exact iff_of_false Nat.one_ne_zero large

/-- The shell takes a letter for 32 less than it stands for. -/
theorem shellDigit_hexDigit {digit : Nat} (small : digit < 16) :
    shellDigit (hexDigit (BitVec.ofNat 8 digit)) +
        BitVec.ofNat 32 (32 * isLetter digit) =
      BitVec.ofNat 32 digit := by
  revert digit
  decide

/-- The value that is read is too small by 32 at every place of a letter. -/
theorem placeValue_dumpedDigits :
    placeValue (dumpedDigits count val) +
        BitVec.ofNat 32 (32 * letterPlaces count val.toNat) =
      BitVec.ofNat 32 (val.toNat % 16 ^ count) := by
  induction count generalizing val with
  | zero =>
      rw [pow_zero, Nat.mod_one]
      rfl
  | succ count hypothesis =>
      have rest := @hypothesis (val >>> 4)
      have digit : (val &&& 0x0f#32).setWidth 8 =
          BitVec.ofNat 8 (val.toNat % 16) := by
        apply BitVec.eq_of_toNat_eq
        rw [BitVec.toNat_setWidth, BitVec.toNat_and, BitVec.toNat_ofNat]
        exact congrArg (· % 2 ^ 8) (Nat.and_two_pow_sub_one_eq_mod val.toNat 4)
      have last := shellDigit_hexDigit (Nat.mod_lt val.toNat (by decide : 0 < 16))
      rw [BitVec.toNat_ushiftRight, Nat.shiftRight_eq_div_pow] at rest
      rw [dumpedDigits, placeValue_snoc, digit, letterPlaces, pow_succ',
        Nat.mod_mul, BitVec.ofNat_add (val.toNat % 16), ← last,
        BitVec.ofNat_mul 16, ← rest]
      simp only [BitVec.ofNat_add, BitVec.ofNat_mul]
      grind

/-- The highest place can be split off as well. -/
theorem letterPlaces_succ :
    letterPlaces (count + 1) number =
      letterPlaces count number +
        16 ^ count * isLetter (number / 16 ^ count % 16) := by
  induction count generalizing number with
  | zero => simp [letterPlaces]
  | succ count hypothesis =>
      rw [letterPlaces, hypothesis, letterPlaces, Nat.div_div_eq_div_mul,
        pow_succ']
      ring

theorem letterPlaces_bound (count number : Nat) :
    15 * letterPlaces count number < 16 ^ count := by
  induction count with
  | zero => exact Nat.one_pos
  | succ count hypothesis =>
      have letter := isLetter_le (number / 16 ^ count % 16)
      have place : 16 ^ count * isLetter (number / 16 ^ count % 16) ≤
          16 ^ count * 1 :=
        Nat.mul_le_mul_left _ letter
      rw [letterPlaces_succ, pow_succ]
      omega

theorem letterPlaces_eq_zero :
    letterPlaces count number = 0 ↔
      ∀ place < count, number / 16 ^ place % 16 < 10 := by
  induction count with
  | zero => simp [letterPlaces]
  | succ count hypothesis =>
      have positive : 16 ^ count ≠ 0 := by positivity
      rw [letterPlaces_succ, Nat.add_eq_zero_iff, hypothesis, Nat.mul_eq_zero,
        or_iff_right positive, isLetter_eq_zero]
      constructor
      · rintro ⟨lower, highest⟩ place below
        rcases Nat.lt_succ_iff_lt_or_eq.mp below with before | rfl
        · exact lower place before
        · exact highest
      · intro all
        exact ⟨fun place before => all place (Nat.lt_succ_of_lt before),
          all count (Nat.lt_succ_self count)⟩

/-- Letters below the eighth place are missed, and no others. -/
theorem letterPlaces_vanish (few : count ≤ 8) :
    32 * letterPlaces count number % 2 ^ 32 = 0 ↔
      ∀ place < min count 7, number / 16 ^ place % 16 < 10 := by
  rw [← letterPlaces_eq_zero]
  by_cases all : count = 8
  · have bound := letterPlaces_bound 7 number
    rw [all, letterPlaces_succ]
    change _ ↔ letterPlaces 7 number = 0
    omega
  · have bound := letterPlaces_bound count number
    have largest : 16 ^ count ≤ 16 ^ 7 :=
      Nat.pow_le_pow_right (by decide) (by omega)
    rw [Nat.min_eq_left (by omega)]
    omega

theorem hexDigit_ne_zero (digit : Byte) (small : digit.toNat < 16) :
    hexDigit digit ≠ 0#8 := by
  revert digit
  decide +kernel

theorem dumpedDigits_ne_zero :
    ∀ byte ∈ dumpedDigits count val, byte ≠ 0#8 := by
  induction count generalizing val with
  | zero =>
      intro byte member
      cases member
  | succ count hypothesis =>
      intro byte member
      rcases List.mem_append.mp member with inFront | isLast
      · exact hypothesis byte inFront
      · rw [List.mem_singleton.mp isLast]
        apply hexDigit_ne_zero
        have masked : (val &&& 0x0f#32).toNat ≤ 15 := by
          rw [BitVec.toNat_and]
          exact Nat.and_le_right
        rw [BitVec.toNat_setWidth]
        omega

/-- The shell reads the digits back unless one of them is a letter. -/
theorem readsAs_dumpedDigits_iff (few : count ≤ 8) :
    ReadsAs (dumpedDigits count val)
        (BitVec.ofNat 32 (val.toNat % 16 ^ count)) ↔
      DigitsBelowTen val count := by
  have vanish : BitVec.ofNat 32 (32 * letterPlaces count val.toNat) = 0#32 ↔
      32 * letterPlaces count val.toNat % 2 ^ 32 = 0 := by
    rw [← BitVec.toNat_inj, BitVec.toNat_ofNat]
    rfl
  rw [ReadsAs, strConvAhexInt_append dumpedDigits_ne_zero, Except.ok.injEq,
    ← placeValue_dumpedDigits, BitVec.self_eq_add_right, vanish,
    letterPlaces_vanish few]
  rfl

end Reading

/--
What `dump_hex` and `dump_hex_pos` show is read back by the shell, when none of
the digits below the eighth place is a letter.
-/
theorem dumps_readBack_iff (display : Display) (console : ConsoleState)
    (val numDigits : Word) (few : numDigits.toNat ≤ 8) :
    (ReadsAs
        (charactersAt (shown display (dumpHex val numDigits console)).memory
          console.cursorPos.x (narrow console.cursorPos.y) numDigits.toNat)
        (BitVec.ofNat 32 (val.toNat % 16 ^ numDigits.toNat)) ↔
      DigitsBelowTen val numDigits.toNat) ∧
    ∀ x y : Byte,
      ReadsAs
          (charactersAt
            (shown display (dumpHexPos val numDigits x y console)).memory
            (x.setWidth 32) y numDigits.toNat)
          (BitVec.ofNat 32 (val.toNat % 16 ^ numDigits.toNat)) ↔
        DigitsBelowTen val numDigits.toNat := by
  constructor
  · rw [charactersAt_dumpHex few]
    exact readsAs_dumpedDigits_iff few
  · intro x y
    rw [charactersAt_dumpHexPos x few]
    exact readsAs_dumpedDigits_iff few

/-- A year as four digits. -/
theorem dumpHex_readBack :
    ReadsAs
      (charactersAt
        (shown blankDisplay (dumpHex 0x2013#32 4#32 bootConsole)).memory
        bootConsole.cursorPos.x (narrow bootConsole.cursorPos.y) 4)
      0x2013#32 :=
  (dumps_readBack_iff blankDisplay bootConsole 0x2013#32 4#32
    (by decide)).1.mpr (by unfold DigitsBelowTen; decide)

/-- A byte with a letter is shown as `0A` and read as a negative number. -/
theorem dumpHex_letter :
    charactersAt (shown blankDisplay (dumpHex 0x0a#32 2#32 bootConsole)).memory
        bootConsole.cursorPos.x (narrow bootConsole.cursorPos.y) 2 =
      [48#8, 65#8] ∧
    ¬ReadsAs
      (charactersAt (shown blankDisplay (dumpHex 0x0a#32 2#32 bootConsole)).memory
        bootConsole.cursorPos.x (narrow bootConsole.cursorPos.y) 2)
      (BitVec.ofNat 32 (0x0a % 16 ^ 2)) := by
  constructor
  · decide
  · unfold ReadsAs
    decide

end MagicalOs.Apps.HexDumps
