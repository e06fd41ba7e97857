import MagicalOs.Console.ScreenBounds

/-!
# The format string of `printk`

A conversion is a percent sign, any number of modifiers `l`, and a letter.  As
long as every conversion has its letter, `printk` stops at the NUL and has then
used an argument for each conversion that takes one.  A format that ends inside
a conversion has the NUL in place of the letter, and `printk` steps over it.
-/

namespace MagicalOs.Console.FormatStrings

open MagicalOs.Library.ByteMemory
open MagicalOs.Library.CString
open MagicalOs.Console.Screen
open MagicalOs.Console.ScreenBounds
open MagicalOs.Console.Printk

/-! ## Conversions -/

def percent : Byte := 37#8

/-- The modifier `l`. -/
def modifier : Byte := 108#8

/-- What a conversion takes from the argument list. -/
inductive Kind where
  | int
  | string
  deriving DecidableEq

/-- The argument that a letter behind a percent sign asks for. -/
def kindOf (conversion : Byte) : Option Kind :=
  if isDecimal conversion then some .int
  else if conversion = 120#8 then some .int
  else if conversion = 115#8 then some .string
  else none

/--
The arguments that a format asks for.  The flag tells whether the format is
read from inside a conversion.
-/
def wanted : Bool → List Byte → List Kind
  | _, [] => []
  | false, c :: format => wanted (c = percent) format
  | true, c :: format =>
      if c = modifier then wanted true format
      else (kindOf c).toList ++ wanted false format

/-- The format has ended inside a conversion. -/
def endsInside : Bool → List Byte → Bool
  | inside, [] => inside
  | false, c :: format => endsInside (c = percent) format
  | true, c :: format => endsInside (c = modifier) format

/-- The kind of an argument. -/
def kind : Argument → Kind
  | .int _ => .int
  | .string _ => .string

/--
`printk` reads the format up to its NUL, behind which there is nothing, and
leaves the arguments that no conversion has asked for.
-/
def ReadsFormat (format : List Byte) : Prop :=
  ∀ used rest console, used.map kind = wanted false format →
    (printk (format ++ [0#8]) (used ++ rest) console).2 = .returned rest

/-! ## The scanner -/

section Scanner

variable {format : List Byte} {used rest : List Argument} {c : Byte}
  {console : ConsoleState}

/-- Where `printk` ends up on a format that is read from inside or outside. -/
def endingOf (inside : Bool) (format : List Byte) (rest : List Argument) :
    Ending :=
  if endsInside inside format then .overrun else .returned rest

/-- A character outside a conversion is printed. -/
theorem printkLoop_plain (visible : c ≠ 0#8) (plain : c ≠ percent) :
    printkLoop (c :: format) false used console =
      printkLoop format false used (putChar c console) := by
  rw [printkLoop.eq_def]
  dsimp only
  rw [if_neg visible, if_neg]
  rintro (same | set)
  · exact plain same
  · cases set

section Conversion

variable {start : Byte} {longflag : Bool} (visible : start ≠ 0#8)
  (inside : start = 37#8 ∨ longflag = true)
include visible inside

theorem printkLoop_decimal (value : Word) (decimal : isDecimal c = true) :
    printkLoop (start :: c :: format) longflag (.int value :: used) console =
      printkLoop format false used (putStr (text (itoa value)) console) := by
  rw [printkLoop.eq_def]
  dsimp only
  rw [if_neg visible, if_pos inside, if_pos decimal]

theorem printkLoop_hex (value : Word) :
    printkLoop (start :: 120#8 :: format) longflag (.int value :: used)
        console =
      printkLoop format false used (putStr (text (itox value)) console) := by
  rw [printkLoop.eq_def]
  dsimp only
  rw [if_neg visible, if_pos inside]
  rfl

theorem printkLoop_string (bytes : List Byte) :
    printkLoop (start :: 115#8 :: format) longflag (.string bytes :: used)
        console =
      printkLoop format false used (putStr (text bytes) console) := by
  rw [printkLoop.eq_def]
  dsimp only
  rw [if_neg visible, if_pos inside]
  rfl

theorem printkLoop_modifier :
    printkLoop (start :: modifier :: format) longflag used console =
      printkLoop (modifier :: format) true used console := by
  rw [printkLoop.eq_def]
  dsimp only
  rw [if_neg visible, if_pos inside]
  rfl

/-- Any other character is skipped. -/
theorem printkLoop_unknown (unknown : kindOf c = none)
    (letter : c ≠ modifier) :
    printkLoop (start :: c :: format) longflag used console =
      printkLoop format false used console := by
  rw [kindOf] at unknown
  rw [printkLoop.eq_def]
  dsimp only
  rw [if_neg visible, if_pos inside]
  split at unknown
  · cases unknown
  · rename_i notDecimal
    split at unknown
    · cases unknown
    · rename_i notHex
      split at unknown
      · cases unknown
      · rename_i notString
        rw [if_neg notDecimal, if_neg notHex, if_neg notString]
        exact if_neg letter

end Conversion

/-- A letter that is no modifier ends the conversion. -/
theorem wanted_letter (letter : c ≠ modifier) :
    wanted true (c :: format) = (kindOf c).toList ++ wanted false format := by
  rw [wanted, if_neg letter]

theorem endingOf_letter (letter : c ≠ modifier) :
    endingOf true (c :: format) rest = endingOf false format rest := by
  rw [endingOf, endsInside, decide_eq_false letter, endingOf]

/-- The letters that ask for an argument. -/
theorem kindOf_cases (c : Byte) :
    kindOf c = none ∨ (kindOf c = some .int ∧ isDecimal c = true) ∨
      (kindOf c = some .int ∧ c = 120#8) ∨
      (kindOf c = some .string ∧ c = 115#8) := by
  rw [kindOf]
  split
  · rename_i decimal
    exact .inr (.inl ⟨rfl, decimal⟩)
  · split
    · rename_i isHex
      exact .inr (.inr (.inl ⟨rfl, isHex⟩))
    · split
      · rename_i isString
        exact .inr (.inr (.inr ⟨rfl, isString⟩))
      · exact .inl rfl

/-- An argument for a conversion that asks for a number. -/
theorem int_of_kinds {kinds : List Kind} (same : used.map kind = .int :: kinds) :
    ∃ value later, used = .int value :: later ∧ later.map kind = kinds := by
  rcases List.map_eq_cons_iff.mp same with ⟨first, later, rfl, isInt, rest⟩
  cases first with
  | int value => exact ⟨value, later, rfl, rest⟩
  | string bytes => cases isInt

theorem string_of_kinds {kinds : List Kind}
    (same : used.map kind = .string :: kinds) :
    ∃ bytes later, used = .string bytes :: later ∧ later.map kind = kinds := by
  rcases List.map_eq_cons_iff.mp same with ⟨first, later, rfl, isString, rest⟩
  cases first with
  | int value => cases isString
  | string bytes => exact ⟨bytes, later, rfl, rest⟩

/-- The letter of a conversion takes the argument that it asks for. -/
theorem printkLoop_letter {start : Byte} {longflag : Bool}
    (visible : start ≠ 0#8) (inside : start = percent ∨ longflag = true)
    (letter : c ≠ modifier) {kinds : List Kind}
    (same : used.map kind = (kindOf c).toList ++ kinds) :
    ∃ later after, later.map kind = kinds ∧
      printkLoop (start :: c :: format) longflag (used ++ rest) console =
        printkLoop format false (later ++ rest) after := by
  rcases kindOf_cases c with unknown | ⟨isInt, decimal⟩ | ⟨isInt, rfl⟩ |
    ⟨isString, rfl⟩
  · rw [unknown] at same
    exact ⟨used, _, same, printkLoop_unknown visible inside unknown letter⟩
  · rw [isInt] at same
    rcases int_of_kinds same with ⟨value, later, rfl, laterKinds⟩
    exact ⟨later, _, laterKinds,
      printkLoop_decimal visible inside value decimal⟩
  · rw [isInt] at same
    rcases int_of_kinds same with ⟨value, later, rfl, laterKinds⟩
    exact ⟨later, _, laterKinds, printkLoop_hex visible inside value⟩
  · rw [isString] at same
    rcases string_of_kinds same with ⟨bytes, later, rfl, laterKinds⟩
    exact ⟨later, _, laterKinds, printkLoop_string visible inside bytes⟩

/--
The loop in front of a format, and in front of a percent sign or a modifier
that is followed by the format.
-/
theorem printkLoop_ending (nonzero : ∀ byte ∈ format, byte ≠ 0#8) :
    (∀ used console, used.map kind = wanted false format →
      (printkLoop (format ++ [0#8]) false (used ++ rest) console).2 =
        endingOf false format rest) ∧
    ∀ start longflag used console, used.map kind = wanted true format →
      start ≠ 0#8 → start = percent ∨ longflag = true →
      (printkLoop (start :: (format ++ [0#8])) longflag (used ++ rest)
          console).2 =
        endingOf true format rest := by
  induction format with
  | nil =>
      constructor
      · intro used console kinds
        rw [wanted, List.map_eq_nil_iff] at kinds
        rw [kinds]
        rfl
      · intro start longflag used console kinds visible inside
        rw [List.nil_append,
          printkLoop_unknown visible inside (by decide) (by decide)]
        rfl
  | cons c format hypothesis =>
      rw [List.forall_mem_cons] at nonzero
      rcases nonzero with ⟨visible, laterVisible⟩
      rcases hypothesis laterVisible with ⟨outside, inside⟩
      constructor
      · intro used console kinds
        by_cases isPercent : c = percent
        · rw [wanted, decide_eq_true isPercent] at kinds
          rw [endingOf, endsInside, decide_eq_true isPercent]
          exact inside c false used console kinds visible (.inl isPercent)
        · rw [wanted, decide_eq_false isPercent] at kinds
          rw [List.cons_append, printkLoop_plain visible isPercent, endingOf,
            endsInside, decide_eq_false isPercent]
          exact outside used (putChar c console) kinds
      · intro start longflag used console kinds startVisible isInside
        rw [List.cons_append]
        by_cases isModifier : c = modifier
        · rw [wanted, if_pos isModifier] at kinds
          rw [isModifier] at visible ⊢
          rw [printkLoop_modifier startVisible isInside]
          exact inside modifier true used console kinds visible (.inr rfl)
        rcases @printkLoop_letter (format ++ [0#8]) used rest c console start
          longflag startVisible isInside isModifier _
          (wanted_letter isModifier ▸ kinds)
          with ⟨later, after, laterKinds, step⟩
        rw [step, endingOf_letter isModifier]
        exact outside later after laterKinds

/-- There are arguments for every format. -/
theorem exists_arguments (kinds : List Kind) :
    ∃ used : List Argument, used.map kind = kinds := by
  induction kinds with
  | nil => exact ⟨[], rfl⟩
  | cons first kinds hypothesis =>
      rcases hypothesis with ⟨used, same⟩
      cases first with
      | int => exact ⟨.int 0#32 :: used, congrArg (Kind.int :: ·) same⟩
      | string => exact ⟨.string [] :: used, congrArg (Kind.string :: ·) same⟩

end Scanner

/--
`printk` stops at the NUL, with one argument used for each conversion that
takes one, exactly when the format does not end inside a conversion.
-/
theorem printk_readsFormat_iff (format : List Byte)
    (nonzero : ∀ byte ∈ format, byte ≠ 0#8) :
    ReadsFormat format ↔ endsInside false format = false := by
  constructor
  · intro reads
    rcases exists_arguments (wanted false format) with ⟨used, kinds⟩
    have returned := reads used [] bootConsole kinds
    rw [printk, (printkLoop_ending nonzero).1 used bootConsole kinds,
      endingOf] at returned
    split at returned
    · cases returned
    · rename_i outside
      exact Bool.not_eq_true _ ▸ outside
  · intro outside used rest console kinds
    rw [printk, (printkLoop_ending nonzero).1 used console kinds, endingOf,
      outside]
    rfl

/-- A modifier and two arguments. -/
theorem printk_readsFormat_long :
    ReadsFormat [37#8, 108#8, 120#8, 32#8, 37#8, 115#8] :=
  (printk_readsFormat_iff _ (by decide)).mpr rfl

/-- Behind a percent sign the NUL is stepped over, and more is printed. -/
theorem printk_percent_overrun :
    ¬ReadsFormat [37#8] ∧
      printkOutput [37#8, 0#8, 65#8, 0#8] false [] = [65#8] := by
  constructor
  · intro reads
    have returned := reads [] [] bootConsole rfl
    cases returned
  · rfl

end MagicalOs.Console.FormatStrings
