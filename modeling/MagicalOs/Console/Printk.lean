import MagicalOs.Console.Screen
import MagicalOs.Library.CString

/-!
# Formatted output

`printk` scans its format once.  A conversion takes the next argument, and the
number conversions of `stdlib.c` prepare the characters for `put_str`.

The format is given with everything that follows it in memory, since `printk`
steps over the character behind a percent sign without looking for the NUL.
-/

namespace MagicalOs.Console.Printk

open MagicalOs.Library.ByteMemory
open MagicalOs.Library.CString
open MagicalOs.Console.Screen

/-! ## Number conversions -/

/-- `BUF_SIZE` of `stdlib.c`. -/
def bufSize : Nat := 64 + 1

/--
The loop of `itoa` that fills `tmp`; the first argument counts the rounds that
are left until `len` reaches `BUF_SIZE - 2`.
-/
def itoaLoop : Nat → Word → List Byte → List Byte
  | 0, _, tmp => tmp
  | room + 1, n, tmp =>
      let tmp := tmp ++ [(n.srem 10#32).setWidth 8 + 48#8]
      if 0 < (n.sdiv 10#32).toInt then itoaLoop room (n.sdiv 10#32) tmp
      else tmp

/-- The bytes that `itoa` writes to `buf`. -/
def itoa (n : Word) : List Byte :=
  let tmp := itoaLoop (bufSize - 2) (if n.toInt < 0 then -n else n) []
  let tmp := if n.toInt < 0 then tmp ++ [45#8] else tmp
  tmp.reverse ++ [0#8]

/-- The table `hex` of `itox`. -/
def hex : List Byte :=
  [48#8, 49#8, 50#8, 51#8, 52#8, 53#8, 54#8, 55#8, 56#8, 57#8,
    97#8, 98#8, 99#8, 100#8, 101#8, 102#8]

/-- The loop of `itox`, up to `BUF_SIZE - 1` rounds. -/
def itoxLoop : Nat → Word → List Byte → List Byte
  | 0, _, tmp => tmp
  | room + 1, n, tmp =>
      let tmp := tmp ++ [hex.getD (n.toNat % 16) 0#8]
      if 0 < n.toNat / 16 then itoxLoop room (n / 16#32) tmp else tmp

/-- The bytes that `itox` writes to `buf`. -/
def itox (n : Word) : List Byte :=
  (itoxLoop (bufSize - 1) n []).reverse ++ [0#8]

/-! ## Format strings -/

/-- An argument: an `int`, or a pointer to a string. -/
inductive Argument where
  | int (value : Word)
  | string (bytes : List Byte)

/--
How a call ends: it returns with the arguments it has not used, it reads past
the end of the memory behind its format, or it finds no suitable argument.
-/
inductive Ending where
  | returned (arguments : List Argument)
  | overrun
  | noArgument

/-- The conversions that `printk` hands to `itoa`: `d`, `c` and `u`. -/
def isDecimal (conversion : Byte) : Bool :=
  conversion = 100#8 ∨ conversion = 99#8 ∨ conversion = 117#8

/-- The loop of `printk`; a modifier `l` becomes its own percent sign. -/
def printkLoop :
    List Byte → Bool → List Argument → ConsoleState → ConsoleState × Ending
  | [], _, _, console => (console, .overrun)
  | c :: rest, longflag, arguments, console =>
      if c = 0#8 then
        (console, .returned arguments)
      else if c = 37#8 ∨ longflag then
        match rest with
        | [] => (console, .overrun)
        | conversion :: behind =>
            if isDecimal conversion then
              match arguments with
              | .int ival :: arguments =>
                  printkLoop behind false arguments
                    (putStr (text (itoa ival)) console)
              | _ => (console, .noArgument)
            else if conversion = 120#8 then
              match arguments with
              | .int ival :: arguments =>
                  printkLoop behind false arguments
                    (putStr (text (itox ival)) console)
              | _ => (console, .noArgument)
            else if conversion = 115#8 then
              match arguments with
              | .string sval :: arguments =>
                  printkLoop behind false arguments
                    (putStr (text sval) console)
              | _ => (console, .noArgument)
            else if conversion = 108#8 then
              printkLoop (conversion :: behind) true arguments console
            else
              printkLoop behind false arguments console
      else
        printkLoop rest longflag arguments (putChar c console)

def printk (fmt : List Byte) (arguments : List Argument)
    (console : ConsoleState) : ConsoleState × Ending :=
  printkLoop fmt false arguments console

/-- The characters that `printk` sends to `put_char`. -/
def printkOutput : List Byte → Bool → List Argument → List Byte
  | [], _, _ => []
  | c :: rest, longflag, arguments =>
      if c = 0#8 then
        []
      else if c = 37#8 ∨ longflag then
        match rest with
        | [] => []
        | conversion :: behind =>
            if isDecimal conversion then
              match arguments with
              | .int ival :: arguments =>
                  text (itoa ival) ++ printkOutput behind false arguments
              | _ => []
            else if conversion = 120#8 then
              match arguments with
              | .int ival :: arguments =>
                  text (itox ival) ++ printkOutput behind false arguments
              | _ => []
            else if conversion = 115#8 then
              match arguments with
              | .string sval :: arguments =>
                  text sval ++ printkOutput behind false arguments
              | _ => []
            else if conversion = 108#8 then
              printkOutput (conversion :: behind) true arguments
            else
              printkOutput behind false arguments
      else
        c :: printkOutput rest longflag arguments

@[simp]
theorem putStr_nil (console : ConsoleState) : putStr [] console = console :=
  rfl

theorem putStr_cons (c : Byte) (str : List Byte) (console : ConsoleState) :
    putStr (c :: str) console = putStr str (putChar c console) :=
  rfl

theorem putStr_append (first second : List Byte) (console : ConsoleState) :
    putStr (first ++ second) console =
      putStr second (putStr first console) := by
  rw [putStr, List.foldl_append]
  rfl

/-- `printk` prints its output as `put_str` would. -/
theorem printkLoop_eq (fmt : List Byte) (longflag : Bool)
    (arguments : List Argument) (console : ConsoleState) :
    (printkLoop fmt longflag arguments console).1 =
      putStr (printkOutput fmt longflag arguments) console := by
  fun_induction printkLoop fmt longflag arguments console with
  | case1 => rfl
  | case2 =>
      unfold printkOutput
      simp
  | case3 longflag arguments console c nonzero conversion =>
      unfold printkOutput
      simp [nonzero, conversion]
  | case12 longflag arguments console c rest nonzero plain hypothesis =>
      unfold printkOutput
      rw [if_neg nonzero, if_neg plain, putStr_cons, hypothesis]
  | _ =>
      unfold printkOutput
      simp_all [putStr_append]

theorem printk_eq (fmt : List Byte) (arguments : List Argument)
    (console : ConsoleState) :
    (printk fmt arguments console).1 =
      putStr (printkOutput fmt false arguments) console :=
  printkLoop_eq fmt false arguments console

example (console : ConsoleState) :
    printk [37#8, 108#8, 120#8, 0#8] [.int 0x1f#32] console =
      (putStr [49#8, 102#8] console, .returned []) := by
  rfl

end MagicalOs.Console.Printk
