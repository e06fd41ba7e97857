import MagicalOs.Library.ByteMemory

/-!
# The text screen

`console_io.c` keeps the cursor in two unbounded counters.  It scrolls by
moving the start address of the CRT controller, and narrows the coordinates to
bytes when it stores a character.

The console reaches the outside only through stores to the video memory and
through ports, so an operation is described by the new cursor and by what it
adds to the list of accesses.  What the display holds is a fold over this list.
-/

namespace MagicalOs.Console.Screen

open MagicalOs.Library.ByteMemory

/-! ## The functions of the console -/

/-- `struct cursor_position`. -/
structure CursorPosition where
  x : Word
  y : Word

/-- A store to the video memory, or an `outb_p`. -/
inductive Access where
  | store (address : Nat) (value : Half)
  | out (value : Byte) (port : Half)
  deriving DecidableEq

/-- The cursor, and the accesses of the console so far, oldest first. -/
structure ConsoleState where
  cursorPos : CursorPosition
  accesses : List Access

def screenStart : Nat := 0xb8000
def columns : Nat := 80
def rows : Nat := 25
def attr : Half := 0x07#16

def outbP (value : Byte) (port : Half) (console : ConsoleState) : ConsoleState :=
  { console with accesses := console.accesses ++ [.out value port] }

/-- `cursor_address_msb` and `start_address_msb`. -/
def msb (address : Word) : Byte :=
  (address >>> 8).setWidth 8

def lsb (address : Word) : Byte :=
  address.setWidth 8

/-- Write the two bytes of an address to a pair of CRTC registers. -/
def outAddress (high low : Byte) (address : Word) (console : ConsoleState) :
    ConsoleState :=
  outbP (lsb address) 0x3d5#16
    (outbP low 0x3d4#16
      (outbP (msb address) 0x3d5#16
        (outbP high 0x3d4#16 console)))

/-- `cursor_address` in `update_cursor`. -/
def cursorAddress (cursor : CursorPosition) : Word :=
  cursor.y * 80#32 + cursor.x

/-- `start_address` in `update_cursor`. -/
def scrollAddress (cursor : CursorPosition) : Word :=
  (cursor.y - BitVec.ofNat 32 rows + 1#32) * 80#32

def updateCursor (console : ConsoleState) : ConsoleState :=
  let moved :=
    outAddress 0x0e#8 0x0f#8 (cursorAddress console.cursorPos) console
  if BitVec.ofNat 32 rows ≤ console.cursorPos.y then
    outAddress 0x0c#8 0x0d#8 (scrollAddress console.cursorPos) moved
  else
    moved

/-- `pos` in `put_char_pos`, whose arguments are bytes. -/
def cellAddress (x y : Byte) : Nat :=
  screenStart + (y.toNat * columns + x.toNat) * 2

/-- The `char` is sign extended before `ATTR` is put in. -/
def cellValue (c : Byte) : Half :=
  attr <<< 8 ||| c.signExtend 16

def putCharPos (c x y : Byte) (console : ConsoleState) : ConsoleState :=
  { console with
    accesses := console.accesses ++ [.store (cellAddress x y) (cellValue c)] }

/-- An `unsigned int` coordinate as an argument of `put_char_pos`. -/
def narrow (coordinate : Word) : Byte :=
  coordinate.setWidth 8

def carriageReturn : Byte := 13#8
def newline : Byte := 10#8

/-- `cursor_pos` after the default branch of `put_char`. -/
def advance (cursor : CursorPosition) : CursorPosition :=
  if cursor.x < BitVec.ofNat 32 columns - 1#32 then
    { cursor with x := cursor.x + 1#32 }
  else
    { x := 0#32, y := cursor.y + 1#32 }

def putChar (c : Byte) (console : ConsoleState) : ConsoleState :=
  let cursor := console.cursorPos
  updateCursor
    (if c = carriageReturn then
      { console with cursorPos := { cursor with x := 0#32 } }
    else if c = newline then
      { console with cursorPos := { x := 0#32, y := cursor.y + 1#32 } }
    else
      { putCharPos c (narrow cursor.x) (narrow cursor.y) console with
        cursorPos := advance cursor })

/-- `put_str`: the bytes of the string in front of its NUL. -/
def putStr (str : List Byte) (console : ConsoleState) : ConsoleState :=
  str.foldl (fun console c => putChar c console) console

/-- `put_str_pos`, which keeps its coordinates in two bytes. -/
def putStrPos : List Byte → Byte → Byte → ConsoleState → ConsoleState
  | [], _, _, console => console
  | c :: str, x, y, console =>
      if c = carriageReturn then
        putStrPos str 0#8 y console
      else if c = newline then
        putStrPos str x (y + 1#8) console
      else if x.toNat < columns - 1 then
        putStrPos str (x + 1#8) y (putCharPos c x y console)
      else
        putStrPos str 0#8 (y + 1#8) (putCharPos c x y console)

/-- The character for a digit of `dump_hex`. -/
def hexDigit (value : Byte) : Byte :=
  if value < 10#8 then 48#8 + value else 65#8 + value - 10#8

/-- The loop of `dump_hex`, from the last digit to the first. -/
def dumpDigits : Nat → Word → Word → ConsoleState → ConsoleState
  | 0, _, _, console => console
  | numDigits + 1, val, dumpDigit, console =>
      dumpDigits numDigits (val >>> 4) (dumpDigit - 1#32)
        (putCharPos (hexDigit ((val &&& 0x0f#32).setWidth 8))
          (narrow dumpDigit) (narrow console.cursorPos.y) console)

def dumpHex (val numDigits : Word) (console : ConsoleState) : ConsoleState :=
  let newX := console.cursorPos.x + numDigits
  let dumped := dumpDigits numDigits.toNat val (newX - 1#32) console
  updateCursor
    { dumped with cursorPos := { dumped.cursorPos with x := newX } }

/-- The loop of `dump_hex_pos`. -/
def dumpDigitsPos :
    Nat → Word → Word → Byte → ConsoleState → ConsoleState
  | 0, _, _, _, console => console
  | numDigits + 1, val, dumpDigit, y, console =>
      dumpDigitsPos numDigits (val >>> 4) (dumpDigit - 1#32) y
        (putCharPos (hexDigit ((val &&& 0x0f#32).setWidth 8))
          (narrow dumpDigit) y console)

def dumpHexPos (val numDigits : Word) (x y : Byte) (console : ConsoleState) :
    ConsoleState :=
  let newX := x.setWidth 32 + numDigits
  dumpDigitsPos numDigits.toNat val (newX - 1#32) y console

/-! ## The display -/

/-- The video memory and the CRT controller with its index register. -/
structure Display where
  memory : Memory
  index : Byte
  registers : Byte → Byte

/-- Ports 0x3d4 and 0x3d5 are the index and the data of the controller. -/
def Display.apply (display : Display) : Access → Display
  | .store address value =>
      { display with memory := display.memory.store16 address value }
  | .out value port =>
      if port = 0x3d4#16 then
        { display with index := value }
      else if port = 0x3d5#16 then
        { display with
          registers := fun register =>
            if register = display.index then value
            else display.registers register }
      else
        display

/-- The display after a list of accesses. -/
def Display.after (display : Display) (accesses : List Access) : Display :=
  accesses.foldl Display.apply display

/-- The cell at which the controller starts to show the video memory. -/
def Display.startAddress (display : Display) : Nat :=
  (display.registers 0x0c#8 ++ display.registers 0x0d#8).toNat

/-! ## How the operations move the cursor -/

section Cursor

variable {console : ConsoleState}

@[simp]
theorem outbP_cursorPos (value : Byte) (port : Half) :
    (outbP value port console).cursorPos = console.cursorPos :=
  rfl

@[simp]
theorem putCharPos_cursorPos (c x y : Byte) :
    (putCharPos c x y console).cursorPos = console.cursorPos :=
  rfl

@[simp]
theorem updateCursor_cursorPos :
    (updateCursor console).cursorPos = console.cursorPos := by
  rw [updateCursor]
  split
  · rfl
  · rfl

@[simp]
theorem dumpDigits_cursorPos (count : Nat) (val dumpDigit : Word) :
    (dumpDigits count val dumpDigit console).cursorPos =
      console.cursorPos := by
  induction count generalizing val dumpDigit console with
  | zero => rfl
  | succ count hypothesis =>
      rw [dumpDigits, hypothesis, putCharPos_cursorPos]

/-- The two loops differ only in where they find the row. -/
theorem dumpDigits_eq (count : Nat) (val dumpDigit : Word) :
    dumpDigits count val dumpDigit console =
      dumpDigitsPos count val dumpDigit (narrow console.cursorPos.y)
        console := by
  induction count generalizing val dumpDigit console with
  | zero => rfl
  | succ count hypothesis =>
      rw [dumpDigits, hypothesis, putCharPos_cursorPos, dumpDigitsPos]

end Cursor

/-! ## What the accesses do to the display -/

section Display

variable {display : Display} {console : ConsoleState}

/-- The display as the console has left it. -/
def shown (display : Display) (console : ConsoleState) : Display :=
  display.after console.accesses

theorem shown_putCharPos (c x y : Byte) :
    shown display (putCharPos c x y console) =
      (shown display console).apply
        (.store (cellAddress x y) (cellValue c)) := by
  rw [shown, putCharPos, Display.after, List.foldl_append]
  rfl

theorem shown_outbP (value : Byte) (port : Half) :
    shown display (outbP value port console) =
      (shown display console).apply (.out value port) := by
  rw [shown, outbP, Display.after, List.foldl_append]
  rfl

/-- The pair of registers takes the address, the others are unchanged. -/
theorem registers_outAddress (high low : Byte) (address : Word)
    (register : Byte) :
    (shown display (outAddress high low address console)).registers register =
      if register = low then lsb address
      else if register = high then msb address
      else (shown display console).registers register := by
  simp only [outAddress, shown_outbP, Display.apply, reduceIte,
    BitVec.reduceEq]

/-- The two registers hold the low half of the address. -/
theorem msb_append_lsb (address : Word) :
    (msb address ++ lsb address).toNat = address.toNat % 65536 := by
  have high : (msb address).toNat = address.toNat / 256 % 256 := by
    rw [msb, BitVec.toNat_setWidth, BitVec.toNat_ushiftRight,
      Nat.shiftRight_eq_div_pow]
  have low : (lsb address).toNat = address.toNat % 256 := by
    rw [lsb, BitVec.toNat_setWidth]
  have small : address.toNat % 256 < 2 ^ 8 :=
    Nat.mod_lt _ (by decide)
  rw [BitVec.toNat_append, high, low, ← Nat.shiftLeft_add_eq_or_of_lt small,
    Nat.shiftLeft_eq]
  omega

/-- Moving the cursor does not scroll. -/
theorem startAddress_cursor (address : Word) :
    (shown display (outAddress 0x0e#8 0x0f#8 address console)).startAddress =
      (shown display console).startAddress := by
  rw [Display.startAddress, registers_outAddress, registers_outAddress]
  rfl

theorem startAddress_scroll (address : Word) :
    (shown display (outAddress 0x0c#8 0x0d#8 address console)).startAddress =
      address.toNat % 65536 := by
  rw [Display.startAddress, registers_outAddress, registers_outAddress]
  exact msb_append_lsb address

/-- What `update_cursor` leaves in the start address registers. -/
theorem startAddress_updateCursor :
    (shown display (updateCursor console)).startAddress =
      if BitVec.ofNat 32 rows ≤ console.cursorPos.y then
        (scrollAddress console.cursorPos).toNat % 65536
      else
        (shown display console).startAddress := by
  rw [updateCursor]
  split
  · rw [startAddress_scroll]
  · rw [startAddress_cursor]

end Display

end MagicalOs.Console.Screen
