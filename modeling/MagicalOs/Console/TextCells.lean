import MagicalOs.Console.ScreenBounds
import Mathlib.Data.List.Induction

/-!
# The cells of the text screen

The terminal that `put_str` is meant for has cells, each for one character, and
a position in them.  A carriage return and a newline move the position, any
other character takes a cell; behind the last column the text goes on in the
next row.

The video memory has two bytes for a cell.  They hold the character and the
attribute, but for a character that is negative as a `char`: its sign covers
the attribute.
-/

namespace MagicalOs.Console.TextCells

open MagicalOs.Library.ByteMemory
open MagicalOs.Console.Screen
open MagicalOs.Console.ScreenBounds

/-! ## The terminal -/

/--
A place for the cursor.  The column is one that `put_char_pos` can be given:
`dump_hex` may leave the cursor behind the end of a row.
-/
structure Position where
  row : Nat
  column : Nat
  narrowColumn : column < 256

/-- The cells are counted from the top left one, row after row. -/
def Position.cell (position : Position) : Nat :=
  position.row * columns + position.column

def Position.cursor (position : Position) : CursorPosition where
  x := BitVec.ofNat 32 position.column
  y := BitVec.ofNat 32 position.row

def Position.startOf (row : Nat) : Position where
  row := row
  column := 0
  narrowColumn := by decide

theorem narrow_of_lt_last {column : Nat} (last : column < columns - 1) :
    column + 1 < 256 := by
  rw [columns] at last
  omega

/-- The position behind a character. -/
def Position.next (position : Position) : Position :=
  if last : position.column < columns - 1 then
    { row := position.row
      column := position.column + 1
      narrowColumn := narrow_of_lt_last last }
  else
    startOf (position.row + 1)

/-- What has been written since the terminal was taken into use. -/
structure Terminal where
  position : Position
  cells : Nat → Option Byte

/-- Put a character into the cell at the position, and move on. -/
def Terminal.draw (terminal : Terminal) (c : Byte) (position : Position) :
    Terminal where
  position := position
  cells := fun cell =>
    if cell = terminal.position.cell then some c else terminal.cells cell

def Terminal.type (terminal : Terminal) (c : Byte) : Terminal :=
  if c = carriageReturn then
    { terminal with position := .startOf terminal.position.row }
  else if c = newline then
    { terminal with position := .startOf (terminal.position.row + 1) }
  else
    terminal.draw c terminal.position.next

/-- The terminal after a string has been written from a position. -/
def typed (start : Position) (str : List Byte) : Terminal :=
  str.foldl Terminal.type { position := start, cells := fun _ => none }

/-! ## The video memory -/

/-- The number of cells from `SCREEN_START` to the end of the video memory. -/
def videoCells : Nat := 0x4000

/-- The address of a cell. -/
def addressOf (cell : Nat) : Nat :=
  screenStart + cell * 2

/-- Every character has a cell in the video memory. -/
def StaysInside (start : Position) (str : List Byte) : Prop :=
  ∀ cell, (typed start str).cells cell ≠ none → cell < videoCells

/-- The character in the low half of a cell, the attribute in the high half. -/
def attributed (c : Byte) : Half :=
  attr.setWidth 8 ++ c

/--
The cells of the terminal are in the video memory, with a value for each
character.  The rest of the memory is unchanged, and the cursor is in place.
-/
structure Shows (value : Byte → Half) (terminal : Terminal)
    (before after : Memory) (cursor : CursorPosition) : Prop where
  written : ∀ cell c, terminal.cells cell = some c →
    after.load16 (addressOf cell) = value c
  unchanged : ∀ address,
    (∀ cell, terminal.cells cell ≠ none →
      address ≠ addressOf cell ∧ address ≠ addressOf cell + 1) →
    after address = before address
  cursor : cursor = terminal.position.cursor

section Memory

variable {display : Display} {console : ConsoleState} {memory : Memory}

@[simp]
theorem memory_outbP (value : Byte) (port : Half) :
    (shown display (outbP value port console)).memory =
      (shown display console).memory := by
  rw [shown_outbP, Display.apply]
  split
  · rfl
  · split
    · rfl
    · rfl

@[simp]
theorem memory_updateCursor :
    (shown display (updateCursor console)).memory =
      (shown display console).memory := by
  rw [updateCursor]
  split
  · simp only [outAddress, memory_outbP]
  · simp only [outAddress, memory_outbP]

theorem memory_putCharPos (display : Display) (console : ConsoleState)
    (c x y : Byte) :
    (shown display (putCharPos c x y console)).memory =
      (shown display console).memory.store16 (cellAddress x y)
        (cellValue c) := by
  rw [shown_putCharPos]
  rfl

/-- The cells do not overlap. -/
theorem load16_store16_cell (cell other : Nat) (value : Half) :
    (memory.store16 (addressOf cell) value).load16 (addressOf other) =
      if other = cell then value else memory.load16 (addressOf other) := by
  by_cases same : other = cell
  · rw [if_pos same, same, Memory.load16_store16_self]
  · rw [if_neg same]
    apply Memory.AgreeOn.load16
    apply (Memory.store16_agreeOutside memory (addressOf cell) value).agreeOn
    rw [addressOf, addressOf]
    omega

/-- The low byte of a cell is its first. -/
theorem load8_cell (memory : Memory) (address : Nat) :
    memory address = (memory.load16 address).setWidth 8 := by
  apply BitVec.eq_of_getLsbD_eq
  intro index inByte
  rw [Memory.load16, BitVec.getLsbD_setWidth, BitVec.getLsbD_append,
    if_pos inByte]
  simp [inByte]

end Memory

/-! ## Characters at the cursor -/

section Positions

variable {position : Position}

/-- `put_char_pos` finds the cell, since its row is not too large for a byte. -/
theorem cellAddress_position (inside : position.cell < videoCells) :
    cellAddress (narrow position.cursor.x) (narrow position.cursor.y) =
      addressOf position.cell := by
  have narrowRow : position.row < 256 := by
    rw [Position.cell, columns, videoCells] at inside
    omega
  have column : (narrow position.cursor.x).toNat = position.column := by
    rw [narrow, Position.cursor, BitVec.toNat_setWidth, BitVec.toNat_ofNat]
    have narrowColumn := position.narrowColumn
    omega
  have row : (narrow position.cursor.y).toNat = position.row := by
    rw [narrow, Position.cursor, BitVec.toNat_setWidth, BitVec.toNat_ofNat]
    omega
  rw [cellAddress, column, row]
  rfl

theorem advance_cursor : advance position.cursor = position.next.cursor := by
  have narrowColumn := position.narrowColumn
  have last : position.cursor.x < BitVec.ofNat 32 columns - 1#32 ↔
      position.column < columns - 1 := by
    rw [BitVec.lt_def, Position.cursor, BitVec.toNat_ofNat,
      Nat.mod_eq_of_lt (Nat.lt_trans narrowColumn (by decide))]
    rfl
  rw [advance, Position.next]
  by_cases inRow : position.column < columns - 1
  · rw [if_pos (last.mpr inRow), dif_pos inRow]
    simp only [Position.cursor, BitVec.ofNat_add]
  · rw [if_neg (fun small => inRow (last.mp small)), dif_neg inRow]
    simp only [Position.cursor, Position.startOf, BitVec.ofNat_add]

end Positions

/-! ## One character, and a string -/

section Text

variable {display : Display} {console : ConsoleState} {terminal : Terminal}
  {before : Memory} {start position : Position} {str : List Byte} {c : Byte}
  {cell : Nat}

theorem draw_cells_self :
    (terminal.draw c position).cells terminal.position.cell = some c :=
  if_pos rfl

theorem draw_cells_other (other : cell ≠ terminal.position.cell) :
    (terminal.draw c position).cells cell = terminal.cells cell :=
  if_neg other

theorem draw_ne_none (taken : terminal.cells cell ≠ none) :
    (terminal.draw c position).cells cell ≠ none := by
  rw [Terminal.draw]
  dsimp only
  split
  · exact Option.some_ne_none c
  · exact taken

theorem type_of_other (notReturn : c ≠ carriageReturn)
    (notNewline : c ≠ newline) :
    terminal.type c = terminal.draw c terminal.position.next := by
  rw [Terminal.type, if_neg notReturn, if_neg notNewline]

/-- A cell that has been taken stays so. -/
theorem type_ne_none (taken : terminal.cells cell ≠ none) :
    (terminal.type c).cells cell ≠ none := by
  rw [Terminal.type]
  split
  · exact taken
  · split
    · exact taken
    · exact draw_ne_none taken

theorem typed_snoc :
    typed start (str ++ [c]) = (typed start str).type c := by
  rw [typed, List.foldl_append]
  rfl

/-- A string that stays inside does so from its beginning. -/
theorem StaysInside.of_snoc (inside : StaysInside start (str ++ [c])) :
    StaysInside start str := by
  intro cell taken
  apply inside cell
  rw [typed_snoc]
  exact type_ne_none taken

theorem StaysInside.cell_lt (inside : StaysInside start (str ++ [c]))
    (notReturn : c ≠ carriageReturn) (notNewline : c ≠ newline) :
    (typed start str).position.cell < videoCells := by
  apply inside
  rw [typed_snoc, type_of_other notReturn notNewline, draw_cells_self]
  exact Option.some_ne_none c

/-- A store to the cell at the position draws a character. -/
theorem Shows.draw {value : Byte → Half} {after : Memory}
    {cursor : CursorPosition} (position : Position)
    (shows : Shows value terminal before after cursor) :
    Shows value (terminal.draw c position) before
      (after.store16 (addressOf terminal.position.cell) (value c))
      position.cursor := by
  constructor
  · intro cell d written
    rw [load16_store16_cell]
    by_cases here : cell = terminal.position.cell
    · rw [if_pos here]
      rw [here, draw_cells_self, Option.some.injEq] at written
      rw [written]
    · rw [if_neg here]
      rw [draw_cells_other here] at written
      exact shows.written cell d written
  · intro address outside
    have apart := outside terminal.position.cell (by
      rw [draw_cells_self]
      exact Option.some_ne_none c)
    rw [Memory.store16_agreeOutside _ _ _ address (by omega)]
    apply shows.unchanged
    intro cell taken
    exact outside cell (draw_ne_none taken)
  · rfl

theorem shows_putChar
    (shows : Shows cellValue terminal before (shown display console).memory
      console.cursorPos)
    (inside : c ≠ carriageReturn → c ≠ newline →
      terminal.position.cell < videoCells) :
    Shows cellValue (terminal.type c) before
      (shown display (putChar c console)).memory
      (putChar c console).cursorPos := by
  rw [putChar, memory_updateCursor, updateCursor_cursorPos, shows.cursor]
  by_cases isReturn : c = carriageReturn
  · rw [if_pos isReturn, Terminal.type, if_pos isReturn]
    exact ⟨shows.written, shows.unchanged, rfl⟩
  by_cases isNewline : c = newline
  · rw [if_neg isReturn, if_pos isNewline, Terminal.type, if_neg isReturn,
      if_pos isNewline]
    constructor
    · exact shows.written
    · exact shows.unchanged
    · simp only [Position.cursor, Position.startOf, BitVec.ofNat_add]
  · have stored := memory_putCharPos display console c
      (narrow terminal.position.cursor.x) (narrow terminal.position.cursor.y)
    rw [cellAddress_position (inside isReturn isNewline)] at stored
    rw [if_neg isReturn, if_neg isNewline, type_of_other isReturn isNewline,
      advance_cursor]
    change Shows _ _ _ (shown display (putCharPos _ _ _ _)).memory _
    rw [stored]
    exact shows.draw terminal.position.next

/-- What `put_str` leaves in the video memory. -/
theorem shows_putStr (display : Display)
    (here : console.cursorPos = start.cursor)
    (inside : StaysInside start str) :
    Shows cellValue (typed start str) (shown display console).memory
      (shown display (putStr str console)).memory
      (putStr str console).cursorPos := by
  induction str using List.reverseRecOn with
  | nil =>
      constructor
      · intro cell c written
        cases written
      · intro address outside
        rfl
      · exact here
  | append_singleton str c hypothesis =>
      have shows := hypothesis inside.of_snoc
      rw [typed_snoc, putStr, List.foldl_append]
      exact shows_putChar shows inside.cell_lt

end Text

/-! ## The attribute -/

/-- A character below `0x80` leaves the attribute as it is. -/
theorem cellValue_eq_iff (c : Byte) :
    cellValue c = attributed c ↔ c.toNat < 0x80 := by
  revert c
  decide +kernel

/--
`put_str` shows its string as the terminal does, when every character that is
still there at the end is below `0x80`.
-/
theorem putStr_shows_iff (display : Display) (console : ConsoleState)
    (start : Position) (str : List Byte)
    (here : console.cursorPos = start.cursor)
    (inside : StaysInside start str) :
    Shows attributed (typed start str) (shown display console).memory
        (shown display (putStr str console)).memory
        (putStr str console).cursorPos ↔
      ∀ cell c, (typed start str).cells cell = some c → c.toNat < 0x80 := by
  have shows := shows_putStr display here inside
  constructor
  · intro wanted cell c written
    rw [← cellValue_eq_iff, ← shows.written cell c written]
    exact wanted.written cell c written
  · intro small
    refine ⟨?_, shows.unchanged, shows.cursor⟩
    intro cell c written
    rw [shows.written cell c written, cellValue_eq_iff]
    exact small cell c written

/-- The last column of the first row. -/
def lastColumn : Position where
  row := 0
  column := 79
  narrowColumn := by decide

def lastColumnConsole : ConsoleState where
  cursorPos := lastColumn.cursor
  accesses := []

theorem staysInside_pair (first second : Byte)
    (firstDrawn : first ≠ carriageReturn ∧ first ≠ newline)
    (secondDrawn : second ≠ carriageReturn ∧ second ≠ newline) :
    StaysInside lastColumn [first, second] := by
  intro cell taken
  rw [typed, List.foldl_cons, List.foldl_cons, List.foldl_nil,
    type_of_other firstDrawn.1 firstDrawn.2,
    type_of_other secondDrawn.1 secondDrawn.2] at taken
  by_contra outside
  rw [Nat.not_lt, videoCells] at outside
  apply taken
  rw [draw_cells_other, draw_cells_other]
  · change cell ≠ 79
    omega
  · change cell ≠ 80
    omega

/-- Two characters, the second of them in the next row. -/
theorem putStr_shows_wrapped :
    Shows attributed (typed lastColumn [97#8, 98#8])
      (shown blankDisplay lastColumnConsole).memory
      (shown blankDisplay (putStr [97#8, 98#8] lastColumnConsole)).memory
      (putStr [97#8, 98#8] lastColumnConsole).cursorPos := by
  apply (putStr_shows_iff blankDisplay lastColumnConsole lastColumn
    [97#8, 98#8] rfl (staysInside_pair _ _ (by decide) (by decide))).mpr
  intro cell c written
  have drawn : c = 97#8 ∨ c = 98#8 := by
    change (if cell = 80 then some 98#8 else
      if cell = 79 then some 97#8 else none) = some c at written
    split at written
    · exact .inr (Option.some.inj written).symm
    · split at written
      · exact .inl (Option.some.inj written).symm
      · cases written
  rcases drawn with rfl | rfl
  · decide
  · decide

/-- The sign of the character covers the attribute. -/
theorem putStr_covers_attribute :
    StaysInside lastColumn [0xe9#8, 98#8] ∧
      ¬Shows attributed (typed lastColumn [0xe9#8, 98#8])
        (shown blankDisplay lastColumnConsole).memory
        (shown blankDisplay (putStr [0xe9#8, 98#8] lastColumnConsole)).memory
        (putStr [0xe9#8, 98#8] lastColumnConsole).cursorPos := by
  constructor
  · exact staysInside_pair _ _ (by decide) (by decide)
  · intro shows
    have cell := shows.written 79 0xe9#8 rfl
    revert cell
    decide

end MagicalOs.Console.TextCells
