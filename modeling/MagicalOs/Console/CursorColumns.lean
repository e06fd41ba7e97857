import MagicalOs.Console.LineEditing
import MagicalOs.Console.ScreenBounds

/-!
# The column of the cursor

`put_char` wraps the column at the end of a row.  `dump_hex` adds the number of
its digits to the column, and a backspace in `get_line` takes one from it;
neither looks at where the row ends.

The characters of a line are followed with the cells in which they were echoed,
so that the cell that a backspace blanks can be compared with the cell of the
character that it deletes.
-/

namespace MagicalOs.Console.CursorColumns

open MagicalOs.Library.ByteMemory
open MagicalOs.Library.CString
open MagicalOs.Library.EditedLine
open MagicalOs.Console.Screen
open MagicalOs.Console.LineInput
open MagicalOs.Console.LineEditing

/-! ## The cell that was stored to last -/

/-- The cell of the last store to the video memory. -/
def lastCell (console : ConsoleState) : Option Nat :=
  console.accesses.foldl
    (fun cell access =>
      match access with
      | .store address _ => some address
      | .out _ _ => cell)
    none

/-- The cell at which the cursor stands. -/
def cellAt (cursor : CursorPosition) : Nat :=
  cellAddress (narrow cursor.x) (narrow cursor.y)

section LastCell

variable {console : ConsoleState} {c : Byte}

@[simp]
theorem lastCell_outbP (value : Byte) (port : Half) :
    lastCell (outbP value port console) = lastCell console := by
  simp [lastCell, outbP]

@[simp]
theorem lastCell_putCharPos (x y : Byte) :
    lastCell (putCharPos c x y console) = some (cellAddress x y) := by
  simp [lastCell, putCharPos]

@[simp]
theorem lastCell_updateCursor :
    lastCell (updateCursor console) = lastCell console := by
  rw [updateCursor]
  split
  · simp [outAddress]
  · simp [outAddress]

/-- `put_char` with a character that has a cell of its own. -/
theorem putChar_other (console : ConsoleState)
    (notReturn : c ≠ carriageReturn) (notNewline : c ≠ newline) :
    lastCell (putChar c console) = some (cellAt console.cursorPos) ∧
      (putChar c console).cursorPos = advance console.cursorPos := by
  rw [putChar, if_neg notReturn, if_neg notNewline, lastCell_updateCursor,
    updateCursor_cursorPos]
  constructor
  · exact lastCell_putCharPos _ _
  · rfl

theorem lastCell_eraseChar :
    lastCell (eraseChar console) =
      some (cellAt
        { console.cursorPos with x := console.cursorPos.x - 1#32 }) := by
  rw [eraseChar, lastCell_putCharPos, updateCursor_cursorPos]
  rfl

theorem eraseChar_cursorPos :
    (eraseChar console).cursorPos =
      { console.cursorPos with x := console.cursorPos.x - 1#32 } := by
  rw [eraseChar, putCharPos_cursorPos, updateCursor_cursorPos]

end LastCell

/-! ## The characters of a line on the screen -/

/-- The console, and the cells of the characters in the line, last one first. -/
structure Echo where
  console : ConsoleState
  cells : List (Option Nat)

/-- What `get_line` does on the screen for a key in the line. -/
def press (echo : Echo) (c : Byte) : Echo :=
  if c = asciiBs then
    match echo.cells with
    | [] => echo
    | _ :: cells => { console := eraseChar echo.console, cells }
  else
    { console := putChar c echo.console
      cells := lastCell (putChar c echo.console) :: echo.cells }

def echoed (console : ConsoleState) (typed : List Byte) : Echo :=
  typed.foldl press { console, cells := [] }

/-- The loop of `get_line` is over. -/
def Closed (bufSize : Word) (length : Nat) : Prop :=
  (bufSize - 1#32).toNat ≤ length

/-- The keys are typed before the line is over. -/
abbrev Typed (bufSize : Word) (typed : List Byte) : Prop :=
  Open asciiBs newline (Closed bufSize) 0 typed

/--
Each backspace that deletes a character of the line blanks the cell in which
this character was echoed.
-/
def BlanksEchoed (bufSize : Word) (codes : List Byte)
    (console : ConsoleState) : Prop :=
  ∀ typed rest, pressed codes = typed ++ asciiBs :: rest →
    Typed bufSize (typed ++ [asciiBs]) →
      ∀ cell cells, (echoed console typed).cells = cell :: cells →
        lastCell (press (echoed console typed) asciiBs).console = cell

/-- No backspace deletes a character while the cursor is in column 0. -/
def DeletesInRow (bufSize : Word) (codes : List Byte)
    (cursor : CursorPosition) : Prop :=
  ∀ typed rest, pressed codes = typed ++ asciiBs :: rest →
    Typed bufSize (typed ++ [asciiBs]) → 0 < depth asciiBs 0 typed →
      (cursor.x.toNat + depth asciiBs 0 typed) % columns ≠ 0

/-! ## The cursor behind the characters of the line -/

/-- The cursor after a number of characters. -/
def position (cursor : CursorPosition) (length : Nat) : CursorPosition where
  x := BitVec.ofNat 32 ((cursor.x.toNat + length) % columns)
  y := cursor.y + BitVec.ofNat 32 ((cursor.x.toNat + length) / columns)

/-- The line has this length, and its characters are where they were echoed. -/
structure Placed (start : CursorPosition) (echo : Echo) (length : Nat) :
    Prop where
  cursorPos : echo.console.cursorPos = position start length
  cells : echo.cells =
    (List.range length).reverse.map fun index =>
      some (cellAt (position start index))

section Position

variable {start : CursorPosition} {echo : Echo} {length : Nat} {c : Byte}

theorem position_zero (inRow : start.x.toNat < columns) :
    position start 0 = start := by
  rw [position, Nat.add_zero, Nat.mod_eq_of_lt inRow, Nat.div_eq_of_lt inRow,
    BitVec.ofNat_toNat, BitVec.setWidth_eq]
  simp

theorem position_x_toNat :
    (position start length).x.toNat =
      (start.x.toNat + length) % columns := by
  have small : (start.x.toNat + length) % columns < columns :=
    Nat.mod_lt _ (by decide)
  change (BitVec.ofNat 32 _).toNat = _
  rw [BitVec.toNat_ofNat]
  exact Nat.mod_eq_of_lt (small.trans (by decide))

/-- Within a row the column counts the characters. -/
theorem column_succ {count : Nat} (inRow : (count + 1) % columns ≠ 0) :
    (count + 1) % columns = count % columns + 1 ∧
      (count + 1) / columns = count / columns := by
  unfold columns at *
  omega

/-- Behind the last column the next row begins. -/
theorem column_wrap {count : Nat} (atStart : (count + 1) % columns = 0) :
    count % columns = 79 ∧ (count + 1) / columns = count / columns + 1 := by
  unfold columns at *
  omega

theorem lastColumn_iff (count : Nat) :
    count % columns < 79 ↔ (count + 1) % columns ≠ 0 := by
  unfold columns
  omega

/-- A character moves the cursor to the next position. -/
theorem advance_position :
    advance (position start length) = position start (length + 1) := by
  have test : (position start length).x < BitVec.ofNat 32 columns - 1#32 ↔
      (start.x.toNat + length + 1) % columns ≠ 0 := by
    rw [BitVec.lt_def, position_x_toNat, ← lastColumn_iff]
    rfl
  rw [advance]
  split
  · rename_i inRow
    rcases column_succ (test.mp inRow) with ⟨column, row⟩
    rw [position, position, ← Nat.add_assoc, column, row, BitVec.ofNat_add]
  · rename_i atEnd
    rcases column_wrap (not_not.mp (mt test.mpr atEnd)) with ⟨-, row⟩
    rw [position, position, ← Nat.add_assoc, row,
      not_not.mp (mt test.mpr atEnd), BitVec.ofNat_add, ← BitVec.add_assoc]

/-- A backspace within a row moves the cursor to the position before. -/
theorem position_pred
    (inRow : (start.x.toNat + (length + 1)) % columns ≠ 0) :
    { position start (length + 1) with
        x := (position start (length + 1)).x - 1#32 } =
      position start length := by
  rw [← Nat.add_assoc] at inRow
  rcases column_succ inRow with ⟨column, row⟩
  rw [position, position, ← Nat.add_assoc, column, row, BitVec.ofNat_add,
    BitVec.add_sub_cancel]

/-- A backspace in column 0 leaves the row, and blanks another cell. -/
theorem cellAt_wrapped
    (atStart : (start.x.toNat + (length + 1)) % columns = 0) :
    cellAt
        { position start (length + 1) with
          x := (position start (length + 1)).x - 1#32 } ≠
      cellAt (position start length) := by
  rw [← Nat.add_assoc] at atStart
  rcases column_wrap atStart with ⟨column, row⟩
  intro same
  simp only [cellAt, position, ← Nat.add_assoc, atStart, column, row,
    cellAddress, narrow, screenStart, BitVec.ofNat_add,
    ← BitVec.add_assoc] at same
  generalize start.y + BitVec.ofNat 32 _ = y at same
  simp only [BitVec.toNat_setWidth, BitVec.toNat_add, BitVec.toNat_sub,
    BitVec.toNat_ofNat, columns] at same
  omega

end Position

/-! ## What a key does to the characters on the screen -/

section Press

variable {start : CursorPosition} {echo : Echo} {length : Nat} {c : Byte}
  {console : ConsoleState} {typed : List Byte}

theorem press_length :
    (press echo c).cells.length = count asciiBs echo.cells.length c := by
  by_cases erases : c = asciiBs
  · rw [press, count, if_pos erases, if_pos erases]
    rcases echo with ⟨console, _ | ⟨cell, cells⟩⟩
    · rfl
    · rfl
  · rw [press, count, if_neg erases, if_neg erases]
    rfl

theorem foldl_press_length :
    (typed.foldl press echo).cells.length =
      depth asciiBs echo.cells.length typed := by
  induction typed generalizing echo with
  | nil => rfl
  | cons c typed hypothesis =>
      rw [List.foldl_cons, hypothesis, press_length]
      rfl

theorem echoed_snoc :
    echoed console (typed ++ [c]) = press (echoed console typed) c := by
  simp [echoed]

theorem Placed.cons (placed : Placed start echo (length + 1)) :
    echo.cells =
      some (cellAt (position start length)) ::
        (List.range length).reverse.map fun index =>
          some (cellAt (position start index)) := by
  rw [placed.cells, List.range_succ, List.reverse_append]
  rfl

theorem Placed.char (placed : Placed start echo length)
    (other : c ≠ asciiBs) (notReturn : c ≠ carriageReturn)
    (notNewline : c ≠ newline) :
    Placed start (press echo c) (length + 1) := by
  rcases putChar_other echo.console notReturn notNewline with ⟨cell, cursor⟩
  rw [press, if_neg other]
  constructor
  · rw [cursor, placed.cursorPos, advance_position]
  · change lastCell _ :: echo.cells = _
    rw [cell, placed.cursorPos, placed.cells, List.range_succ,
      List.reverse_append]
    rfl

theorem Placed.erase_nil (placed : Placed start echo 0) :
    press echo asciiBs = echo := by
  rw [press, if_pos rfl, placed.cells]
  rfl

theorem Placed.erase_cons (placed : Placed start echo (length + 1)) :
    (press echo asciiBs).console = eraseChar echo.console := by
  rw [press, if_pos rfl, placed.cons]

theorem Placed.erase (placed : Placed start echo (length + 1))
    (inRow : (start.x.toNat + (length + 1)) % columns ≠ 0) :
    Placed start (press echo asciiBs) length := by
  constructor
  · rw [placed.erase_cons, eraseChar_cursorPos, placed.cursorPos,
      position_pred inRow]
  · rw [press, if_pos rfl, placed.cons]

/-- A backspace blanks the cell of its character unless it leaves the row. -/
theorem Placed.blanks_iff (placed : Placed start echo length) :
    (∀ cell cells, echo.cells = cell :: cells →
        lastCell (press echo asciiBs).console = cell) ↔
      (0 < length → (start.x.toNat + length) % columns ≠ 0) := by
  cases length with
  | zero =>
      have none : echo.cells = [] := placed.cells
      simp [none]
  | succ length =>
      rw [placed.erase_cons, lastCell_eraseChar, placed.cursorPos,
        placed.cons]
      constructor
      · intro blanks _ atStart
        have same := blanks _ _ rfl
        rw [Option.some.injEq] at same
        exact cellAt_wrapped atStart same
      · intro inRow cell cells equal
        cases equal
        rw [position_pred (inRow (Nat.succ_pos _))]

/-- The characters stay where they were echoed as long as rows are kept. -/
theorem placed_echoed {bufSize : Word}
    (start : console.cursorPos.x.toNat < columns)
    (isOpen : Typed bufSize typed)
    (noReturn : carriageReturn ∉ typed)
    (inRow : ∀ before after, typed = before ++ asciiBs :: after →
      0 < depth asciiBs 0 before →
        (console.cursorPos.x.toNat + depth asciiBs 0 before) % columns ≠ 0) :
    Placed console.cursorPos (echoed console typed)
      (depth asciiBs 0 typed) := by
  induction typed using List.reverseRecOn with
  | nil => exact ⟨(position_zero start).symm, rfl⟩
  | append_singleton typed c hypothesis =>
      have placed : Placed console.cursorPos (echoed console typed)
          (depth asciiBs 0 typed) := by
        apply hypothesis isOpen.of_append
        · intro member
          exact noReturn (List.mem_append_left _ member)
        · intro before after equal
          apply inRow before (after ++ [c])
          rw [equal, List.append_assoc, List.cons_append]
      rw [echoed_snoc, depth_snoc]
      by_cases erases : c = asciiBs
      · subst erases
        have column := inRow typed [] rfl
        rw [count, if_pos rfl]
        rcases length : depth asciiBs 0 typed with _ | length
        · rw [length] at placed
          rw [placed.erase_nil]
          exact placed
        · rw [length] at placed column
          exact placed.erase (column (Nat.succ_pos _))
      · rw [count, if_neg erases]
        apply placed.char erases _ isOpen.snoc.2
        rintro rfl
        exact noReturn (by simp)

end Press

/-! ## Which backspaces blank their character -/

section Blanks

variable {bufSize : Word} {codes : List Byte} {console : ConsoleState}

theorem keymap_ne_return :
    ∀ code : Byte, keymap.getD code.toNat 0#8 ≠ carriageReturn := by
  decide

/-- No key is mapped to a carriage return. -/
theorem return_not_pressed (codes : List Byte) :
    carriageReturn ∉ pressed codes := by
  rw [pressed, List.mem_map]
  rintro ⟨code, -, equal⟩
  exact keymap_ne_return code equal

/-- The lines in front of a backspace, by the backspaces before it. -/
theorem placed_of_shorter {typed rest : List Byte}
    (start : console.cursorPos.x.toNat < columns)
    (equal : pressed codes = typed ++ asciiBs :: rest)
    (isOpen : Typed bufSize (typed ++ [asciiBs]))
    (shorter : ∀ before after, before.length < typed.length →
      pressed codes = before ++ asciiBs :: after →
        Typed bufSize (before ++ [asciiBs]) → 0 < depth asciiBs 0 before →
          (console.cursorPos.x.toNat + depth asciiBs 0 before) % columns ≠ 0) :
    Placed console.cursorPos (echoed console typed)
      (depth asciiBs 0 typed) := by
  apply placed_echoed start isOpen.of_append
  · intro member
    apply return_not_pressed codes
    rw [equal]
    exact List.mem_append_left _ member
  · rintro before after rfl
    apply shorter before (after ++ asciiBs :: rest)
    · simp
    · rw [equal, List.append_assoc, List.cons_append]
    · have front := isOpen.of_append
      rw [List.append_cons] at front
      exact front.of_append

theorem blanksEchoed_iff (start : console.cursorPos.x.toNat < columns) :
    BlanksEchoed bufSize codes console ↔
      DeletesInRow bufSize codes console.cursorPos := by
  constructor
  · intro blanks typed
    induction length : typed.length using Nat.strongRecOn
      generalizing typed with
    | ind _ hypothesis =>
        intro rest equal isOpen
        have placed := placed_of_shorter start equal isOpen
          fun before after fewer same beforeOpen =>
            hypothesis before.length (length ▸ fewer) before rfl after same
              beforeOpen
        exact placed.blanks_iff.mp (blanks typed rest equal isOpen)
  · intro inRow typed rest equal isOpen
    have placed := placed_of_shorter start equal isOpen
      fun before after _ => inRow before after
    exact placed.blanks_iff.mpr (inRow typed rest equal isOpen)

end Blanks

/-! ## The cursor when `get_line` returns -/

section Return

variable {bufSize i : Word} {codes buf : List Byte} {console : ConsoleState}
  {echo : Echo} {line : Line}

/-- The console when the line is over after the keys `typed`. -/
def LeftBy (bufSize : Word) (echo : Echo) (typed rest : List Byte)
    (console : ConsoleState) : Prop :=
  (Closed bufSize (typed.foldl press echo).cells.length ∧
      console = (typed.foldl press echo).console) ∨
    (rest.head? = some newline ∧
      console = putChar carriageReturn
        (putChar newline (typed.foldl press echo).console))

theorem not_closed_iff :
    ¬Closed bufSize i.toNat ↔ i < bufSize - 1#32 := by
  rw [Closed, BitVec.lt_def, Nat.not_le]

/-- The loop presses the keys of the line on the screen. -/
theorem getLineLoop_leftBy {rounds : Nat} (echo : Echo)
    (returned : getLineLoop bufSize rounds codes buf i echo.console = .ok line)
    (index : i.toNat = echo.cells.length) :
    ∃ typed rest, pressed codes = typed ++ rest ∧
      Open asciiBs newline (Closed bufSize) echo.cells.length typed ∧
        LeftBy bufSize echo typed rest line.console := by
  induction rounds generalizing codes buf i echo with
  | zero => cases returned
  | succ rounds hypothesis =>
      have extend : ∀ {c : Byte} {rest stored : List Byte} {next : Word},
          ¬Closed bufSize echo.cells.length → c ≠ newline →
          getLineLoop bufSize rounds rest stored next
              (press echo c).console = .ok line →
          next.toNat = (press echo c).cells.length →
            ∃ typed behind, c :: pressed rest = typed ++ behind ∧
              Open asciiBs newline (Closed bufSize) echo.cells.length typed ∧
                LeftBy bufSize echo typed behind line.console := by
        intro c rest stored next notClosed notEnd later same
        rcases hypothesis (press echo c) later same with
          ⟨typed, behind, equal, isOpen, left⟩
        rw [press_length] at isOpen
        exact ⟨c :: typed, behind, by rw [equal, List.cons_append],
          open_cons.mpr ⟨⟨notClosed, notEnd⟩, isOpen⟩, left⟩
      rw [getLineLoop] at returned
      split at returned
      · rename_i before
        have notClosed := not_closed_iff.mpr before
        rw [index] at notClosed
        rcases getChar_pressed codes with
          ⟨asleep, -⟩ | ⟨c, rest, found, equal, -⟩
        · rw [asleep] at returned
          cases returned
        rw [found] at returned
        rcases bind_eq_ok.mp returned with ⟨stored, -, later⟩
        rw [equal]
        by_cases erases : c = asciiBs
        · subst erases
          rw [if_pos rfl] at later
          split at later
          · rename_i zero
            have none : echo.cells = [] := by
              apply List.eq_nil_of_length_eq_zero
              rw [← index, zero]
              rfl
            have same : press echo asciiBs = echo := by
              rw [press, if_pos rfl, none]
            rw [← same] at later index
            exact extend notClosed (by decide) later index
          · rename_i nonzero
            have length := toNat_pred nonzero
            rcases echo with ⟨screen, _ | ⟨cell, cells⟩⟩
            · exact absurd (BitVec.eq_of_toNat_eq index) nonzero
            · apply extend notClosed (by decide) later
              rw [length, index]
              rfl
        · rw [if_neg erases] at later
          have echoes : press echo c =
              ⟨putChar c echo.console,
                lastCell (putChar c echo.console) :: echo.cells⟩ :=
            if_neg erases
          split at later
          · rename_i ends
            cases later
            exact ⟨[], c :: pressed rest, rfl, open_nil,
              .inr ⟨by rw [List.head?_cons, ends], by rw [ends]; rfl⟩⟩
          · rename_i other
            apply extend notClosed other
            · rw [echoes]
              exact later
            · have bound := (bufSize - 1#32).isLt
              rw [BitVec.lt_def] at before
              rw [echoes, toNat_succ (by omega), index]
              rfl
      · rename_i after
        cases returned
        have closed := not_not.mp (mt not_closed_iff.mp after)
        rw [index] at closed
        exact ⟨[], pressed codes, rfl, open_nil, .inl ⟨closed, rfl⟩⟩

/-- `put_char` leaves the cursor in a row. -/
theorem putChar_inRow (c : Byte) :
    (putChar c console).cursorPos.x.toNat < columns := by
  have firstColumn : (0#32 : Word).toNat < columns := by decide
  rw [putChar, updateCursor_cursorPos]
  split
  · exact firstColumn
  · split
    · exact firstColumn
    · change (advance console.cursorPos).x.toNat < columns
      rw [advance]
      split
      · rename_i inRow
        rw [BitVec.lt_def] at inRow
        change console.cursorPos.x.toNat < 79 at inRow
        rw [toNat_succ (by omega)]
        exact Nat.succ_lt_succ inRow
      · exact firstColumn

/-- The last key of a line that is full is echoed by `put_char`. -/
theorem getLine_inRow (start : console.cursorPos.x.toNat < columns)
    (returned : getLine codes buf bufSize console = .ok line) :
    line.console.cursorPos.x.toNat < columns := by
  rw [getLine] at returned
  rcases bind_eq_ok.mp returned with ⟨looped, loop, rest⟩
  rcases bind_eq_ok.mp rest with ⟨stored, -, final⟩
  cases final
  rcases getLineLoop_leftBy ⟨console, []⟩ loop rfl with
    ⟨typed, behind, -, isOpen, ⟨closed, equal⟩ | ⟨-, equal⟩⟩
  · change looped.console.cursorPos.x.toNat < columns
    rw [equal]
    rcases List.eq_nil_or_concat' typed with rfl | ⟨front, c, rfl⟩
    · exact start
    · have notClosed := isOpen.snoc.1
      rw [List.foldl_append] at closed ⊢
      change Closed bufSize (press _ c).cells.length at closed
      rw [press_length, foldl_press_length] at closed
      by_cases erases : c = asciiBs
      · rw [count, if_pos erases] at closed
        exact absurd (closed.trans (Nat.sub_le _ _)) notClosed
      · change (press _ c).console.cursorPos.x.toNat < columns
        rw [press, if_neg erases]
        exact putChar_inRow c
  · change looped.console.cursorPos.x.toNat < columns
    rw [equal]
    exact putChar_inRow carriageReturn

end Return

/-! ## Runs of the console -/

inductive Operation where
  | print (operation : ScreenBounds.Operation)
  | getLine (codes buf : List Byte) (bufSize : Word)

/-- The console after an operation, if it returns. -/
def perform (console : ConsoleState) : Operation → Option ConsoleState
  | .print operation => some (ScreenBounds.perform console operation)
  | .getLine codes buf bufSize =>
      match getLine codes buf bufSize console with
      | .ok line => some line.console
      | .error _ => none

/-- Every backspace of the operation blanks the cell of its character. -/
def Blanks (console : ConsoleState) : Operation → Prop
  | .print _ => True
  | .getLine codes _ bufSize => BlanksEchoed bufSize codes console

/-- The operation does not leave the row of the cursor. -/
def KeepsRow (console : ConsoleState) : Operation → Prop
  | .print (.dumpHex _ numDigits) =>
      (console.cursorPos.x + numDigits).toNat < columns
  | .print _ => True
  | .getLine codes _ bufSize => DeletesInRow bufSize codes console.cursorPos

/--
Along the operations the cursor stays in the columns, and backspaces blank the
cells of the characters that they delete.
-/
def ColumnsKept (console : ConsoleState) : List Operation → Prop
  | [] => True
  | operation :: later =>
      Blanks console operation ∧
        ∀ next, perform console operation = some next →
          next.cursorPos.x.toNat < columns ∧ ColumnsKept next later

/-- Every operation of the run keeps its row, in the state that it finds. -/
def RowsKept (console : ConsoleState) : List Operation → Prop
  | [] => True
  | operation :: later =>
      KeepsRow console operation ∧
        ∀ next, perform console operation = some next → RowsKept next later

section Runs

variable {console next : ConsoleState} {operation : Operation}

theorem putStr_inRow {str : List Byte}
    (start : console.cursorPos.x.toNat < columns) :
    (putStr str console).cursorPos.x.toNat < columns := by
  induction str generalizing console with
  | nil => exact start
  | cons c str hypothesis => exact hypothesis (putChar_inRow c)

/-- An operation that keeps its row leaves the cursor in the columns. -/
theorem perform_inRow (start : console.cursorPos.x.toNat < columns)
    (keeps : KeepsRow console operation)
    (performed : perform console operation = some next) :
    next.cursorPos.x.toNat < columns := by
  cases operation with
  | print printed =>
      cases performed
      cases printed with
      | putChar c => exact putChar_inRow c
      | putStr str => exact putStr_inRow start
      | dumpHex val numDigits =>
          change (Screen.dumpHex val numDigits console).cursorPos.x.toNat < _
          rw [dumpHex, updateCursor_cursorPos]
          exact keeps
      | printk fmt arguments =>
          change (Printk.printk fmt arguments console).1.cursorPos.x.toNat < _
          rw [Printk.printk_eq]
          exact putStr_inRow start
  | getLine codes buf bufSize =>
      rw [perform] at performed
      split at performed
      · rename_i line returned
        cases performed
        exact getLine_inRow start returned
      · cases performed

/-- What the column demands of one operation. -/
theorem keepsRow_iff (start : console.cursorPos.x.toNat < columns) :
    KeepsRow console operation ↔
      Blanks console operation ∧
        ∀ next, perform console operation = some next →
          next.cursorPos.x.toNat < columns := by
  constructor
  · intro keeps
    constructor
    · cases operation with
      | print printed => trivial
      | getLine codes buf bufSize => exact (blanksEchoed_iff start).mpr keeps
    · intro next performed
      exact perform_inRow start keeps performed
  · rintro ⟨blanks, inRow⟩
    cases operation with
    | print printed =>
        cases printed with
        | putChar c => trivial
        | putStr str => trivial
        | printk fmt arguments => trivial
        | dumpHex val numDigits =>
            have dumped := inRow _ rfl
            change (Screen.dumpHex val numDigits console).cursorPos.x.toNat < _
              at dumped
            rw [dumpHex, updateCursor_cursorPos] at dumped
            exact dumped
    | getLine codes buf bufSize => exact (blanksEchoed_iff start).mp blanks

theorem columnsKept_iff (operations : List Operation)
    (start : console.cursorPos.x.toNat < columns) :
    ColumnsKept console operations ↔ RowsKept console operations := by
  induction operations generalizing console with
  | nil => exact Iff.rfl
  | cons operation later hypothesis =>
      rw [ColumnsKept, RowsKept, keepsRow_iff start]
      constructor
      · rintro ⟨blanks, kept⟩
        refine ⟨⟨blanks, fun next performed => (kept next performed).1⟩, ?_⟩
        intro next performed
        rcases kept next performed with ⟨inRow, laterKept⟩
        exact (hypothesis inRow).mp laterKept
      · rintro ⟨⟨blanks, inRow⟩, kept⟩
        refine ⟨blanks, ?_⟩
        intro next performed
        exact ⟨inRow next performed,
          (hypothesis (inRow next performed)).mpr (kept next performed)⟩

theorem boot_inRow :
    ScreenBounds.bootConsole.cursorPos.x.toNat < columns := by
  rw [ScreenBounds.bootConsole, updateCursor_cursorPos]
  decide

/--
From boot on, the cursor stays in the columns and backspaces blank the right
cells, exactly as long as every `dump_hex` fits into its row and no backspace
deletes a character while the cursor is in column 0.
-/
theorem run_columnsKept_iff (operations : List Operation) :
    ColumnsKept ScreenBounds.bootConsole operations ↔
      RowsKept ScreenBounds.bootConsole operations :=
  columnsKept_iff operations boot_inRow

/-- Eighty digits take the cursor behind the last column. -/
theorem longDump_not_columnsKept :
    ¬ColumnsKept ScreenBounds.bootConsole
      [.print (.dumpHex 0x1234#32 80#32)] := by
  intro kept
  have fits : (ScreenBounds.bootConsole.cursorPos.x + 80#32).toNat < columns :=
    ((columnsKept_iff _ boot_inRow).mp kept).1
  revert fits
  decide

end Runs

end MagicalOs.Console.CursorColumns
