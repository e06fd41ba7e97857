import MagicalOs.Console.Printk

/-!
# Where the console stores characters

A store of `put_char_pos` is of use when it stays in the mapped video memory
and in the rows that the CRT controller shows.  The row of the cursor is never
reset: the stores use its low eight bits, the start address its low bits after
a multiplication.

The module relates both for whole runs.  Between two characters the start
address register is determined by the row, so the condition under which a
character is shown needs the cursor and the register only.
-/

namespace MagicalOs.Console.ScreenBounds

open MagicalOs.Library.ByteMemory
open MagicalOs.Library.CString
open MagicalOs.Console.Screen
open MagicalOs.Console.Printk

/-! ## Runs of the console -/

inductive Operation where
  | putChar (c : Byte)
  | putStr (str : List Byte)
  | dumpHex (val numDigits : Word)
  | printk (fmt : List Byte) (arguments : List Argument)

def perform (console : ConsoleState) : Operation → ConsoleState
  | .putChar c => Screen.putChar c console
  | .putStr str => Screen.putStr str console
  | .dumpHex val numDigits => Screen.dumpHex val numDigits console
  | .printk fmt arguments => (Printk.printk fmt arguments console).1

/-- `kern_init` moves the cursor two rows down. -/
def bootConsole : ConsoleState :=
  updateCursor { cursorPos := { x := 0#32, y := 2#32 }, accesses := [] }

def run (operations : List Operation) : ConsoleState :=
  operations.foldl perform bootConsole

/-! ## What is asked of a store -/

/-- Both bytes of the cell are in 0xb8000-0xbffff. -/
def InWindow (address : Nat) : Prop :=
  0xb8000 ≤ address ∧ address + 1 ≤ 0xbffff

/--
The cell is one of the 25 rows from the start address on.  The address counter
of the controller has sixteen bits.
-/
def Visible (start address : Nat) : Prop :=
  ((address - screenStart) / 2 + 65536 - start) % 65536 < rows * columns

/-- Every store finds its cell in the window and on the screen of its time. -/
def StoresShown (display : Display) (accesses : List Access) : Prop :=
  ∀ before address value later,
    accesses = before ++ .store address value :: later →
      InWindow address ∧ Visible (display.after before).startAddress address

section Accesses

variable {display : Display} {accesses : List Access}

theorem storesShown_nil : StoresShown display [] := by
  intro before address value later equal
  simp at equal

/-- A list with one more access has one more place to split. -/
theorem storesShown_snoc (access : Access) :
    StoresShown display (accesses ++ [access]) ↔
      StoresShown display accesses ∧
        ∀ address value, access = .store address value →
          InWindow address ∧
            Visible (display.after accesses).startAddress address := by
  constructor
  · intro shown
    constructor
    · intro before address value later equal
      exact shown before address value (later ++ [access]) (by simp [equal])
    · intro address value equal
      exact shown accesses address value [] (by rw [equal])
  · rintro ⟨shown, last⟩ before address value later equal
    rcases List.eq_nil_or_concat later with empty | ⟨front, final, concat⟩
    · rw [empty] at equal
      rcases List.append_inj' equal rfl with ⟨same, single⟩
      rw [← same]
      exact last address value (List.cons.inj single).1
    · rw [concat, List.concat_eq_append, ← List.cons_append,
        ← List.append_assoc] at equal
      exact shown before address value front (List.append_inj' equal rfl).1

theorem storesShown_out (value : Byte) (port : Half) :
    StoresShown display (accesses ++ [.out value port]) ↔
      StoresShown display accesses := by
  rw [storesShown_snoc]
  constructor
  · exact fun both => both.1
  · intro shown
    refine ⟨shown, ?_⟩
    intro address value equal
    cases equal

theorem storesShown_store (address : Nat) (value : Half) :
    StoresShown display (accesses ++ [.store address value]) ↔
      StoresShown display accesses ∧ InWindow address ∧
        Visible (display.after accesses).startAddress address := by
  rw [storesShown_snoc]
  constructor
  · rintro ⟨shown, last⟩
    exact ⟨shown, last address value rfl⟩
  · rintro ⟨shown, last⟩
    refine ⟨shown, ?_⟩
    intro other otherValue equal
    cases equal
    exact last

end Accesses

/-! ## Rows and start addresses -/

/--
The start address while the cursor is in row `y`.  It is zero until row 25 is
reached; when the row wraps around it keeps the value of the last row.
-/
def Scrolled (start : Nat) (y : Word) : Prop :=
  if rows ≤ y.toNat then start = 80 * (y.toNat - 24) % 65536
  else start = 0 ∨ start = 63536

/--
A character at `(x, y)` is shown: on the first screen, or where 256 rows of
every 4096 are repeated, in front of the end of the window.
-/
def OnScreen (start : Nat) (x y : Word) : Prop :=
  if rows ≤ y.toNat then
    y.toNat % 4096 < 256 ∧ x.toNat % 256 < 80 ∧
      80 * (y.toNat % 4096) + x.toNat % 256 < 16384
  else
    start = 0 ∧ 80 * y.toNat + x.toNat % 256 < 2000

section Rows

variable {start : Nat} {x y : Word}

theorem narrow_toNat (coordinate : Word) :
    (narrow coordinate).toNat = coordinate.toNat % 256 := by
  rw [narrow, BitVec.toNat_setWidth]

theorem inWindow_cell :
    InWindow (cellAddress (narrow x) (narrow y)) ↔
      80 * (y.toNat % 256) + x.toNat % 256 < 16384 := by
  rw [InWindow, cellAddress, narrow_toNat, narrow_toNat, screenStart, columns]
  omega

theorem visible_cell :
    Visible start (cellAddress (narrow x) (narrow y)) ↔
      (80 * (y.toNat % 256) + x.toNat % 256 + 65536 - start) % 65536 <
        2000 := by
  have cell : (cellAddress (narrow x) (narrow y) - screenStart) / 2 =
      80 * (y.toNat % 256) + x.toNat % 256 := by
    rw [cellAddress, narrow_toNat, narrow_toNat, columns]
    omega
  rw [Visible, cell, rows, columns]

/-- From row 25 on the shown rows and the stored row meet again after 4096. -/
theorem visible_iff_of_scrolled {row column : Nat} (far : 24 ≤ row)
    (narrowColumn : column < 256) :
    (80 * (row % 256) + column + 65536 - 80 * (row - 24) % 65536) % 65536 <
        2000 ↔
      row % 4096 < 256 ∧ column < 80 := by
  have rowSplit := Nat.div_add_mod row 256
  have startSplit := Nat.div_add_mod (80 * (row - 24)) 65536
  have startBound : 80 * (row - 24) % 65536 < 65536 :=
    Nat.mod_lt _ (by decide)
  generalize 80 * (row - 24) % 65536 = start at startSplit startBound ⊢
  have offsetSplit :=
    Nat.div_add_mod (80 * (row % 256) + column + 65536 - start) 65536
  have offsetBound :
      (80 * (row % 256) + column + 65536 - start) % 65536 < 65536 :=
    Nat.mod_lt _ (by decide)
  generalize (80 * (row % 256) + column + 65536 - start) % 65536 = offset
    at offsetSplit offsetBound ⊢
  generalize 80 * (row - 24) / 65536 = turns at startSplit
  generalize (80 * (row % 256) + column + 65536 - start) / 65536 = wraps
    at offsetSplit
  obtain ⟨pages, pagesEq⟩ :
      ∃ pages : Int,
        pages = 16 * (1 + (turns : Int) - wraps) - 5 * (row / 256 : Nat) :=
    ⟨_, rfl⟩
  have offsetEq : (offset : Int) = column + 1920 + 4096 * pages := by
    omega
  constructor
  · intro small
    have noPage : pages = 0 := by
      omega
    omega
  · rintro ⟨repeated, left⟩
    have noPage : pages = 0 := by
      omega
    omega

/-- The window and the screen agree on a cell only as `OnScreen` says. -/
theorem shown_cell_iff (scrolled : Scrolled start y) :
    InWindow (cellAddress (narrow x) (narrow y)) ∧
        Visible start (cellAddress (narrow x) (narrow y)) ↔
      OnScreen start x y := by
  rw [inWindow_cell, visible_cell, OnScreen]
  rw [Scrolled] at scrolled
  have narrowX : x.toNat % 256 < 256 :=
    Nat.mod_lt _ (by decide)
  generalize x.toNat % 256 = column at narrowX ⊢
  by_cases far : rows ≤ y.toNat
  · rw [if_pos far] at scrolled ⊢
    rw [rows] at far
    rw [scrolled, visible_iff_of_scrolled (by omega) narrowX]
    omega
  · rw [if_neg far] at scrolled ⊢
    rw [rows] at far
    have low : y.toNat % 256 = y.toNat :=
      Nat.mod_eq_of_lt (by omega)
    rw [low]
    rcases scrolled with unscrolled | wrapped
    · omega
    · omega

/-- `update_cursor` brings the registers in line with a later row. -/
theorem scrollAddress_toNat (far : rows ≤ y.toNat) :
    (scrollAddress { x, y }).toNat % 65536 = 80 * (y.toNat - 24) % 65536 := by
  have bound := y.isLt
  rw [rows] at far
  rw [scrollAddress, rows]
  simp only [BitVec.toNat_mul, BitVec.toNat_add, BitVec.toNat_sub,
    BitVec.toNat_ofNat]
  omega

end Rows

/-! ## One character or one number -/

/-- What an operation draws with one move of the cursor. -/
inductive Drawing where
  | char (c : Byte)
  | hex (val numDigits : Word)

def draw (console : ConsoleState) : Drawing → ConsoleState
  | .char c => putChar c console
  | .hex val numDigits => dumpHex val numDigits console

/-- The drawing is shown when the cursor is at `cursor`. -/
def Fits (start : Nat) (cursor : CursorPosition) : Drawing → Prop
  | .char c =>
      c = carriageReturn ∨ c = newline ∨ OnScreen start cursor.x cursor.y
  | .hex _ numDigits =>
      ∀ digit < numDigits.toNat,
        OnScreen start (cursor.x + BitVec.ofNat 32 digit) cursor.y

section Drawings

variable {display : Display} {console : ConsoleState}

/-- The start address that the display has when an operation begins. -/
def startNow (display : Display) (console : ConsoleState) : Nat :=
  (shown display console).startAddress

theorem storesShown_outAddress (high low : Byte) (address : Word) :
    StoresShown display (outAddress high low address console).accesses ↔
      StoresShown display console.accesses := by
  simp only [outAddress, outbP, storesShown_out]

theorem storesShown_updateCursor :
    StoresShown display (updateCursor console).accesses ↔
      StoresShown display console.accesses := by
  rw [updateCursor]
  split
  · rw [storesShown_outAddress, storesShown_outAddress]
  · rw [storesShown_outAddress]

theorem storesShown_putCharPos (c : Byte) {x y : Word}
    (scrolled : Scrolled (startNow display console) y) :
    StoresShown display
        (putCharPos c (narrow x) (narrow y) console).accesses ↔
      StoresShown display console.accesses ∧
        OnScreen (startNow display console) x y := by
  rw [putCharPos, storesShown_store, ← shown_cell_iff scrolled]
  rfl

@[simp]
theorem startNow_putCharPos (c x y : Byte) :
    startNow display (putCharPos c x y console) = startNow display console := by
  rw [startNow, shown_putCharPos]
  rfl

/-- A cursor that stays, leaves or wraps keeps the registers in line. -/
theorem scrolled_updateCursor {previous : Word}
    (scrolled : Scrolled (startNow display console) previous)
    (moves : console.cursorPos.y = previous ∨
      console.cursorPos.y = previous + 1#32) :
    Scrolled (startNow display (updateCursor console))
      (updateCursor console).cursorPos.y := by
  rw [updateCursor_cursorPos, startNow, startAddress_updateCursor]
  change Scrolled (if BitVec.ofNat 32 rows ≤ console.cursorPos.y then _
    else startNow display console) _
  generalize startNow display console = start at scrolled ⊢
  have cursorEq : console.cursorPos =
      { x := console.cursorPos.x, y := console.cursorPos.y } :=
    rfl
  have bound := previous.isLt
  by_cases far : BitVec.ofNat 32 rows ≤ console.cursorPos.y
  · have farNat : rows ≤ console.cursorPos.y.toNat := by
      rw [BitVec.le_def] at far
      simpa [rows] using far
    rw [if_pos far, Scrolled, if_pos farNat, cursorEq,
      scrollAddress_toNat farNat]
  · have nearNat : ¬rows ≤ console.cursorPos.y.toNat := by
      rw [BitVec.le_def] at far
      simpa [rows] using far
    rw [if_neg far, Scrolled, if_neg nearNat]
    rw [Scrolled] at scrolled
    rcases moves with same | next
    · rw [← same, if_neg nearNat] at scrolled
      exact scrolled
    · have moved : console.cursorPos.y.toNat =
          (previous.toNat + 1) % 4294967296 := by
        rw [next, BitVec.toNat_add]
        rfl
      rw [moved, rows] at nearNat
      rw [rows] at scrolled
      split at scrolled
      · have last : previous.toNat = 4294967295 := by
          omega
        rw [last] at scrolled
        exact .inr scrolled
      · exact scrolled

theorem advance_y (cursor : CursorPosition) :
    (advance cursor).y = cursor.y ∨ (advance cursor).y = cursor.y + 1#32 := by
  rw [advance]
  split
  · exact .inl rfl
  · exact .inr rfl

/-- `put_char` adds a store, and it is shown exactly when it fits. -/
theorem putChar_spec (c : Byte)
    (scrolled : Scrolled (startNow display console) console.cursorPos.y) :
    Scrolled (startNow display (putChar c console))
        (putChar c console).cursorPos.y ∧
      (StoresShown display (putChar c console).accesses ↔
        StoresShown display console.accesses ∧
          Fits (startNow display console) console.cursorPos (.char c)) := by
  rw [putChar, Fits]
  by_cases isReturn : c = carriageReturn
  · rw [if_pos isReturn]
    constructor
    · exact scrolled_updateCursor scrolled (.inl rfl)
    · rw [storesShown_updateCursor]
      simp [isReturn]
  rw [if_neg isReturn]
  by_cases isNewline : c = newline
  · rw [if_pos isNewline]
    constructor
    · exact scrolled_updateCursor scrolled (.inr rfl)
    · rw [storesShown_updateCursor]
      simp [isNewline]
  rw [if_neg isNewline]
  constructor
  · refine scrolled_updateCursor ?_ (advance_y console.cursorPos)
    change Scrolled (startNow display (putCharPos _ _ _ console)) _
    rw [startNow_putCharPos]
    exact scrolled
  · rw [storesShown_updateCursor]
    change StoresShown display (putCharPos _ _ _ console).accesses ↔ _
    rw [storesShown_putCharPos c scrolled]
    simp [isReturn, isNewline]

@[simp]
theorem startNow_dumpDigits (count : Nat) (val dumpDigit : Word) :
    startNow display (dumpDigits count val dumpDigit console) =
      startNow display console := by
  induction count generalizing val dumpDigit console with
  | zero => rfl
  | succ count hypothesis =>
      rw [dumpDigits, hypothesis, startNow_putCharPos]

/-- The digits go to the columns from `dump_digit` downwards. -/
theorem storesShown_dumpDigits (count : Nat) (val dumpDigit : Word)
    (scrolled : Scrolled (startNow display console) console.cursorPos.y) :
    StoresShown display (dumpDigits count val dumpDigit console).accesses ↔
      StoresShown display console.accesses ∧
        ∀ back < count,
          OnScreen (startNow display console)
            (dumpDigit - BitVec.ofNat 32 back) console.cursorPos.y := by
  induction count generalizing val dumpDigit console with
  | zero =>
      simp [dumpDigits]
  | succ count hypothesis =>
      rw [dumpDigits, hypothesis, storesShown_putCharPos _ scrolled,
        startNow_putCharPos, putCharPos_cursorPos, and_assoc]
      · apply and_congr_right
        intro shown
        constructor
        · rintro ⟨first, others⟩ back below
          cases back with
          | zero => simpa using first
          | succ back =>
              have other := others back (by omega)
              rw [BitVec.ofNat_add, BitVec.add_comm, ← BitVec.sub_sub]
              exact other
        · intro all
          constructor
          · have first := all 0 (by omega)
            simpa using first
          · intro back below
            have other := all (back + 1) (by omega)
            rw [BitVec.ofNat_add, BitVec.add_comm, ← BitVec.sub_sub] at other
            exact other
      · rw [startNow_putCharPos]
        exact scrolled

/-- Counting the columns from the left instead of from the right. -/
theorem columns_reversed (x numDigits : Word) (Holds : Word → Prop) :
    (∀ back < numDigits.toNat,
        Holds (x + numDigits - 1#32 - BitVec.ofNat 32 back)) ↔
      ∀ digit < numDigits.toNat, Holds (x + BitVec.ofNat 32 digit) := by
  have mirrored : ∀ back < numDigits.toNat,
      x + numDigits - 1#32 - BitVec.ofNat 32 back =
        x + BitVec.ofNat 32 (numDigits.toNat - 1 - back) := by
    intro back below
    apply BitVec.eq_of_toNat_eq
    have bound := numDigits.isLt
    simp only [BitVec.toNat_sub, BitVec.toNat_add, BitVec.toNat_ofNat]
    omega
  constructor
  · intro all digit below
    have other := all (numDigits.toNat - 1 - digit) (by omega)
    rw [mirrored _ (by omega)] at other
    have same :
        numDigits.toNat - 1 - (numDigits.toNat - 1 - digit) = digit := by
      omega
    rw [same] at other
    exact other
  · intro all back below
    rw [mirrored back below]
    exact all _ (by omega)

/-- `dump_hex` adds a store for each digit. -/
theorem dumpHex_spec (val numDigits : Word)
    (scrolled : Scrolled (startNow display console) console.cursorPos.y) :
    Scrolled (startNow display (dumpHex val numDigits console))
        (dumpHex val numDigits console).cursorPos.y ∧
      (StoresShown display (dumpHex val numDigits console).accesses ↔
        StoresShown display console.accesses ∧
          Fits (startNow display console) console.cursorPos
            (.hex val numDigits)) := by
  rw [dumpHex]
  constructor
  · refine scrolled_updateCursor ?_ (.inl rfl)
    change Scrolled (startNow display (dumpDigits _ _ _ console)) _
    rw [startNow_dumpDigits]
    simpa using scrolled
  · rw [storesShown_updateCursor]
    change StoresShown display (dumpDigits _ _ _ console).accesses ↔ _
    rw [storesShown_dumpDigits _ _ _ scrolled, Fits]
    rw [columns_reversed console.cursorPos.x numDigits
      (fun column => OnScreen (startNow display console) column
        console.cursorPos.y)]

theorem draw_spec (drawing : Drawing)
    (scrolled : Scrolled (startNow display console) console.cursorPos.y) :
    Scrolled (startNow display (draw console drawing))
        (draw console drawing).cursorPos.y ∧
      (StoresShown display (draw console drawing).accesses ↔
        StoresShown display console.accesses ∧
          Fits (startNow display console) console.cursorPos drawing) := by
  cases drawing with
  | char c => exact putChar_spec c scrolled
  | hex val numDigits => exact dumpHex_spec val numDigits scrolled

/-- Every drawing of a sequence fits where the cursor is when it is drawn. -/
def AllFit (display : Display) (console : ConsoleState)
    (drawings : List Drawing) : Prop :=
  ∀ before drawing later, drawings = before ++ drawing :: later →
    Fits (startNow display (before.foldl draw console))
      (before.foldl draw console).cursorPos drawing

theorem allFit_cons (drawing : Drawing) (later : List Drawing) :
    AllFit display console (drawing :: later) ↔
      Fits (startNow display console) console.cursorPos drawing ∧
        AllFit display (draw console drawing) later := by
  constructor
  · intro all
    constructor
    · exact all [] drawing later rfl
    · intro before other behind equal
      exact all (drawing :: before) other behind (by rw [equal]; rfl)
  · rintro ⟨first, others⟩ before other behind equal
    cases before with
    | nil =>
        cases equal
        exact first
    | cons head before =>
        cases equal
        exact others before other behind rfl

/-- A sequence of drawings is shown exactly when all of them fit. -/
theorem drawings_spec (drawings : List Drawing)
    (scrolled : Scrolled (startNow display console) console.cursorPos.y) :
    StoresShown display (drawings.foldl draw console).accesses ↔
      StoresShown display console.accesses ∧
        AllFit display console drawings := by
  induction drawings generalizing console with
  | nil =>
      simp [AllFit]
  | cons drawing later hypothesis =>
      rcases draw_spec drawing scrolled with ⟨still, shown⟩
      rw [List.foldl_cons, hypothesis still, shown, allFit_cons, and_assoc]

end Drawings

/-! ## Operations and runs -/

/-- The drawings that an operation consists of. -/
def drawings : Operation → List Drawing
  | .putChar c => [.char c]
  | .putStr str => str.map .char
  | .dumpHex val numDigits => [.hex val numDigits]
  | .printk fmt arguments => (printkOutput fmt false arguments).map .char

theorem foldl_char (str : List Byte) (console : ConsoleState) :
    (str.map Drawing.char).foldl draw console = putStr str console := by
  rw [List.foldl_map]
  rfl

theorem perform_eq (console : ConsoleState) (operation : Operation) :
    perform console operation = (drawings operation).foldl draw console := by
  cases operation with
  | putChar c => rfl
  | putStr str => exact (foldl_char str console).symm
  | dumpHex val numDigits => rfl
  | printk fmt arguments =>
      rw [drawings, foldl_char, perform, printk_eq]

theorem run_eq (operations : List Operation) :
    run operations = (operations.flatMap drawings).foldl draw bootConsole := by
  rw [run]
  generalize bootConsole = console
  induction operations generalizing console with
  | nil => rfl
  | cons operation later hypothesis =>
      rw [List.foldl_cons, hypothesis, perform_eq, List.flatMap_cons,
        List.foldl_append]

section Boot

variable {display : Display}

theorem startNow_boot (unscrolled : display.startAddress = 0) :
    startNow display bootConsole = 0 := by
  rw [startNow, bootConsole, startAddress_updateCursor]
  exact unscrolled

theorem scrolled_boot (unscrolled : display.startAddress = 0) :
    Scrolled (startNow display bootConsole) bootConsole.cursorPos.y := by
  rw [startNow_boot unscrolled]
  exact .inl rfl

theorem storesShown_boot : StoresShown display bootConsole.accesses := by
  rw [bootConsole, storesShown_updateCursor]
  exact storesShown_nil

/--
On every run, each store stays in the window and on the screen exactly when
each character is drawn at a cursor from which it is shown.
-/
theorem run_storesShown_iff (unscrolled : display.startAddress = 0)
    (operations : List Operation) :
    StoresShown display (run operations).accesses ↔
      AllFit display bootConsole (operations.flatMap drawings) := by
  rw [run_eq, drawings_spec _ (scrolled_boot unscrolled)]
  exact and_iff_right storesShown_boot

end Boot

/-! ## A long run -/

/-- A display as the text mode is set up. -/
def blankDisplay : Display :=
  { memory := fun _ => 0#8, index := 0#8, registers := fun _ => 0#8 }

theorem run_storesShown_firstScreen :
    blankDisplay.startAddress = 0 ∧
      (StoresShown blankDisplay (run [.putStr [79#8, 75#8]]).accesses ↔
        AllFit blankDisplay bootConsole [.char 79#8, .char 75#8]) :=
  ⟨by decide, run_storesShown_iff (by decide) [.putStr [79#8, 75#8]]⟩

/-- New lines move the cursor down without drawing. -/
theorem newlines_cursorPos (count : Nat) (console : ConsoleState) :
    (putStr (List.replicate count newline) console).cursorPos.y =
      console.cursorPos.y + BitVec.ofNat 32 count := by
  induction count generalizing console with
  | zero =>
      simp [putStr]
  | succ count hypothesis =>
      have moved : (putChar newline console).cursorPos.y =
          console.cursorPos.y + 1#32 := by
        rw [putChar, updateCursor_cursorPos]
        rfl
      rw [List.replicate_succ, putStr, List.foldl_cons]
      change (putStr _ _).cursorPos.y = _
      rw [hypothesis, moved, BitVec.ofNat_add, BitVec.add_assoc,
        BitVec.add_comm 1#32]

/-- A letter behind new lines has to be on the screen in its row. -/
theorem letter_onScreen {count : Nat}
    (shown : StoresShown blankDisplay
      (run [.putStr (List.replicate count newline), .putChar 65#8]).accesses) :
    ∃ start x, OnScreen start x (2#32 + BitVec.ofNat 32 count) := by
  have unscrolled : blankDisplay.startAddress = 0 := by
    decide
  rw [run_eq, drawings_spec _ (scrolled_boot unscrolled)] at shown
  have last := shown.2 ((List.replicate count newline).map .char) (.char 65#8)
    [] (by simp [drawings])
  rw [foldl_char] at last
  rcases last with isReturn | isNewline | onScreen
  · exact absurd isReturn (by decide)
  · exact absurd isNewline (by decide)
  · rw [newlines_cursorPos] at onScreen
    exact ⟨_, _, onScreen⟩

/-- After 203 lines the next character is stored behind the window. -/
theorem longOutput_not_storesShown :
    ¬StoresShown blankDisplay
      (run [.putStr (List.replicate 203 newline), .putChar 65#8]).accesses := by
  intro shown
  rcases letter_onScreen shown with ⟨start, x, onScreen⟩
  have row : (2#32 + BitVec.ofNat 32 203).toNat = 205 := by
    decide
  rw [OnScreen, row, if_pos (by decide)] at onScreen
  omega

end MagicalOs.Console.ScreenBounds
