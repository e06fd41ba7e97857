import MagicalOs.Apps.HexDumps
import MagicalOs.Kernel.SystemCalls

/-!
# The clock on the screen

`uptime_start` asks for the counter and for the row of the cursor, writes the
uptime into the last columns of the first row on the screen, and sleeps.  It
does so by five system calls; between two of them interrupts are handled,
other tasks make their calls, and keys are echoed.

The loop never moves the cursor or scrolls, so nobody notices it outside of
its own columns, unless so many rows have been written that the upper half of
the row gets into the column of the digits.
-/

namespace MagicalOs.Apps.Uptime

open MagicalOs.Library.ByteMemory
open MagicalOs.Console.Printk (printk_eq)
open MagicalOs.Console.Screen
open MagicalOs.Console.ScreenBounds
open MagicalOs.Console.TextCells
open MagicalOs.Console.LineInput (eraseChar)
open MagicalOs.Apps.HexDumps
open MagicalOs.Kernel.MachineState
open MagicalOs.Kernel.KernelRuns (Event Step boot)
open MagicalOs.Kernel.SystemCalls

/-! ## The loop of `uptime_start` -/

/-- The system call which comes next. -/
inductive Point where
  | counter
  | row
  | label
  | digits
  | sleep
  deriving DecidableEq

/-- The variables of `uptime_start`. -/
structure Loop where
  point : Point
  uptime : Word
  cursorPosY : Word

/-- The arguments of the next call; the label is at an address. -/
def Loop.call (label : Word) (loop : Loop) : Call :=
  match loop.point with
  | .counter => ⟨1#32, 0#32, 0#32, 0#32⟩
  | .row => ⟨3#32, 0#32, 0#32, 0#32⟩
  | .label =>
      if loop.cursorPosY < BitVec.ofNat 32 rows then
        ⟨5#32, label, BitVec.ofNat 32 (columns - (7 + 4)), 0#32⟩
      else
        ⟨5#32, label, BitVec.ofNat 32 (columns - (7 + 4)),
          loop.cursorPosY - BitVec.ofNat 32 rows + 1#32⟩
  | .digits =>
      if loop.cursorPosY < BitVec.ofNat 32 rows then
        ⟨7#32, loop.uptime, 4#32,
          BitVec.ofNat 32 (columns - 4) <<< 16 ||| 0#32⟩
      else
        ⟨7#32, loop.uptime, 4#32,
          BitVec.ofNat 32 (columns - 4) <<< 16 |||
            (loop.cursorPosY - BitVec.ofNat 32 rows + 1#32)⟩
  | .sleep => ⟨2#32, 33#32, 0#32, 0#32⟩

/-- What the loop does with the result. -/
def Loop.resume (loop : Loop) (result : Word) : Loop :=
  match loop.point with
  | .counter => { loop with uptime := result / 1000#32, point := .row }
  | .row => { loop with cursorPosY := result, point := .label }
  | .label => { loop with point := .digits }
  | .digits => { loop with point := .sleep }
  | .sleep => { loop with point := .counter }

/-! ## The loop among the others -/

structure State where
  system : System
  loop : Loop

/-- Who takes the next step. -/
inductive Turn where
  | event (event : Event)
  | syscall (caller : Caller) (call : Call)
  | key (key : Key)
  | print (operation : Operation)
  | uptime

inductive Takes (layout : Layout) (caller : Caller) (label : Word)
    (state : State) : Turn → State → Prop where
  | event {event : Event} {after : Machine}
      (taken : Step layout state.system.machine event after) :
      Takes layout caller label state (.event event)
        { state with system := { state.system with machine := after } }
  | syscall {other : Caller} {call : Call} {result : Word} {after : System}
      (done : DoSyscall layout other state.system call result after) :
      Takes layout caller label state (.syscall other call)
        { state with system := after }
  | key (key : Key) :
      Takes layout caller label state (.key key)
        { state with
          system :=
            { state.system with console := echo key state.system.console } }
  | print (operation : Operation) :
      Takes layout caller label state (.print operation)
        { state with
          system :=
            { state.system with
              console := perform state.system.console operation } }
  | uptime {result : Word} {after : System}
      (done : DoSyscall layout caller state.system (state.loop.call label)
        result after) :
      Takes layout caller label state .uptime
        { system := after, loop := state.loop.resume result }

inductive Run (layout : Layout) (caller : Caller) (label : Word) :
    State → List Turn → State → Prop where
  | nil (state : State) : Run layout caller label state [] state
  | cons {state next last : State} {turn : Turn} {turns : List Turn}
      (takes : Takes layout caller label state turn next)
      (rest : Run layout caller label next turns last) :
      Run layout caller label state (turn :: turns) last

/-- What the others draw. -/
def Turn.draw (turn : Turn) (console : ConsoleState) : ConsoleState :=
  match turn with
  | .event _ => console
  | .syscall caller asked => drawCall caller asked console
  | .key pressed => echo pressed console
  | .print operation => perform console operation
  | .uptime => console

/-- The console as it would be without the clock. -/
def alone (turns : List Turn) (console : ConsoleState) : ConsoleState :=
  turns.foldl (fun console turn => turn.draw console) console

/-! ## Where the loop draws -/

/-- `"uptime:"`. -/
def labelText : List Byte :=
  [0x75#8, 0x70#8, 0x74#8, 0x69#8, 0x6d#8, 0x65#8, 0x3a#8]

/-- The row that the loop takes for the first one on the screen. -/
def textRow (cursorPosY : Word) : Word :=
  if cursorPosY < BitVec.ofNat 32 rows then 0#32
  else cursorPosY - BitVec.ofNat 32 rows + 1#32

/-- The column of the digits, which gets the upper half of the row as well. -/
def digitsColumn (cursorPosY : Word) : Byte :=
  narrow (textRow cursorPosY >>> 16) ||| 76#8

section Calls

variable {caller : Caller} {label : Word} {loop : Loop}
  {console : ConsoleState}

theorem service_counter (atCounter : loop.point = .counter) :
    service (loop.call label) = some .timerGetGlobalCounter := by
  rw [Loop.call, atCounter]
  rfl

theorem service_row (atRow : loop.point = .row) :
    service (loop.call label) = some .cursorPosY := by
  rw [Loop.call, atRow]
  rfl

theorem service_label (atLabel : loop.point = .label) :
    service (loop.call label) =
      some (.putStrPos label 69#8 (narrow (textRow loop.cursorPosY))) := by
  rw [Loop.call, atLabel, textRow]
  dsimp only
  split
  · rfl
  · rfl

theorem service_digits (atDigits : loop.point = .digits) :
    service (loop.call label) =
      some (.dumpHexPos loop.uptime 4#32 (digitsColumn loop.cursorPosY)
        (narrow (textRow loop.cursorPosY))) := by
  have called : loop.call label =
      ⟨7#32, loop.uptime, 4#32,
        BitVec.ofNat 32 (columns - 4) <<< 16 ||| textRow loop.cursorPosY⟩ := by
    rw [Loop.call, atDigits, textRow]
    dsimp only
    split
    · rfl
    · rfl
  have column :
      ((BitVec.ofNat 32 (columns - 4) <<< 16 ||| textRow loop.cursorPosY) >>>
          16).setWidth 8 =
        digitsColumn loop.cursorPosY := by
    rw [digitsColumn, BitVec.ushiftRight_or_distrib, BitVec.setWidth_or,
      BitVec.or_comm]
    rfl
  have low :
      ((BitVec.ofNat 32 (columns - 4) <<< 16 ||| textRow loop.cursorPosY) &&&
          0x0000ffff#32).setWidth 8 =
        narrow (textRow loop.cursorPosY) := by
    rw [BitVec.setWidth_and, BitVec.setWidth_or, narrow]
    generalize (textRow loop.cursorPosY).setWidth 8 = row
    change (0#8 ||| row) &&& BitVec.allOnes 8 = row
    rw [BitVec.zero_or, BitVec.and_allOnes]
  rw [called, service]
  dsimp only
  rw [column, low]
  rfl

end Calls

/-! ## Drawing beside the clock -/

/-- The bytes of the cells in the columns of the clock, in every row. -/
def ClockByte (address : Nat) : Prop :=
  screenStart ≤ address ∧ 69 ≤ (address - screenStart) / 2 % columns

/-- Two displays which differ in the columns of the clock only. -/
structure AgreeBeside (display other : Display) : Prop where
  index : display.index = other.index
  registers : display.registers = other.registers
  memory : Memory.AgreeAt display.memory other.memory
    fun address => ¬ClockByte address

/-- The clock cannot be noticed beside its columns. -/
structure Unnoticed (display : Display) (console other : ConsoleState) :
    Prop where
  cursor : console.cursorPos = other.cursorPos
  beside : AgreeBeside (shown display console) (shown display other)

section Unnoticed

variable {display shownOne shownOther : Display}
  {console other : ConsoleState}

theorem AgreeBeside.apply (beside : AgreeBeside shownOne shownOther)
    (access : Access) :
    AgreeBeside (shownOne.apply access) (shownOther.apply access) := by
  cases access with
  | store address value =>
      constructor
      · exact beside.index
      · exact beside.registers
      · exact (beside.memory.store16 address value).mono fun _ => .inl
  | out value port =>
      rw [Display.apply, Display.apply]
      split
      · exact ⟨rfl, beside.registers, beside.memory⟩
      · split
        · rw [beside.index, beside.registers]
          exact ⟨rfl, rfl, beside.memory⟩
        · exact beside

theorem unnoticed_refl (display : Display) (console : ConsoleState) :
    Unnoticed display console console :=
  ⟨rfl, rfl, rfl, fun _ _ => rfl⟩

theorem unnoticed_outbP (unnoticed : Unnoticed display console other)
    (value : Byte) (port : Half) :
    Unnoticed display (outbP value port console) (outbP value port other) := by
  constructor
  · exact unnoticed.cursor
  · rw [shown_outbP, shown_outbP]
    exact unnoticed.beside.apply _

theorem unnoticed_putCharPos (unnoticed : Unnoticed display console other)
    (c x y : Byte) :
    Unnoticed display (putCharPos c x y console)
      (putCharPos c x y other) := by
  constructor
  · exact unnoticed.cursor
  · rw [shown_putCharPos, shown_putCharPos]
    exact unnoticed.beside.apply _

theorem unnoticed_setCursor (unnoticed : Unnoticed display console other)
    (cursor : CursorPosition) :
    Unnoticed display { console with cursorPos := cursor }
      { other with cursorPos := cursor } :=
  ⟨rfl, unnoticed.beside⟩

theorem unnoticed_outAddress (unnoticed : Unnoticed display console other)
    (high low : Byte) (address : Word) :
    Unnoticed display (outAddress high low address console)
      (outAddress high low address other) := by
  rw [outAddress, outAddress]
  repeat apply unnoticed_outbP
  exact unnoticed

theorem unnoticed_updateCursor (unnoticed : Unnoticed display console other) :
    Unnoticed display (updateCursor console) (updateCursor other) := by
  rw [updateCursor, updateCursor, unnoticed.cursor]
  have moved := unnoticed_outAddress unnoticed 0x0e#8 0x0f#8
    (cursorAddress other.cursorPos)
  split
  · exact unnoticed_outAddress moved _ _ _
  · exact moved

theorem unnoticed_putChar (unnoticed : Unnoticed display console other)
    (c : Byte) :
    Unnoticed display (putChar c console) (putChar c other) := by
  rw [putChar, putChar, unnoticed.cursor]
  apply unnoticed_updateCursor
  split
  · exact unnoticed_setCursor unnoticed _
  · split
    · exact unnoticed_setCursor unnoticed _
    · exact unnoticed_setCursor (unnoticed_putCharPos unnoticed _ _ _) _

theorem unnoticed_putStr (unnoticed : Unnoticed display console other)
    (str : List Byte) :
    Unnoticed display (putStr str console) (putStr str other) := by
  induction str generalizing console other with
  | nil => exact unnoticed
  | cons c str hypothesis => exact hypothesis (unnoticed_putChar unnoticed c)

theorem unnoticed_putStrPos (unnoticed : Unnoticed display console other)
    (str : List Byte) (x y : Byte) :
    Unnoticed display (putStrPos str x y console)
      (putStrPos str x y other) := by
  induction str generalizing console other x y with
  | nil => exact unnoticed
  | cons c str hypothesis =>
      have drawn := unnoticed_putCharPos unnoticed c x y
      rw [putStrPos, putStrPos]
      split
      · exact hypothesis unnoticed _ _
      · split
        · exact hypothesis unnoticed _ _
        · split
          · exact hypothesis drawn _ _
          · exact hypothesis drawn _ _

theorem unnoticed_dumpDigitsPos (unnoticed : Unnoticed display console other)
    (count : Nat) (val dumpDigit : Word) (y : Byte) :
    Unnoticed display (dumpDigitsPos count val dumpDigit y console)
      (dumpDigitsPos count val dumpDigit y other) := by
  induction count generalizing console other val dumpDigit with
  | zero => exact unnoticed
  | succ count hypothesis =>
      exact hypothesis (unnoticed_putCharPos unnoticed _ _ _) _ _

theorem unnoticed_dumpHex (unnoticed : Unnoticed display console other)
    (val numDigits : Word) :
    Unnoticed display (dumpHex val numDigits console)
      (dumpHex val numDigits other) := by
  rw [dumpHex, dumpHex, unnoticed.cursor, dumpDigits_eq, dumpDigits_eq,
    unnoticed.cursor]
  have drawn := unnoticed_dumpDigitsPos unnoticed numDigits.toNat val
    (other.cursorPos.x + numDigits - 1#32) (narrow other.cursorPos.y)
  apply unnoticed_updateCursor
  rw [drawn.cursor]
  exact unnoticed_setCursor drawn _

theorem unnoticed_eraseChar (unnoticed : Unnoticed display console other) :
    Unnoticed display (eraseChar console) (eraseChar other) := by
  rw [eraseChar, eraseChar, unnoticed.cursor]
  have moved := unnoticed_updateCursor (unnoticed_setCursor unnoticed
    { other.cursorPos with x := other.cursorPos.x - 1#32 })
  dsimp only
  rw [moved.cursor]
  exact unnoticed_putCharPos moved _ _ _

theorem unnoticed_perform (unnoticed : Unnoticed display console other)
    (operation : Operation) :
    Unnoticed display (perform console operation)
      (perform other operation) := by
  cases operation with
  | putChar c => exact unnoticed_putChar unnoticed c
  | putStr str => exact unnoticed_putStr unnoticed str
  | dumpHex val numDigits => exact unnoticed_dumpHex unnoticed val numDigits
  | printk fmt arguments =>
      rw [perform, perform, printk_eq, printk_eq]
      exact unnoticed_putStr unnoticed _

theorem unnoticed_shutdown (unnoticed : Unnoticed display console other) :
    Unnoticed display (shutdown console) (shutdown other) := by
  rw [shutdown, shutdown]
  generalize shutdownBytes = bytes
  induction bytes generalizing console other with
  | nil => exact unnoticed
  | cons value bytes hypothesis =>
      exact hypothesis (unnoticed_outbP unnoticed value 0x8900#16)

theorem unnoticed_drawCall (unnoticed : Unnoticed display console other)
    (caller : Caller) (call : Call) :
    Unnoticed display (drawCall caller call console)
      (drawCall caller call other) := by
  rw [drawCall, drawCall]
  split
  next called _ =>
    cases called with
    | putStr str => exact unnoticed_putStr unnoticed _
    | putStrPos str x y => exact unnoticed_putStrPos unnoticed _ x y
    | dumpHex val numDigits => exact unnoticed_dumpHex unnoticed val numDigits
    | dumpHexPos val numDigits x y =>
        exact unnoticed_dumpDigitsPos unnoticed _ _ _ _
    | shutdown => exact unnoticed_shutdown unnoticed
    | _ => exact unnoticed
  next => exact unnoticed

/-- Whatever the others draw depends on the cursor only. -/
theorem unnoticed_draw (unnoticed : Unnoticed display console other)
    (turn : Turn) :
    Unnoticed display (turn.draw console) (turn.draw other) := by
  cases turn with
  | event event => exact unnoticed
  | syscall caller call => exact unnoticed_drawCall unnoticed caller call
  | key pressed =>
      cases pressed with
      | char c => exact unnoticed_putChar unnoticed c
      | newline =>
          exact unnoticed_putChar (unnoticed_putChar unnoticed _) _
      | backspace => exact unnoticed_eraseChar unnoticed
  | print operation => exact unnoticed_perform unnoticed operation
  | uptime => exact unnoticed

end Unnoticed

/-! ## The clock cannot be noticed -/

/-- A row of characters which are not for control. -/
def Plain (str : List Byte) : Prop :=
  ∀ c ∈ str, c ≠ carriageReturn ∧ c ≠ newline

theorem putStrPos_plain {c x : Byte} {str : List Byte} (y : Byte)
    (console : ConsoleState) (plain : Plain (c :: str))
    (fits : x.toNat + (c :: str).length ≤ columns) :
    Plain str ∧ (x + 1#8).toNat = x.toNat + 1 ∧
      putStrPos (c :: str) x y console =
        putStrPos str (x + 1#8) y (putCharPos c x y console) := by
  have here := plain c List.mem_cons_self
  rw [List.length_cons, columns] at fits
  refine ⟨fun other member => plain other (List.mem_cons_of_mem _ member),
    ?_, ?_⟩
  · rw [BitVec.toNat_add]
    change (x.toNat + 1) % 256 = x.toNat + 1
    omega
  · rw [putStrPos, if_neg here.1, if_neg here.2, columns]
    split
    next => rfl
    next atEnd =>
      have nothing : str = [] := List.length_eq_zero_iff.mp (by omega)
      rw [nothing]
      rfl

section Clock

variable {display : Display} {console other : ConsoleState} {x y : Byte}
  {layout : Layout} {caller : Caller} {label : Word}
  {state next last : State} {turn : Turn} {turns : List Turn}

/-- A character in the columns of the clock. -/
theorem unnoticed_clockChar (unnoticed : Unnoticed display console other)
    (c : Byte) (first : 69 ≤ x.toNat) (inRow : x.toNat < columns) :
    Unnoticed display (putCharPos c x y console) other := by
  constructor
  · exact unnoticed.cursor
  · rw [shown_putCharPos]
    constructor
    · exact unnoticed.beside.index
    · exact unnoticed.beside.registers
    · intro address outside
      have stored := Memory.store16_agreeOutside
        (shown display console).memory (cellAddress x y) (cellValue c)
      refine (stored address ?_).trans (unnoticed.beside.memory address outside)
      by_contra inside
      apply outside
      rw [columns] at inRow
      rw [cellAddress, columns] at inside
      rw [ClockByte, columns]
      have start : screenStart = 0xb8000 := rfl
      constructor
      · omega
      · have cell : (address - screenStart) / 2 = y.toNat * 80 + x.toNat := by
          omega
        omega

theorem unnoticed_clockText (unnoticed : Unnoticed display console other)
    {str : List Byte} (y : Byte) (plain : Plain str) (first : 69 ≤ x.toNat)
    (fits : x.toNat + str.length ≤ columns) :
    Unnoticed display (putStrPos str x y console) other := by
  induction str generalizing console x with
  | nil => exact unnoticed
  | cons c str hypothesis =>
      rcases putStrPos_plain y console plain fits with ⟨later, right, drawn⟩
      rw [List.length_cons] at fits
      rw [drawn]
      apply hypothesis _ later
      · omega
      · omega
      · exact unnoticed_clockChar unnoticed c first (by omega)

theorem labelText_plain : Plain labelText := by
  unfold Plain labelText
  decide

theorem unnoticed_label (unnoticed : Unnoticed display console other)
    (y : Byte) :
    Unnoticed display (putStrPos labelText 69#8 y console) other :=
  unnoticed_clockText unnoticed y labelText_plain (by decide) (by decide)

theorem unnoticed_clockDigits (unnoticed : Unnoticed display console other)
    {count : Nat} (val : Word) {dumpDigit : Word} (y : Byte)
    (first : 69 + count ≤ dumpDigit.toNat + 1)
    (inRow : dumpDigit.toNat < columns) :
    Unnoticed display (dumpDigitsPos count val dumpDigit y console) other := by
  induction count generalizing console val dumpDigit with
  | zero => exact unnoticed
  | succ count hypothesis =>
      rw [columns] at inRow
      have column : (narrow dumpDigit).toNat = dumpDigit.toNat := by
        rw [narrow_toNat]
        omega
      have left : (dumpDigit - 1#32).toNat = dumpDigit.toNat - 1 := by
        rw [BitVec.toNat_sub]
        change (4294967295 + dumpDigit.toNat) % 4294967296 = _
        omega
      rw [dumpDigitsPos]
      apply hypothesis
      · apply unnoticed_clockChar unnoticed
        · omega
        · rw [column, columns]
          exact inRow
      · omega
      · rw [columns]
        omega

theorem unnoticed_digits (unnoticed : Unnoticed display console other)
    (uptime : Word) (y : Byte) :
    Unnoticed display (dumpHexPos uptime 4#32 76#8 y console) other :=
  unnoticed_clockDigits unnoticed uptime y (by decide) (by decide)

/-- The loop has read a row which leaves the digits in their column. -/
def Reads (loop : Loop) : Prop :=
  loop.point = .label ∨ loop.point = .digits →
    digitsColumn loop.cursorPosY = 76#8

theorem label_console {system after : System} {loop : Loop} {result : Word}
    (text : caller.str label = labelText) (atLabel : loop.point = .label)
    (done : DoSyscall layout caller system (loop.call label) result after) :
    after.console =
      putStrPos labelText 69#8 (narrow (textRow loop.cursorPosY))
        system.console := by
  rw [done.console, drawCall, service_label atLabel, ← text]
  rfl

theorem digits_console {system after : System} {loop : Loop} {result : Word}
    (atDigits : loop.point = .digits)
    (placed : digitsColumn loop.cursorPosY = 76#8)
    (done : DoSyscall layout caller system (loop.call label) result after) :
    after.console =
      dumpHexPos loop.uptime 4#32 76#8 (narrow (textRow loop.cursorPosY))
        system.console := by
  rw [done.console, drawCall, service_digits atDigits, placed]
  rfl

/-- A step of the loop. -/
theorem unnoticed_uptime {result : Word} {after : System}
    (text : caller.str label = labelText)
    (unnoticed : Unnoticed display state.system.console other)
    (reads : Reads state.loop)
    (done : DoSyscall layout caller state.system (state.loop.call label)
      result after) :
    Unnoticed display after.console other := by
  cases point : state.loop.point with
  | label =>
      rw [label_console text point done]
      exact unnoticed_label unnoticed _
  | digits =>
      rw [digits_console point (reads (.inr point)) done]
      exact unnoticed_digits unnoticed _ _
  | _ =>
      rw [done.console, drawCall, Loop.call, point]
      exact unnoticed

/-- The row that the loop gets is the one of the cursor. -/
theorem reads_resume {result : Word} {after : System}
    (placed : digitsColumn state.system.console.cursorPos.y = 76#8)
    (reads : Reads state.loop)
    (done : DoSyscall layout caller state.system (state.loop.call label)
      result after) :
    Reads (state.loop.resume result) := by
  intro drawing
  cases point : state.loop.point with
  | row =>
      have got := done.cursorPosY (service_row point)
      rw [Loop.resume, point, got.1]
      exact placed
  | label =>
      have kept := reads (.inl point)
      rw [Loop.resume, point]
      exact kept
  | _ =>
      rw [Loop.resume, point] at drawing
      rcases drawing with atLabel | atDigits
      · cases atLabel
      · cases atDigits

theorem unnoticed_takes (text : caller.str label = labelText)
    (unnoticed : Unnoticed display state.system.console other)
    (reads : Reads state.loop)
    (placed : digitsColumn other.cursorPos.y = 76#8)
    (takes : Takes layout caller label state turn next) :
    Unnoticed display next.system.console (turn.draw other) ∧
      Reads next.loop := by
  cases takes with
  | event taken => exact ⟨unnoticed, reads⟩
  | syscall done =>
      constructor
      · dsimp only
        rw [done.console]
        exact unnoticed_drawCall unnoticed _ _
      · exact reads
  | key pressed => exact ⟨unnoticed_draw unnoticed (.key pressed), reads⟩
  | print operation => exact ⟨unnoticed_perform unnoticed operation, reads⟩
  | uptime done =>
      constructor
      · exact unnoticed_uptime text unnoticed reads done
      · rw [← unnoticed.cursor] at placed
        exact reads_resume placed reads done

/-- The console as it is without the clock, as far as a run has come. -/
theorem run_unnoticed (text : caller.str label = labelText)
    (unnoticed : Unnoticed display state.system.console other)
    (reads : Reads state.loop)
    (placed : ∀ before, before <+: turns →
      digitsColumn (alone before other).cursorPos.y = 76#8)
    (run : Run layout caller label state turns last) :
    Unnoticed display last.system.console (alone turns other) := by
  induction run generalizing other with
  | nil state => exact unnoticed
  | cons takes rest hypothesis =>
      have here := placed [] List.nil_prefix
      have step := unnoticed_takes text unnoticed reads here takes
      apply hypothesis step.1 step.2
      intro before early
      exact placed (_ :: before) (List.cons_prefix_cons.mpr ⟨rfl, early⟩)

/--
Whatever the others do, the cursor, the CRT controller and all cells beside the
columns of the clock are as if there were no clock.
-/
theorem clock_unnoticed (display : Display)
    (text : caller.str label = labelText)
    (start : state.loop.point = .counter)
    (placed : ∀ before, before <+: turns →
      digitsColumn (alone before state.system.console).cursorPos.y = 76#8)
    (run : Run layout caller label state turns last) :
    Unnoticed display last.system.console
      (alone turns state.system.console) := by
  apply run_unnoticed text (unnoticed_refl display _) _ placed run
  rw [Reads, start]
  rintro (atLabel | atDigits)
  · cases atLabel
  · cases atDigits

end Clock

/-! ## The text of the clock -/

/-- The digits from `dump_hex_pos`, as a number is written. -/
def hexLetter (digit : Nat) : Byte :=
  BitVec.ofNat 8 (if digit < 10 then 48 + digit else 55 + digit)

/-- The last digits of a number, the lowest one at the end. -/
def hexLetters (count number : Nat) : List Byte :=
  (List.range count).reverse.map fun place =>
    hexLetter (number / 16 ^ place % 16)

section Text

variable {display : Display} {console : ConsoleState} {memory : Memory}
  {x y column : Byte} {count : Nat} {str : List Byte}

theorem hexDigit_eq {digit : Nat} (small : digit < 16) :
    hexDigit (BitVec.ofNat 8 digit) = hexLetter digit := by
  revert digit
  decide

theorem hexLetters_succ (count number : Nat) :
    hexLetters (count + 1) number =
      hexLetters count (number / 16) ++ [hexLetter (number % 16)] := by
  have shifted : ∀ place,
      number / 16 / 16 ^ place % 16 = number / 16 ^ (place + 1) % 16 := by
    intro place
    rw [Nat.div_div_eq_div_mul, ← pow_succ']
  simp only [hexLetters, List.range_succ_eq_map, List.reverse_cons,
    List.map_append, List.map_reverse, List.map_map, Function.comp_def,
    shifted, Nat.succ_eq_add_one, List.map_cons, List.map_nil, pow_zero,
    Nat.div_one]

theorem dumpedDigits_eq (count : Nat) (val : Word) :
    dumpedDigits count val = hexLetters count val.toNat := by
  induction count generalizing val with
  | zero => rfl
  | succ count hypothesis =>
      have digit : (val &&& 0x0f#32).setWidth 8 =
          BitVec.ofNat 8 (val.toNat % 16) := by
        apply BitVec.eq_of_toNat_eq
        rw [BitVec.toNat_setWidth, BitVec.toNat_and, BitVec.toNat_ofNat]
        exact congrArg (· % 2 ^ 8) (Nat.and_two_pow_sub_one_eq_mod val.toNat 4)
      rw [dumpedDigits, hypothesis, digit,
        hexDigit_eq (Nat.mod_lt _ (by decide)), hexLetters_succ,
        BitVec.toNat_ushiftRight, Nat.shiftRight_eq_div_pow]

theorem charactersAt_add (memory : Memory) (x : Word) (y : Byte)
    (count more : Nat) :
    charactersAt memory x y (count + more) =
      charactersAt memory x y count ++
        charactersAt memory (x + BitVec.ofNat 32 count) y more := by
  simp only [charactersAt, List.range_add, List.map_append, List.map_map,
    Function.comp_def, BitVec.ofNat_add, BitVec.add_assoc]

/-- A text does not change the columns in front of it. -/
theorem putStrPos_kept (plain : Plain str) (before : column.toNat < x.toNat)
    (fits : x.toNat + str.length ≤ columns) :
    (shown display (putStrPos str x y console)).memory (cellAddress column y) =
      (shown display console).memory (cellAddress column y) := by
  induction str generalizing console x with
  | nil => rfl
  | cons c str hypothesis =>
      rcases putStrPos_plain y console plain fits with ⟨later, right, drawn⟩
      rw [List.length_cons] at fits
      have different : column ≠ x := by
        rintro rfl
        exact Nat.lt_irrefl _ before
      rw [drawn, hypothesis later (by omega) (by omega),
        memory_putCharPos_column, if_neg different]

theorem charactersAt_putStrPos (plain : Plain str)
    (fits : x.toNat + str.length ≤ columns) :
    charactersAt (shown display (putStrPos str x y console)).memory
        (x.setWidth 32) y str.length =
      str := by
  induction str generalizing console x with
  | nil => rfl
  | cons c str hypothesis =>
      rcases putStrPos_plain y console plain fits with ⟨later, right, drawn⟩
      rw [List.length_cons] at fits ⊢
      have rest := @hypothesis (putCharPos c x y console) (x + 1#8) later
        (by omega)
      have start : narrow (x.setWidth 32 + BitVec.ofNat 32 0) = x := by
        rw [BitVec.add_zero, narrow,
          BitVec.setWidth_setWidth_of_le x (by decide), BitVec.setWidth_eq]
      have next : (x + 1#8).setWidth 32 =
          x.setWidth 32 + BitVec.ofNat 32 1 := by
        apply BitVec.eq_of_toNat_eq
        rw [BitVec.toNat_setWidth, right, BitVec.toNat_add,
          BitVec.toNat_setWidth, BitVec.toNat_ofNat]
        have bound := x.isLt
        omega
      rw [drawn, Nat.add_comm, charactersAt_add, ← next, rest]
      rw [charactersAt, List.range_one, List.map_singleton, start,
        putStrPos_kept later (by omega) (by omega),
        memory_putCharPos_column, if_pos rfl]
      rfl

/-- The digits do not change the columns which they do not take. -/
theorem dumpDigitsPos_beside {val dumpDigit : Word}
    (beside : ∀ back < count,
      column ≠ narrow (dumpDigit - BitVec.ofNat 32 back)) :
    (shown display (dumpDigitsPos count val dumpDigit y console)).memory
        (cellAddress column y) =
      (shown display console).memory (cellAddress column y) := by
  induction count generalizing console val dumpDigit with
  | zero => rfl
  | succ count hypothesis =>
      have here := beside 0 (Nat.succ_pos count)
      rw [BitVec.sub_zero] at here
      rw [dumpDigitsPos, hypothesis, memory_putCharPos_column, if_neg here]
      intro back below
      have next := beside (back + 1) (Nat.succ_lt_succ below)
      rw [BitVec.ofNat_add, BitVec.add_comm, ← BitVec.sub_sub] at next
      exact next

end Text

/-! ## The first row of the screen -/

/-- The CRT controller shows the rows up to the cursor. -/
structure InLine (display : Display) (console : ConsoleState) : Prop where
  scrolled : Scrolled (startNow display console) console.cursorPos.y

section Rows

variable {display : Display} {console : ConsoleState} {start : Nat} {y : Word}
  {layout : Layout} {caller : Caller} {label : Word} {state last : State}
  {turns : List Turn}

theorem inLine_putCharPos (inLine : InLine display console) (c x y : Byte) :
    InLine display (putCharPos c x y console) := by
  constructor
  rw [startNow_putCharPos]
  exact inLine.scrolled

theorem inLine_draws (inLine : InLine display console)
    (drawings : List Drawing) :
    InLine display (drawings.foldl draw console) := by
  induction drawings generalizing console with
  | nil => exact inLine
  | cons drawing drawings hypothesis =>
      exact hypothesis ⟨(draw_spec drawing inLine.scrolled).1⟩

theorem inLine_perform (inLine : InLine display console)
    (operation : Operation) : InLine display (perform console operation) := by
  rw [perform_eq]
  exact inLine_draws inLine _

theorem inLine_putStrPos (inLine : InLine display console) (str : List Byte)
    (x y : Byte) : InLine display (putStrPos str x y console) := by
  induction str generalizing console x y with
  | nil => exact inLine
  | cons c str hypothesis =>
      have drawn := inLine_putCharPos inLine c x y
      rw [putStrPos]
      split
      · exact hypothesis inLine _ _
      · split
        · exact hypothesis inLine _ _
        · split
          · exact hypothesis drawn _ _
          · exact hypothesis drawn _ _

theorem inLine_dumpDigitsPos (inLine : InLine display console) (count : Nat)
    (val dumpDigit : Word) (y : Byte) :
    InLine display (dumpDigitsPos count val dumpDigit y console) := by
  induction count generalizing console val dumpDigit with
  | zero => exact inLine
  | succ count hypothesis =>
      exact hypothesis (inLine_putCharPos inLine _ _ _) _ _

theorem inLine_eraseChar (inLine : InLine display console) :
    InLine display (eraseChar console) := by
  rw [eraseChar]
  apply inLine_putCharPos
  exact ⟨scrolled_updateCursor inLine.scrolled (.inl rfl)⟩

/-- The port of the shutdown is not one of the controller. -/
theorem inLine_shutdown (inLine : InLine display console) :
    InLine display (shutdown console) := by
  rw [shutdown]
  generalize shutdownBytes = bytes
  induction bytes generalizing console with
  | nil => exact inLine
  | cons value bytes hypothesis =>
      apply hypothesis
      constructor
      rw [startNow, shown_outbP]
      exact inLine.scrolled

theorem inLine_drawCall (inLine : InLine display console) (caller : Caller)
    (call : Call) : InLine display (drawCall caller call console) := by
  rw [drawCall]
  split
  next called _ =>
    cases called with
    | putStr str => exact inLine_perform inLine (.putStr _)
    | putStrPos str x y => exact inLine_putStrPos inLine _ x y
    | dumpHex val numDigits =>
        exact inLine_perform inLine (.dumpHex val numDigits)
    | dumpHexPos val numDigits x y =>
        exact inLine_dumpDigitsPos inLine _ _ _ _
    | shutdown => exact inLine_shutdown inLine
    | _ => exact inLine
  next => exact inLine

theorem inLine_takes {turn : Turn} {next : State}
    (inLine : InLine display state.system.console)
    (takes : Takes layout caller label state turn next) :
    InLine display next.system.console := by
  cases takes with
  | event taken => exact inLine
  | syscall done =>
      dsimp only
      rw [done.console]
      exact inLine_drawCall inLine _ _
  | key pressed =>
      cases pressed with
      | char c => exact inLine_perform inLine (.putChar c)
      | newline =>
          exact inLine_perform (inLine_perform inLine (.putChar newline))
            (.putChar carriageReturn)
      | backspace => exact inLine_eraseChar inLine
  | print operation => exact inLine_perform inLine operation
  | uptime done =>
      dsimp only
      rw [done.console]
      exact inLine_drawCall inLine _ _

theorem inLine_run (inLine : InLine display state.system.console)
    (run : Run layout caller label state turns last) :
    InLine display last.system.console := by
  induction run with
  | nil state => exact inLine
  | cons takes rest hypothesis => exact hypothesis (inLine_takes inLine takes)

/-- A row in eight bits, and a row of the address counter of the controller. -/
theorem sameRow_iff (row : Nat) :
    80 * (row % 256) = 80 * row % 65536 ↔ row % 4096 < 256 := by
  have turns : row % 4096 = 256 * (row / 256 % 16) + row % 256 := by
    omega
  have address : 80 * row % 65536 =
      (20480 * (row / 256 % 16) + 80 * (row % 256)) % 65536 := by
    omega
  have few : row / 256 % 16 < 16 := Nat.mod_lt _ (by decide)
  have low : row % 256 < 256 := Nat.mod_lt _ (by decide)
  rw [turns, address]
  generalize row / 256 % 16 = pages at few ⊢
  generalize row % 256 = rest at low ⊢
  constructor
  · intro same
    have noPage : pages = 0 := by
      omega
    omega
  · intro early
    have noPage : pages = 0 := by
      omega
    rw [noPage]
    omega

/-- Where the row of the clock is the first one on the screen. -/
theorem firstRow_iff (scrolled : Scrolled start y) :
    80 * (narrow (textRow y)).toNat = start ↔
      if rows ≤ y.toNat then (y.toNat - 24) % 4096 < 256 else start = 0 := by
  have bound := y.isLt
  have near : y < BitVec.ofNat 32 rows ↔ ¬rows ≤ y.toNat := by
    rw [BitVec.lt_def, Nat.not_le]
    rfl
  rw [narrow_toNat, textRow]
  rw [Scrolled] at scrolled
  by_cases far : rows ≤ y.toNat
  · have row : (y - BitVec.ofNat 32 rows + 1#32).toNat = y.toNat - 24 := by
      rw [rows] at far
      simp only [BitVec.toNat_add, BitVec.toNat_sub, BitVec.toNat_ofNat, rows]
      omega
    rw [if_pos far] at scrolled
    rw [if_neg (fun before => near.mp before far), if_pos far, row, scrolled]
    exact sameRow_iff _
  · rw [if_pos (near.mpr far), if_neg far]
    exact eq_comm

end Rows

/-! ## A round of the loop -/

section Round

variable {display : Display} {console : ConsoleState} {layout : Layout}
  {caller : Caller} {label : Word} {state counting last : State}
  {turns more first second third : List Turn}

theorem Run.split (run : Run layout caller label state (turns ++ more) last) :
    ∃ middle, Run layout caller label state turns middle ∧
      Run layout caller label middle more last := by
  induction turns generalizing state with
  | nil => exact ⟨state, .nil state, run⟩
  | cons turn turns hypothesis =>
      cases run with
      | cons takes rest =>
          rcases hypothesis rest with ⟨middle, front, back⟩
          exact ⟨middle, .cons takes front, back⟩

/-- The others leave the loop where it is. -/
theorem Run.others (others : ∀ turn ∈ turns, turn ≠ .uptime)
    (run : Run layout caller label state turns last) :
    last.loop = state.loop ∧
      last.system.console = alone turns state.system.console := by
  induction run with
  | nil state => exact ⟨rfl, rfl⟩
  | cons takes rest hypothesis =>
      have here := others _ List.mem_cons_self
      have later := hypothesis fun turn member =>
        others turn (List.mem_cons_of_mem _ member)
      cases takes with
      | syscall done =>
          rw [later.1, later.2]
          dsimp only
          rw [done.console]
          exact ⟨rfl, rfl⟩
      | uptime done => exact absurd rfl here
      | _ => exact later

/-- A step of the loop, and the others until its next one. -/
theorem Run.uptime (others : ∀ turn ∈ turns, turn ≠ .uptime)
    (run : Run layout caller label state (.uptime :: turns) last) :
    ∃ result after,
      DoSyscall layout caller state.system (state.loop.call label) result
        after ∧
      last.loop = state.loop.resume result ∧
      last.system.console = alone turns after.console := by
  cases run with
  | cons takes rest =>
      cases takes with
      | uptime done =>
          have kept := rest.others others
          exact ⟨_, _, done, kept.1, kept.2⟩

/-- The label and the digits of a round. -/
theorem charactersAt_clock (val : Word) {row : Byte}
    (spared : charactersAt (shown display console).memory 69#32 row 7 =
      labelText) :
    charactersAt (shown display (dumpHexPos val 4#32 76#8 row console)).memory
        69#32 row 11 =
      labelText ++ hexLetters 4 val.toNat := by
  have label : charactersAt
      (shown display (dumpHexPos val 4#32 76#8 row console)).memory 69#32 row
      7 = labelText := by
    rw [← spared]
    apply List.map_congr_left
    intro index below
    rw [List.mem_range] at below
    apply dumpDigitsPos_beside
    intro back few
    revert index back
    decide
  have digits : charactersAt
      (shown display (dumpHexPos val 4#32 76#8 row console)).memory
      (69#32 + BitVec.ofNat 32 7) row 4 =
      dumpedDigits 4 val :=
    charactersAt_dumpHexPos 76#8 (by decide)
  rw [charactersAt_add _ 69#32 row 7 4, label, digits, dumpedDigits_eq]

/-- A round, with what the others do between its calls. -/
structure Round (layout : Layout) (caller : Caller) (label : Word)
    (counting last : State) (first second third : List Turn) : Prop where
  start : counting.loop.point = .counter
  firstOthers : ∀ turn ∈ first, turn ≠ .uptime
  secondOthers : ∀ turn ∈ second, turn ≠ .uptime
  thirdOthers : ∀ turn ∈ third, turn ≠ .uptime
  run : Run layout caller label counting
    (.uptime :: first ++ .uptime :: second ++ .uptime :: third ++ [.uptime])
    last

/-- The first call of a round, up to the one for the row. -/
theorem Round.asks
    (round : Round layout caller label counting last first second third) :
    ∃ reading,
      Run layout caller label counting (.uptime :: first) reading ∧
      reading.loop =
        { counting.loop with
          uptime := counting.system.machine.globalCounter / 1000#32
          point := .row } ∧
      reading.system.console = alone first counting.system.console ∧
      Run layout caller label reading
        (.uptime :: second ++ .uptime :: third ++ [.uptime]) last := by
  have run := round.run
  rw [List.append_assoc, List.append_assoc] at run
  rcases run.split with ⟨reading, counter, rest⟩
  rcases counter.uptime round.firstOthers with ⟨_, _, counted, loop, drawn⟩
  rcases counted.timerGetGlobalCounter (service_counter round.start) with
    ⟨rfl, rfl⟩
  rw [Loop.resume, round.start] at loop
  rw [← List.append_assoc] at rest
  exact ⟨reading, counter, loop, drawn, rest⟩

/-- What the calls of a round draw. -/
theorem Round.draws {read : ConsoleState}
    (text : caller.str label = labelText)
    (asked : read = alone first counting.system.console)
    (placed : digitsColumn read.cursorPos.y = 76#8)
    (round : Round layout caller label counting last first second third) :
    last.system.console =
      dumpHexPos (counting.system.machine.globalCounter / 1000#32) 4#32 76#8
        (narrow (textRow read.cursorPos.y))
        (alone third
          (putStrPos labelText 69#8 (narrow (textRow read.cursorPos.y))
            (alone second read))) := by
  rcases round.asks with ⟨reading, _, loop, console, run⟩
  rw [← asked] at console
  rcases run.split with ⟨dumping, run, digits⟩
  rcases run.split with ⟨labelling, row, label⟩
  have atRow : reading.loop.point = .row := congrArg Loop.point loop
  have counted : reading.loop.uptime =
      counting.system.machine.globalCounter / 1000#32 :=
    congrArg Loop.uptime loop
  rcases row.uptime round.secondOthers with ⟨_, _, got, loop, drawn⟩
  rcases got.cursorPosY (service_row atRow) with ⟨rfl, rfl⟩
  rw [Loop.resume, atRow] at loop
  rw [console] at drawn loop
  have atLabel : labelling.loop.point = .label := congrArg Loop.point loop
  have rowRead : labelling.loop.cursorPosY = read.cursorPos.y :=
    congrArg Loop.cursorPosY loop
  have uptimeRead : labelling.loop.uptime = reading.loop.uptime := by
    rw [loop]
  rcases label.uptime round.thirdOthers with ⟨_, _, wrote, loop, others⟩
  rw [label_console text atLabel wrote, rowRead, drawn] at others
  rw [Loop.resume, atLabel] at loop
  have atDigits : dumping.loop.point = .digits := congrArg Loop.point loop
  have rowKept : dumping.loop.cursorPosY = read.cursorPos.y :=
    (congrArg Loop.cursorPosY loop).trans rowRead
  have uptimeKept : dumping.loop.uptime = reading.loop.uptime :=
    (congrArg Loop.uptime loop).trans uptimeRead
  rcases digits.uptime (fun _ absent => by cases absent) with
    ⟨_, _, dumped, _, finished⟩
  rw [← rowKept] at placed
  have dumps := digits_console atDigits placed dumped
  rw [others, rowKept, uptimeKept, counted] at dumps
  exact finished.trans dumps

/--
A round of the loop shows the uptime in seconds, if the others leave the label
alone.  Its row is the first one that the screen had when the loop asked for
the row of the cursor, in the first 256 of every 4096 rows.
-/
theorem clock_shows {read : ConsoleState} {row : Byte}
    (text : caller.str label = labelText)
    (unscrolled : display.startAddress = 0)
    (boot : state.system.console = bootConsole)
    (earlier : Run layout caller label state turns counting)
    (round : Round layout caller label counting last first second third)
    (asked : read = alone first counting.system.console)
    (placed : digitsColumn read.cursorPos.y = 76#8)
    (atRow : row = narrow (textRow read.cursorPos.y))
    (spared : charactersAt
      (shown display
        (alone third
          (putStrPos labelText 69#8 row (alone second read)))).memory
      69#32 row 7 = labelText) :
    charactersAt (shown display last.system.console).memory 69#32 row 11 =
      labelText ++
        hexLetters 4 (counting.system.machine.globalCounter.toNat / 1000) ∧
    (80 * row.toNat = startNow display read ↔
      if rows ≤ read.cursorPos.y.toNat then
        (read.cursorPos.y.toNat - 24) % 4096 < 256
      else startNow display read = 0) := by
  constructor
  · rw [atRow] at spared
    have shows := charactersAt_clock
      (counting.system.machine.globalCounter / 1000#32) spared
    rw [round.draws text asked placed, atRow, shows]
    rfl
  · rcases round.asks with ⟨reading, run, _, console, _⟩
    have started : InLine display state.system.console := by
      rw [boot]
      exact ⟨scrolled_boot unscrolled⟩
    have inLine := inLine_run (inLine_run started earlier) run
    rw [console, ← asked] at inLine
    rw [atRow]
    exact firstRow_iff inLine.scrolled

end Round

/-! ## A sample round -/

/-- The clock has been started, and it is its turn. -/
def sampleState : State where
  system :=
    { machine := boot Layout.sample fun _ => 0#8
      console := bootConsole }
  loop := { point := .counter, uptime := 0#32, cursorPosY := 0#32 }

def sampleCaller : Caller where
  str _ := labelText
  fsOpen _ := 0#32
  fileAt _ := none

section Sample

variable {layout : Layout} {caller : Caller} {label : Word} {state : State}
  {called : Service} {result : Word} {after : System}

theorem takes_uptime (asked : service (state.loop.call label) = some called)
    (served : Serves layout caller state.system called result after) :
    Takes layout caller label state .uptime
      { system := after, loop := state.loop.resume result } :=
  .uptime (.serves asked served)

/-- A key is echoed between the second and the third call. -/
theorem sample_round :
    ∃ last : State, Round Layout.sample sampleCaller 0#32 sampleState last []
      [.key (.char 97#8)] [] := by
  have run : ∃ last : State, Run Layout.sample sampleCaller 0#32 sampleState
      [.uptime, .uptime, .key (.char 97#8), .uptime, .uptime] last :=
    ⟨_, .cons (takes_uptime rfl .timerGetGlobalCounter)
      (.cons (takes_uptime rfl .cursorPosY)
        (.cons (.key (.char 97#8))
          (.cons (takes_uptime rfl (.putStrPos _ _ _))
            (.cons (takes_uptime rfl (.dumpHexPos _ _ _ _)) (.nil _)))))⟩
  rcases run with ⟨last, run⟩
  refine ⟨last, rfl, ?_, ?_, ?_, run⟩
  · exact fun _ absent => by cases absent
  · simp
  · exact fun _ absent => by cases absent

end Sample

theorem clock_shows_zero :
    ∃ last : State,
      charactersAt (shown blankDisplay last.system.console).memory 69#32 0#8
        11 = labelText ++ [48#8, 48#8, 48#8, 48#8] := by
  rcases sample_round with ⟨last, round⟩
  have unscrolled : blankDisplay.startAddress = 0 := by decide
  have shows := clock_shows rfl unscrolled rfl (.nil sampleState) round rfl
    (by decide) rfl (charactersAt_putStrPos labelText_plain (by decide))
  exact ⟨last, shows.1⟩

/-- The turns of the sample round. -/
def sampleTurns : List Turn :=
  [.uptime, .uptime, .key (.char 97#8), .uptime, .uptime]

theorem clock_unnoticed_key :
    ∃ last : State, Unnoticed blankDisplay last.system.console
      (alone sampleTurns bootConsole) := by
  rcases sample_round with ⟨last, round⟩
  have run : Run Layout.sample sampleCaller 0#32 sampleState sampleTurns
      last :=
    round.run
  have placed : ∀ before ∈ sampleTurns.inits,
      digitsColumn (alone before bootConsole).cursorPos.y = 76#8 := by
    decide
  have early : ∀ before, before <+: sampleTurns →
      digitsColumn (alone before sampleState.system.console).cursorPos.y =
        76#8 :=
    fun before early => placed before ((List.mem_inits _ _).mpr early)
  exact ⟨last, clock_unnoticed blankDisplay rfl rfl early run⟩

end MagicalOs.Apps.Uptime
