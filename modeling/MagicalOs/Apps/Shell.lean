import MagicalOs.Apps.ShellStrings
import MagicalOs.Console.LineInput

/-!
# The shell

One round of `shell_main` reads a line, splits it, and hands the arguments to
the handler of the command.  What a handler asks of the machine is listed; what
it stores in its arrays is checked.

The arrays are on the stack and not initialised, so a round works for every
content of theirs.
-/

namespace MagicalOs.Apps.Shell

open MagicalOs.Library.ByteMemory
open MagicalOs.Library.CString
open MagicalOs.Apps.ShellStrings
open MagicalOs.Console.Screen
open MagicalOs.Console.LineInput

/-! ## Arrays and requests -/

/-- A `char` array with its size. -/
structure CharArray (size : Nat) where
  bytes : List Byte
  length : bytes.length = size

/-- The arrays of the handlers that read. -/
structure ReadArrays where
  first : CharArray 128
  other : CharArray 128

/-- The arrays of the handlers that write. -/
structure WriteArrays where
  first : CharArray 16
  second : CharArray 32
  other : CharArray 128
  other2 : CharArray 128

/-- `MAX_LINE_SIZE`. -/
def maxLineSize : Nat := 512

/-- The arrays of a round. -/
structure Arrays where
  buf : CharArray maxLineSize
  command : CharArray 256
  args : CharArray 256
  read : ReadArrays
  write : WriteArrays

/-- What the shell does outside its arrays. -/
inductive Request where
  | putStr (str : List Byte)
  | dumpByte (addr : Word)
  | dumpHalf (addr : Word)
  | dumpWord (addr : Word)
  | dumpPort (addr : Half)
  | storeByte (addr : Word) (data : Byte)
  | storeHalf (addr : Word) (data : Half)
  | storeWord (addr data : Word)
  | outPort (data : Byte) (addr : Half)
  | openFile (name : List Byte)
  | exec (fp : Word)
  | shutdown
  deriving DecidableEq

def ascii (c : Char) : Byte :=
  BitVec.ofNat 8 c.toNat

def crlf : List Byte := [13#8, 10#8]

def notFound : List Byte :=
  ['C', 'o', 'm', 'm', 'a', 'n', 'd', ' ', 'n', 'o', 't', ' ',
    'f', 'o', 'u', 'n', 'd', '.'].map ascii ++ crlf

def prompt : List Byte :=
  ['O', 'S', '5', '>', ' '].map ascii

/-! ## The handlers -/

/-- A handler that shows what is found at the address in its first word. -/
def readHandler (dump : Word → Request) (arrays : ReadArrays)
    (args : List Byte) : Except Fault (List Request) := do
  let (first, _) ← strGetFirstEntry args arrays.first.bytes arrays.other.bytes
  let addr ← strConvAhexInt first
  return [dump addr, .putStr crlf]

/-- A handler that stores its first word at the address in its second. -/
def writeHandler (put : Word → Word → Request) (arrays : WriteArrays)
    (args : List Byte) : Except Fault (List Request) := do
  let (first, other) ← strGetFirstEntry args arrays.first.bytes arrays.other.bytes
  let (second, _) ← strGetFirstEntry other arrays.second.bytes arrays.other2.bytes
  let data ← strConvAhexInt first
  let addr ← strConvAhexInt second
  return [put data addr]

def commandEcho (args : List Byte) : List Request :=
  [.putStr (text args), .putStr crlf]

def commandReadb : ReadArrays → List Byte → Except Fault (List Request) :=
  readHandler .dumpByte

def commandReadw : ReadArrays → List Byte → Except Fault (List Request) :=
  readHandler .dumpHalf

def commandReadl : ReadArrays → List Byte → Except Fault (List Request) :=
  readHandler .dumpWord

def commandIoreadb : ReadArrays → List Byte → Except Fault (List Request) :=
  readHandler fun addr => .dumpPort (addr.setWidth 16)

def commandWriteb : WriteArrays → List Byte → Except Fault (List Request) :=
  writeHandler fun data addr => .storeByte addr (data.setWidth 8)

def commandWritew : WriteArrays → List Byte → Except Fault (List Request) :=
  writeHandler fun data addr => .storeHalf addr (data.setWidth 16)

def commandWritel : WriteArrays → List Byte → Except Fault (List Request) :=
  writeHandler fun data addr => .storeWord addr data

def commandIowriteb : WriteArrays → List Byte → Except Fault (List Request) :=
  writeHandler fun data addr =>
    .outPort (data.setWidth 8) (addr.setWidth 16)

def commandTest : List Request :=
  [.putStr (['t', 'e', 's', 't'].map ascii ++ crlf)]

def commandShutdown : List Request :=
  [.shutdown]

/-! ## Commands -/

/-- `_COMMAND_SET`. -/
inductive CommandId where
  | echo
  | readb
  | readw
  | readl
  | ioreadb
  | writeb
  | writew
  | writel
  | iowriteb
  | test
  | commandNum
  | shutdown
  deriving DecidableEq

/-- The names in the order in which `get_command_id` compares them. -/
def commandNames : List (List Byte × CommandId) :=
  [(['e', 'c', 'h', 'o'].map ascii, .echo),
    (['r', 'e', 'a', 'd', 'b'].map ascii, .readb),
    (['r', 'e', 'a', 'd', 'w'].map ascii, .readw),
    (['r', 'e', 'a', 'd', 'l'].map ascii, .readl),
    (['i', 'o', 'r', 'e', 'a', 'd', 'b'].map ascii, .ioreadb),
    (['w', 'r', 'i', 't', 'e', 'b'].map ascii, .writeb),
    (['w', 'r', 'i', 't', 'e', 'w'].map ascii, .writew),
    (['w', 'r', 'i', 't', 'e', 'l'].map ascii, .writel),
    (['i', 'o', 'w', 'r', 'i', 't', 'e', 'b'].map ascii, .iowriteb),
    (['t', 'e', 's', 't'].map ascii, .test),
    (['s', 'h', 'u', 't', 'd', 'o', 'w', 'n'].map ascii, .shutdown)]

/-- Compare a command with one name after the other. -/
def findCommand (command : List Byte) :
    List (List Byte × CommandId) → Except Fault CommandId
  | [] => .ok .commandNum
  | (name, commandId) :: names => do
      let order ← strCompare command (name ++ [0#8])
      if order = 0 then return commandId else findCommand command names

def getCommandId (command : List Byte) : Except Fault CommandId :=
  findCommand command commandNames

/-- The `default` branch of `shell_main`: the name is taken for a file. -/
def execFile (fsOpen : List Byte → Word) (command : List Byte) :
    List Request :=
  let fp := fsOpen (text command)
  .openFile (text command) ::
    if fp ≠ 0#32 then [.exec fp] else [.putStr notFound]

/-- A round of `shell_main` behind `get_line`. -/
def dispatch (fsOpen : List Byte → Word) (arrays : Arrays) (buf : List Byte) :
    Except Fault (List Request) := do
  let (command, args) ←
    strGetFirstEntry buf arrays.command.bytes arrays.args.bytes
  let commandId ← getCommandId command
  match commandId with
  | .echo => return commandEcho args
  | .readb => commandReadb arrays.read args
  | .readw => commandReadw arrays.read args
  | .readl => commandReadl arrays.read args
  | .ioreadb => commandIoreadb arrays.read args
  | .writeb => commandWriteb arrays.write args
  | .writew => commandWritew arrays.write args
  | .writel => commandWritel arrays.write args
  | .iowriteb => commandIowriteb arrays.write args
  | .test => return commandTest
  | .shutdown => return commandShutdown
  | .commandNum => return execFile fsOpen command

/-- A round of `shell_main`, for the scan codes that are typed meanwhile. -/
def shellRound (fsOpen : List Byte → Word) (arrays : Arrays)
    (codes : List Byte) (console : ConsoleState) :
    Except Stop (List Request) := do
  let line ←
    getLine codes arrays.buf.bytes (BitVec.ofNat 32 maxLineSize)
      (putStr prompt console)
  if line.i = 0#32 then
    return []
  else
    match dispatch fsOpen arrays line.buf with
    | .ok requests => return requests
    | .error fault => .error (.fault fault)

/-! ## Lines that fit -/

/-- The command that a word names. -/
def commandOf (word : List Byte) : CommandId :=
  match commandNames.find? (fun entry => entry.1 = word) with
  | some (_, commandId) => commandId
  | none => .commandNum

/-- Every part of the line leaves room for a NUL in the array meant for it. -/
def LineFits (line : List Byte) : Prop :=
  Fits 256 256 line ∧
    match commandOf (firstWord line) with
    | .readb | .readw | .readl | .ioreadb => Fits 128 128 (remainder line)
    | .writeb | .writew | .writel | .iowriteb =>
        Fits 16 128 (remainder line) ∧
          Fits 32 128 (remainder (remainder line))
    | _ => True

/-! ## The handlers on lines that fit and lines that do not -/

section Split

variable {firstSize otherSize : Nat} (first : CharArray firstSize)
  (other : CharArray otherSize) {line : List Byte}

theorem split_fits (terminated : Terminated line)
    (fits : Fits firstSize otherSize (text line)) :
    ∃ word behind,
      strGetFirstEntry line first.bytes other.bytes = .ok (word, behind) ∧
        HoldsString word firstSize (firstWord (text line)) ∧
        HoldsString behind otherSize (remainder (text line)) := by
  rcases first with ⟨first, rfl⟩
  rcases other with ⟨other, rfl⟩
  exact strGetFirstEntry_fits terminated fits

theorem split_overflows (terminated : Terminated line)
    (overflows : ¬Fits firstSize otherSize (text line)) :
    strGetFirstEntry line first.bytes other.bytes = .error .store := by
  rcases first with ⟨first, rfl⟩
  rcases other with ⟨other, rfl⟩
  exact strGetFirstEntry_overflows terminated overflows

end Split

/-- A handler stores outside an array unless a condition holds. -/
def Overflows (outcome : Except Fault (List Request)) (fits : Prop) : Prop :=
  (fits → ∃ requests, outcome = .ok requests) ∧
    (¬fits → outcome = .error .store)

section Handlers

variable {args command buf : List Byte}

theorem readHandler_spec (dump : Word → Request) (arrays : ReadArrays)
    (terminated : Terminated args) :
    Overflows (readHandler dump arrays args) (Fits 128 128 (text args)) := by
  constructor
  · intro fits
    rcases split_fits arrays.first arrays.other terminated fits with
      ⟨word, behind, splits, holds, _⟩
    rcases strConvAhexInt_ok holds.terminated with ⟨addr, converts⟩
    refine ⟨[dump addr, .putStr crlf], ?_⟩
    rw [readHandler, splits, ok_bind]
    simp only [converts, ok_bind]
    rfl
  · intro overflows
    rw [readHandler, split_overflows _ _ terminated overflows, error_bind]

theorem writeHandler_spec (put : Word → Word → Request) (arrays : WriteArrays)
    (terminated : Terminated args) :
    Overflows (writeHandler put arrays args)
      (Fits 16 128 (text args) ∧ Fits 32 128 (remainder (text args))) := by
  by_cases fits : Fits 16 128 (text args)
  · rcases split_fits arrays.first arrays.other terminated fits with
      ⟨word, behind, splits, wordHolds, behindHolds⟩
    have behindText := behindHolds.text
    constructor
    · rintro ⟨_, otherFits⟩
      rw [← behindText] at otherFits
      rcases split_fits arrays.second arrays.other2 behindHolds.terminated
          otherFits with
        ⟨second, rest, splitsAgain, secondHolds, _⟩
      rcases strConvAhexInt_ok wordHolds.terminated with ⟨data, dataEq⟩
      rcases strConvAhexInt_ok secondHolds.terminated with ⟨addr, addrEq⟩
      refine ⟨[put data addr], ?_⟩
      rw [writeHandler, splits, ok_bind]
      simp only [splitsAgain, dataEq, addrEq, ok_bind]
      rfl
    · intro overflows
      have otherOverflows : ¬Fits 32 128 (text behind) := by
        rw [behindText]
        exact fun otherFits => overflows ⟨fits, otherFits⟩
      rw [writeHandler, splits, ok_bind]
      simp only [split_overflows _ _ behindHolds.terminated otherOverflows,
        error_bind]
  · constructor
    · exact fun both => absurd both.1 fits
    · intro _
      rw [writeHandler, split_overflows _ _ terminated fits, error_bind]

/-- The comparisons find the first entry with the name. -/
theorem findCommand_eq (terminated : Terminated command)
    (names : List (List Byte × CommandId))
    (nonzero : ∀ entry ∈ names, ∀ byte ∈ entry.1, byte ≠ 0#8) :
    findCommand command names =
      .ok (match names.find? (fun entry => entry.1 = text command) with
        | some (_, commandId) => commandId
        | none => .commandNum) := by
  induction names with
  | nil => rfl
  | cons entry names hypothesis =>
      rcases entry with ⟨name, commandId⟩
      have nameEq : text (name ++ [0#8]) = name :=
        text_append (nonzero (name, commandId) (by simp))
      have nameEnds : Terminated (name ++ [0#8]) :=
        terminated_append
      rcases strCompare_spec terminated nameEnds with ⟨order, compares, equal⟩
      rw [findCommand, compares, ok_bind]
      rw [nameEq] at equal
      by_cases same : order = 0
      · rw [if_pos same, List.find?_cons_of_pos]
        · rfl
        · simpa using (equal.mp same).symm
      · rw [if_neg same, List.find?_cons_of_neg, hypothesis]
        · exact fun entry member => nonzero entry (by simp [member])
        · simpa using fun found : name = text command =>
            same (equal.mpr found.symm)

theorem getCommandId_eq (terminated : Terminated command) :
    getCommandId command = .ok (commandOf (text command)) :=
  findCommand_eq terminated commandNames (by decide)

/-- A round faults exactly on the lines that do not fit. -/
theorem dispatch_spec (fsOpen : List Byte → Word) (arrays : Arrays)
    (terminated : Terminated buf) :
    Overflows (dispatch fsOpen arrays buf) (LineFits (text buf)) := by
  by_cases fits : Fits 256 256 (text buf)
  · rcases split_fits arrays.command arrays.args terminated fits with
      ⟨command, args, splits, commandHolds, argsHolds⟩
    have commandEq := getCommandId_eq commandHolds.terminated
    have readSpec := fun dump =>
      readHandler_spec dump arrays.read argsHolds.terminated
    have writeSpec := fun put =>
      writeHandler_spec put arrays.write argsHolds.terminated
    rw [commandHolds.text] at commandEq
    rw [argsHolds.text] at readSpec writeSpec
    rw [dispatch, splits, ok_bind, LineFits]
    simp only [commandEq, ok_bind, fits, true_and]
    rcases commandOf (firstWord (text buf))
    case readb => exact readSpec _
    case readw => exact readSpec _
    case readl => exact readSpec _
    case ioreadb => exact readSpec _
    case writeb => exact writeSpec _
    case writew => exact writeSpec _
    case writel => exact writeSpec _
    case iowriteb => exact writeSpec _
    all_goals exact ⟨fun _ => ⟨_, rfl⟩, fun absent => absurd trivial absent⟩
  · constructor
    · exact fun lineFits => absurd lineFits.1 fits
    · intro _
      rw [dispatch, split_overflows _ _ terminated fits, error_bind]

end Handlers

/-! ## Rounds -/

section Rounds

variable {fsOpen : List Byte → Word} {arrays : Arrays}

/-- The buffer of `shell_main` has the size that it passes. -/
theorem buf_room :
    (BitVec.ofNat 32 maxLineSize).toNat ≤ arrays.buf.bytes.length := by
  rw [arrays.buf.length]
  exact Nat.mod_le _ _

/-- An empty line is skipped, and would have fitted. -/
theorem lineFits_nil : LineFits [] := by
  constructor
  · exact ⟨by decide, by decide⟩
  · exact trivial

/-- A round whose line has been read faults unless the line fits. -/
theorem shellRound_of_line {codes : List Byte} {console : ConsoleState}
    {line : Line}
    (returned : getLine codes arrays.buf.bytes (BitVec.ofNat 32 maxLineSize)
      (putStr prompt console) = .ok line) :
    shellRound fsOpen arrays codes console ≠ .error (.fault .store) ↔
      LineFits (text line.buf) := by
  have terminated := (getLine_terminated returned).2
  rw [shellRound, returned, ok_bind]
  by_cases empty : line.i = 0#32
  · rw [if_pos empty, getLine_empty returned empty]
    exact iff_of_true (fun equal => nomatch equal) lineFits_nil
  rw [if_neg empty]
  have spec := dispatch_spec fsOpen arrays terminated
  by_cases fits : LineFits (text line.buf)
  · rcases spec.1 fits with ⟨requests, handled⟩
    rw [handled]
    exact iff_of_true (fun equal => nomatch equal) fits
  · rw [spec.2 fits]
    exact iff_of_false (fun unequal => unequal rfl) fits

/--
A round of the shell stores outside an array exactly when it reads a line of
which a part is too long for the array meant for it.
-/
theorem shellRound_storesInside_iff (fsOpen : List Byte → Word)
    (arrays : Arrays) (codes : List Byte) (console : ConsoleState) :
    shellRound fsOpen arrays codes console ≠ .error (.fault .store) ↔
      ∀ line,
        getLine codes arrays.buf.bytes (BitVec.ofNat 32 maxLineSize)
            (putStr prompt console) = .ok line →
          LineFits (text line.buf) := by
  rcases returned : getLine codes arrays.buf.bytes
      (BitVec.ofNat 32 maxLineSize) (putStr prompt console) with stop | line
  · have waits : shellRound fsOpen arrays codes console = .error stop := by
      rw [shellRound, returned, error_bind]
    have unfaulted : stop ≠ .fault .store := by
      intro fault
      rw [fault] at returned
      exact getLine_no_fault buf_room (by decide) .store returned
    rw [waits]
    constructor
    · intro _ line absent
      cases absent
    · intro _ equal
      cases equal
      exact unfaulted rfl
  · rw [shellRound_of_line returned]
    constructor
    · intro fits other same
      cases same
      exact fits
    · exact fun all => all line rfl

end Rounds

/-! ## A word that is too long -/

/-- Arrays that happen to be filled with zeros. -/
def zeroArray (size : Nat) : CharArray size :=
  ⟨List.replicate size 0#8, List.length_replicate⟩

def zeroArrays : Arrays :=
  { buf := zeroArray _
    command := zeroArray _
    args := zeroArray _
    read := { first := zeroArray _, other := zeroArray _ }
    write :=
      { first := zeroArray _
        second := zeroArray _
        other := zeroArray _
        other2 := zeroArray _ } }

/-- The keys of `writeb ` with sixteen letters `a`, and of the return key. -/
def longWriteb : List Byte :=
  [0x11#8, 0x13#8, 0x17#8, 0x14#8, 0x12#8, 0x30#8, 0x39#8] ++
    List.replicate 16 0x1e#8 ++ [0x1c#8]

/-- The NUL of the word is stored behind `first[16]`. -/
theorem longWriteb_overflows :
    shellRound (fun _ => 0#32) zeroArrays longWriteb
        { cursorPos := { x := 0#32, y := 2#32 }, accesses := [] } =
      .error (.fault .store) := by
  decide +kernel

end MagicalOs.Apps.Shell
