import MagicalOs.Apps.HexNumbers
import MagicalOs.Apps.Shell
import MagicalOs.Console.KeyboardQueue
import MagicalOs.Console.LineEditing

/-!
# The shell as an interpreter

A line has a meaning of its own: a command, its words, and the requests which
they stand for.  The shell reads the keys into a buffer, copies the words into
arrays of different sizes, compares and converts them there, and goes on with
the keys that are left.  As long as the words fit, it answers the lines one
after the other by what they mean.

The arrays are not initialised, and the console is shared with others, so both
are arbitrary at the beginning of each round.
-/

namespace MagicalOs.Apps.ShellSessions

open MagicalOs.Library.ByteMemory
open MagicalOs.Library.CString
open MagicalOs.Library.EditedLine
open MagicalOs.Apps.ShellStrings
open MagicalOs.Apps.HexNumbers
open MagicalOs.Apps.Shell
open MagicalOs.Console.Screen
open MagicalOs.Console.LineInput
open MagicalOs.Console.LineEditing
open MagicalOs.Console

/-! ## What a line means -/

/-- The number in the first word of a line. -/
def numberOf (line : List Byte) : Word :=
  placeValue (firstWord line)

/-- The requests for a line, by its first word and what is behind it. -/
def meaning (fsOpen : List Byte → Word) (line : List Byte) : List Request :=
  let args := remainder line
  match commandOf (firstWord line) with
  | .echo => [.putStr args, .putStr crlf]
  | .readb => [.dumpByte (numberOf args), .putStr crlf]
  | .readw => [.dumpHalf (numberOf args), .putStr crlf]
  | .readl => [.dumpWord (numberOf args), .putStr crlf]
  | .ioreadb => [.dumpPort ((numberOf args).setWidth 16), .putStr crlf]
  | .writeb =>
      [.storeByte (numberOf (remainder args)) ((numberOf args).setWidth 8)]
  | .writew =>
      [.storeHalf (numberOf (remainder args)) ((numberOf args).setWidth 16)]
  | .writel => [.storeWord (numberOf (remainder args)) (numberOf args)]
  | .iowriteb =>
      [.outPort ((numberOf args).setWidth 8)
        ((numberOf (remainder args)).setWidth 16)]
  | .test => [.putStr (['t', 'e', 's', 't'].map ascii ++ crlf)]
  | .shutdown => [.shutdown]
  | .commandNum =>
      .openFile (firstWord line) ::
        if fsOpen (firstWord line) ≠ 0#32 then
          [.exec (fsOpen (firstWord line))]
        else
          [.putStr notFound]

/-- An empty line is skipped; a NUL ends the string of a line. -/
def answer (fsOpen : List Byte → Word) (line : List Byte) : List Request :=
  if line = [] then [] else meaning fsOpen (text line)

/-- The lines that the keys end, for a number of rounds. -/
def typedLines (rounds : Nat) (codes : List Byte) : List (List Byte) :=
  editLines asciiBs newline (Full (BitVec.ofNat 32 maxLineSize)) rounds
    (pressed codes)

open Classical in
/--
The interpreter: it answers the lines for a number of rounds, waits for the
next one, and breaks off at a line of which a part is too long.
-/
noncomputable def interpret (fsOpen : List Byte → Word) :
    Nat → List (List Byte) → List Request × Option Stop
  | 0, _ => ([], none)
  | _ + 1, [] => ([], some .asleep)
  | rounds + 1, line :: lines =>
      if LineFits (text line) then
        let (later, stop) := interpret fsOpen rounds lines
        (answer fsOpen line ++ later, stop)
      else
        ([], some (.fault .store))

/-! ## The rounds of `shell_main` -/

/-- A round, with the scan codes that it leaves to the next one. -/
def shellTurn (fsOpen : List Byte → Word) (arrays : Arrays)
    (codes : List Byte) (console : ConsoleState) :
    Except Stop (List Request × List Byte) := do
  let line ←
    getLine codes arrays.buf.bytes (BitVec.ofNat 32 maxLineSize)
      (putStr prompt console)
  if line.i = 0#32 then
    return ([], line.codes)
  else
    match dispatch fsOpen arrays line.buf with
    | .ok requests => return (requests, line.codes)
    | .error fault => .error (.fault fault)

/--
The loop of `shell_main`, for the arrays and the console that its rounds find,
with the reason for which it has stopped.
-/
def shellMain (fsOpen : List Byte → Word) :
    List (Arrays × ConsoleState) → List Byte → List Request × Option Stop
  | [], _ => ([], none)
  | (arrays, console) :: rounds, codes =>
      match shellTurn fsOpen arrays codes console with
      | .ok (requests, codes) =>
          let (later, stop) := shellMain fsOpen rounds codes
          (requests ++ later, stop)
      | .error stop => ([], some stop)

/-- It is the round of the shell, which forgets the scan codes. -/
theorem shellRound_eq (fsOpen : List Byte → Word) (arrays : Arrays)
    (codes : List Byte) (console : ConsoleState) :
    shellRound fsOpen arrays codes console =
      (shellTurn fsOpen arrays codes console).map Prod.fst := by
  rw [shellRound, shellTurn]
  rcases getLine codes arrays.buf.bytes (BitVec.ofNat 32 maxLineSize)
      (putStr prompt console) with stop | line
  · rfl
  · rw [ok_bind, ok_bind]
    rcases dispatch fsOpen arrays line.buf with fault | requests
    · split
      · rfl
      · rfl
    · split
      · rfl
      · rfl

/-! ## The answer to a line -/

section Handlers

variable {fsOpen : List Byte → Word} {arrays : Arrays}
  {args buf : List Byte}

theorem readHandler_fits (dump : Word → Request) (arrays : ReadArrays)
    (terminated : Terminated args) (fits : Fits 128 128 (text args)) :
    readHandler dump arrays args =
      .ok [dump (numberOf (text args)), .putStr crlf] := by
  rcases split_fits arrays.first arrays.other terminated fits with
    ⟨word, behind, splits, holds, _⟩
  rw [readHandler, splits, ok_bind]
  simp only [strConvAhexInt_eq holds.terminated, holds.text, ok_bind]
  rfl

theorem writeHandler_fits (put : Word → Word → Request) (arrays : WriteArrays)
    (terminated : Terminated args) (fits : Fits 16 128 (text args))
    (otherFits : Fits 32 128 (remainder (text args))) :
    writeHandler put arrays args =
      .ok [put (numberOf (text args)) (numberOf (remainder (text args)))] := by
  rcases split_fits arrays.first arrays.other terminated fits with
    ⟨word, behind, splits, holds, behindHolds⟩
  rw [← behindHolds.text] at otherFits
  rcases split_fits arrays.second arrays.other2 behindHolds.terminated
      otherFits with
    ⟨second, rest, splitsAgain, secondHolds, _⟩
  rw [writeHandler, splits, ok_bind]
  simp only [splitsAgain, strConvAhexInt_eq holds.terminated, holds.text,
    strConvAhexInt_eq secondHolds.terminated, secondHolds.text,
    behindHolds.text, ok_bind]
  rfl

/-- A line that fits is answered by what it means. -/
theorem dispatch_fits (fsOpen : List Byte → Word) (arrays : Arrays)
    (terminated : Terminated buf) (fits : LineFits (text buf)) :
    dispatch fsOpen arrays buf = .ok (meaning fsOpen (text buf)) := by
  rcases fits with ⟨splitFits, handlerFits⟩
  rcases split_fits arrays.command arrays.args terminated splitFits with
    ⟨command, args, splits, commandHolds, argsHold⟩
  have commandEq := getCommandId_eq commandHolds.terminated
  have reads := fun dump =>
    readHandler_fits dump arrays.read argsHold.terminated
  have writes := fun put =>
    writeHandler_fits put arrays.write argsHold.terminated
  rw [commandHolds.text] at commandEq
  rw [argsHold.text] at reads writes
  rw [dispatch, splits, ok_bind, meaning]
  simp only [commandEq, ok_bind]
  have name := commandHolds.text
  generalize commandOf (firstWord (text buf)) = commandId at handlerFits ⊢
  cases commandId with
  | echo =>
      simp only [commandEcho, argsHold.text]
      rfl
  | readb => exact reads _ handlerFits
  | readw => exact reads _ handlerFits
  | readl => exact reads _ handlerFits
  | ioreadb => exact reads _ handlerFits
  | writeb => exact writes _ handlerFits.1 handlerFits.2
  | writew => exact writes _ handlerFits.1 handlerFits.2
  | writel => exact writes _ handlerFits.1 handlerFits.2
  | iowriteb => exact writes _ handlerFits.1 handlerFits.2
  | commandNum =>
      simp only [execFile, name]
      rfl
  | _ => rfl

end Handlers

/-! ## The lines that are read -/

section Reading

variable {buf codes : List Byte} {bufSize i : Word} {console : ConsoleState}
  {line : Line}

/-- The outcome of the loop, for the line that the keys end and the rest. -/
def Cuts (cut : Option (List Byte × List Byte)) : Except Stop Line → Prop
  | .ok line => cut = some (line.buf.take line.i.toNat, pressed line.codes)
  | .error .asleep => cut = none
  | .error (.fault _) => False

/-- The loop leaves the keys behind the line to the next call. -/
theorem getLineLoop_cuts {rounds : Nat} (room : bufSize.toNat ≤ buf.length)
    (inside : i.toNat < bufSize.toNat) (enough : codes.length < rounds) :
    Cuts
      (cutLine asciiBs newline (Full bufSize) (pressed codes)
        (buf.take i.toNat))
      (getLineLoop bufSize rounds codes buf i console) := by
  induction rounds generalizing codes buf i console with
  | zero => exact absurd enough (Nat.not_lt_zero _)
  | succ rounds hypothesis =>
      have inBuffer : i.toNat < buf.length := by omega
      have bound := bufSize.isLt
      have length : (buf.take i.toNat).length = i.toNat :=
        List.length_take_of_le inBuffer.le
      rw [getLineLoop]
      split
      · rename_i before
        rw [lt_size_iff inside] at before
        have notFull : ¬Full bufSize (buf.take i.toNat).length := by
          rw [Full, length]
          omega
        rcases getChar_pressed codes with
          ⟨asleep, noKey⟩ | ⟨c, rest, found, equal, shorter⟩
        · rw [asleep, noKey]
          exact if_neg notFull
        · have stores : storeBuf buf i c = .ok (buf.set i.toNat c) :=
            storeBuf_inside inBuffer
          have stillRoom : bufSize.toNat ≤ (buf.set i.toNat c).length := by
            rwa [List.length_set]
          have fewer : rest.length < rounds := by omega
          simp only [found, stores, ok_bind]
          rw [equal, cutLine, if_neg notFull]
          by_cases erases : c = asciiBs
          · subst erases
            rw [if_pos rfl, if_neg (by decide)]
            by_cases zero : i = 0#32
            · rw [if_pos zero]
              subst zero
              exact hypothesis stillRoom inside fewer
            · rw [if_neg zero, ← take_pred zero inBuffer]
              apply hypothesis stillRoom _ fewer
              rw [toNat_pred zero]
              omega
          · rw [if_neg erases]
            by_cases ends : c = newline
            · rw [if_pos ends, if_pos ends]
              change some _ = some ((buf.set i.toNat c).take i.toNat, _)
              rw [List.take_set_of_le le_rfl]
            · rw [if_neg ends, if_neg ends,
                ← take_succ erases inBuffer (by omega)]
              apply hypothesis stillRoom _ fewer
              rw [toNat_succ (by omega)]
              exact before
      · rename_i after
        rw [lt_size_iff inside] at after
        apply cutLine_full
        rw [Full, length]
        omega

/-- The string of a buffer into which a NUL has been stored. -/
theorem text_set_nul {index : Nat} (inside : index < buf.length) :
    text (buf.set index 0#8) = text (buf.take index) := by
  rw [List.set_eq_take_append_cons_drop, if_pos inside]
  generalize buf.take index = front
  induction front with
  | nil => rw [List.nil_append, text_zero, text_nil]
  | cons head front hypothesis =>
      by_cases zero : head = 0#8
      · rw [zero, List.cons_append, text_zero, text_zero]
      · rw [List.cons_append, text_cons zero, text_cons zero, hypothesis]

/-- What the shell gets from `get_line`. -/
def Gets (cut : Option (List Byte × List Byte)) :
    Except Stop Line → Prop
  | .ok line =>
      ∃ typed, cut = some (typed, pressed line.codes) ∧
        text line.buf = text typed ∧ (line.i = 0#32 ↔ typed = [])
  | .error .asleep => cut = none
  | .error (.fault _) => False

theorem getLine_gets (room : buf.length = bufSize.toNat)
    (positive : 0 < bufSize.toNat) :
    Gets (cutLine asciiBs newline (Full bufSize) (pressed codes) [])
      (getLine codes buf bufSize console) := by
  have cuts : Cuts
      (cutLine asciiBs newline (Full bufSize) (pressed codes) [])
      (getLineLoop bufSize (codes.length + 1) codes buf 0#32 console) :=
    getLineLoop_cuts room.ge positive (Nat.lt_succ_self codes.length)
  have stays : Inside bufSize
      (getLineLoop bufSize (codes.length + 1) codes buf 0#32 console) :=
    getLineLoop_inside room.ge positive
  rw [getLine]
  rcases loop : getLineLoop bufSize (codes.length + 1) codes buf 0#32 console
    with stop | looped
  · rw [loop] at cuts stays
    cases stays
    exact cuts
  · rw [loop] at cuts stays
    have inBuffer : looped.i.toNat < looped.buf.length := by
      rw [getLineLoop_length loop, room]
      exact stays
    rw [ok_bind, storeBuf_inside inBuffer]
    refine ⟨_, cuts, text_set_nul inBuffer, ?_⟩
    dsimp only
    rw [← List.length_eq_zero_iff, List.length_take_of_le inBuffer.le,
      ← BitVec.toNat_inj]
    rfl

end Reading

/-! ## Rounds and sessions -/

section Sessions

variable {fsOpen : List Byte → Word} {arrays : Arrays} {codes : List Byte}
  {console : ConsoleState} {rounds : List (Arrays × ConsoleState)}

/-- A round, by the line that the keys end. -/
def Answers (fsOpen : List Byte → Word)
    (cut : Option (List Byte × List Byte)) :
    Except Stop (List Request × List Byte) → Prop
  | .ok (requests, codes) =>
      ∃ typed, cut = some (typed, pressed codes) ∧ LineFits (text typed) ∧
        requests = answer fsOpen typed
  | .error .asleep => cut = none
  | .error (.fault fault) =>
      fault = .store ∧ ∃ typed rest, cut = some (typed, rest) ∧
        ¬LineFits (text typed)

theorem shellTurn_answers (fsOpen : List Byte → Word) (arrays : Arrays)
    (codes : List Byte) (console : ConsoleState) :
    Answers fsOpen
      (cutLine asciiBs newline (Full (BitVec.ofNat 32 maxLineSize))
        (pressed codes) [])
      (shellTurn fsOpen arrays codes console) := by
  have gets : Gets _ (getLine codes arrays.buf.bytes
      (BitVec.ofNat 32 maxLineSize) (putStr prompt console)) :=
    getLine_gets arrays.buf.length (by decide)
  rw [shellTurn]
  rcases returned : getLine codes arrays.buf.bytes
      (BitVec.ofNat 32 maxLineSize) (putStr prompt console) with stop | line
  · rw [returned] at gets
    cases stop with
    | asleep => exact gets
    | fault fault => exact gets.elim
  · rw [returned] at gets
    rcases gets with ⟨typed, cut, same, empty⟩
    rw [ok_bind]
    by_cases zero : line.i = 0#32
    · have nothing : typed = [] := empty.mp zero
      rw [if_pos zero]
      refine ⟨typed, cut, ?_, ?_⟩
      · rw [nothing]
        exact lineFits_nil
      · rw [answer, if_pos nothing]
    · have something : typed ≠ [] := mt empty.mpr zero
      have terminated := (getLine_terminated returned).2
      rw [if_neg zero]
      by_cases fits : LineFits (text typed)
      · rw [← same] at fits
        rw [dispatch_fits fsOpen arrays terminated fits, same]
        rw [same] at fits
        exact ⟨typed, cut, fits, by rw [answer, if_neg something]⟩
      · rw [← same] at fits
        rw [(dispatch_spec fsOpen arrays terminated).2 fits]
        rw [same] at fits
        exact ⟨rfl, typed, _, cut, fits⟩

theorem typedLines_cons {typed rest : List Byte} {count : Nat}
    (cut : cutLine asciiBs newline (Full (BitVec.ofNat 32 maxLineSize))
      (pressed codes) [] = some (typed, pressed rest)) :
    typedLines (count + 1) codes = typed :: typedLines count rest := by
  rw [typedLines, editLines, cut]
  rfl

theorem typedLines_nil {count : Nat}
    (cut : cutLine asciiBs newline (Full (BitVec.ofNat 32 maxLineSize))
      (pressed codes) [] = none) :
    typedLines (count + 1) codes = [] := by
  rw [typedLines, editLines, cut]

theorem shellMain_eq (fsOpen : List Byte → Word)
    (rounds : List (Arrays × ConsoleState)) (codes : List Byte) :
    shellMain fsOpen rounds codes =
      interpret fsOpen rounds.length (typedLines rounds.length codes) := by
  induction rounds generalizing codes with
  | nil => rfl
  | cons round rounds hypothesis =>
      rcases round with ⟨arrays, console⟩
      have answers := shellTurn_answers fsOpen arrays codes console
      rw [List.length_cons, shellMain]
      generalize shellTurn fsOpen arrays codes console = outcome at answers ⊢
      cases outcome with
      | ok result =>
          rcases result with ⟨requests, rest⟩
          rcases answers with ⟨typed, cut, fits, rfl⟩
          rw [typedLines_cons cut, interpret, if_pos fits, ← hypothesis]
      | error stop =>
          cases stop with
          | asleep =>
              rw [typedLines_nil answers]
              rfl
          | fault fault =>
              rcases answers with ⟨rfl, typed, rest, cut, overflows⟩
              rw [typedLines, editLines, cut, interpret, if_neg overflows]

/--
The shell is the interpreter of the lines that are typed, whatever its arrays
and the console hold when a round begins.
-/
theorem shellMain_interprets (fsOpen : List Byte → Word)
    (rounds : List (Arrays × ConsoleState)) (codes : List Byte) :
    shellMain fsOpen rounds codes =
      interpret fsOpen rounds.length (typedLines rounds.length codes) :=
  shellMain_eq fsOpen rounds codes

end Sessions

/-! ## Keys that arrive meanwhile -/

section Keys

variable {fsOpen : List Byte → Word} {codes more : List Byte} {count : Nat}
  {rounds : List (Arrays × ConsoleState)} {system : KeyboardQueue.System}
  {observed : KeyboardQueue.Observed}

end Keys

end MagicalOs.Apps.ShellSessions
