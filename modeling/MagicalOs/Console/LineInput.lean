import MagicalOs.Console.Screen
import MagicalOs.Library.CString

/-!
# Reading a line

`get_line` turns scan codes into characters, echoes them, and edits the line in
the buffer of its caller.  The scan codes are those that the calls of
`get_keydata` return; when they run out, the reader is asleep.
-/

namespace MagicalOs.Console.LineInput

open MagicalOs.Library.ByteMemory
open MagicalOs.Library.CString
open MagicalOs.Console.Screen

/-! ## From scan codes to characters -/

def keymap : List Byte :=
  [0x00#8, 0x1b#8, 0x31#8, 0x32#8, 0x33#8, 0x34#8, 0x35#8, 0x36#8,
    0x37#8, 0x38#8, 0x39#8, 0x30#8, 0x2d#8, 0x5e#8, 0x08#8, 0x09#8,
    0x71#8, 0x77#8, 0x65#8, 0x72#8, 0x74#8, 0x79#8, 0x75#8, 0x69#8,
    0x6f#8, 0x70#8, 0x40#8, 0x5b#8, 0x0a#8, 0x00#8, 0x61#8, 0x73#8,
    0x64#8, 0x66#8, 0x67#8, 0x68#8, 0x6a#8, 0x6b#8, 0x6c#8, 0x3b#8,
    0x3a#8, 0x00#8, 0x00#8, 0x5d#8, 0x7a#8, 0x78#8, 0x63#8, 0x76#8,
    0x62#8, 0x6e#8, 0x6d#8, 0x2c#8, 0x2e#8, 0x2f#8, 0x00#8, 0x2a#8,
    0x00#8, 0x20#8, 0x00#8, 0x00#8, 0x00#8, 0x00#8, 0x00#8, 0x00#8,
    0x00#8, 0x00#8, 0x00#8, 0x00#8, 0x00#8, 0x00#8, 0x00#8, 0x37#8,
    0x38#8, 0x39#8, 0x2d#8, 0x34#8, 0x35#8, 0x36#8, 0x2b#8, 0x31#8,
    0x32#8, 0x33#8, 0x30#8, 0x2e#8, 0x00#8, 0x00#8, 0x00#8, 0x00#8,
    0x00#8, 0x00#8, 0x00#8, 0x00#8, 0x00#8, 0x00#8, 0x00#8, 0x00#8,
    0x00#8, 0x00#8, 0x00#8, 0x00#8, 0x00#8, 0x00#8, 0x00#8, 0x00#8,
    0x00#8, 0x00#8, 0x00#8, 0x00#8, 0x00#8, 0x00#8, 0x00#8, 0x00#8,
    0x00#8, 0x00#8, 0x00#8, 0x5f#8, 0x00#8, 0x00#8, 0x00#8, 0x00#8,
    0x00#8, 0x00#8, 0x00#8, 0x00#8, 0x00#8, 0x5c#8, 0x00#8, 0x00#8]

/-- `IOADR_KBC_DATA_BIT_BRAKE`. -/
def brake : Byte := 0x80#8

def asciiBs : Byte := 0x08#8

/-- The next scan code of a key that goes down, and the scan codes behind it. -/
def getKeycodePressed : List Byte → Option (Byte × List Byte)
  | [] => none
  | keycode :: codes =>
      if keycode &&& brake ≠ 0#8 then getKeycodePressed codes
      else some (keycode &&& ~~~brake, codes)

def getChar (codes : List Byte) : Option (Byte × List Byte) :=
  match getKeycodePressed codes with
  | none => none
  | some (keycode, codes) => some (keymap.getD keycode.toNat 0#8, codes)

/-! ## Editing the line -/

/-- Why a call of `get_line` has not returned. -/
inductive Stop where
  | asleep
  | fault (fault : Fault)
  deriving DecidableEq

/-- A call that has returned: its result `i`, and what it leaves behind. -/
structure Line where
  buf : List Byte
  i : Word
  codes : List Byte
  console : ConsoleState

/-- A store to the buffer of the caller. -/
def storeBuf (buf : List Byte) (i : Word) (c : Byte) :
    Except Stop (List Byte) :=
  match store buf i.toNat c with
  | .ok buf => .ok buf
  | .error fault => .error (.fault fault)

/-- What a backspace does to the screen. -/
def eraseChar (console : ConsoleState) : ConsoleState :=
  let moved :=
    updateCursor
      { console with
        cursorPos :=
          { console.cursorPos with x := console.cursorPos.x - 1#32 } }
  putCharPos 32#8 (narrow moved.cursorPos.x) (narrow moved.cursorPos.y) moved

/--
The loop of `get_line`; the first argument bounds the number of rounds, each
of which takes a scan code.
-/
def getLineLoop (bufSize : Word) :
    Nat → List Byte → List Byte → Word → ConsoleState → Except Stop Line
  | 0, _, _, _, _ => .error .asleep
  | rounds + 1, codes, buf, i, console =>
      if i < bufSize - 1#32 then
        match getChar codes with
        | none => .error .asleep
        | some (c, codes) => do
            let buf ← storeBuf buf i c
            if c = asciiBs then
              if i = 0#32 then
                getLineLoop bufSize rounds codes buf i console
              else
                getLineLoop bufSize rounds codes buf (i - 1#32)
                  (eraseChar console)
            else
              let echoed := putChar c console
              if c = newline then
                .ok { buf, i, codes, console := putChar carriageReturn echoed }
              else
                getLineLoop bufSize rounds codes buf (i + 1#32) echoed
      else
        .ok { buf, i, codes, console }

def getLine (codes buf : List Byte) (bufSize : Word) (console : ConsoleState) :
    Except Stop Line := do
  let line ← getLineLoop bufSize (codes.length + 1) codes buf 0#32 console
  let buf ← storeBuf line.buf line.i 0#8
  return { line with buf }

/-! ## The buffer that the caller gets -/

/-- A call of the loop that has not faulted; its index is in the buffer. -/
def Inside (bufSize : Word) : Except Stop Line → Prop
  | .ok line => line.i.toNat < bufSize.toNat
  | .error stop => stop = .asleep

section Buffer

variable {buf stored codes : List Byte} {bufSize i : Word} {c : Byte}
  {console : ConsoleState} {line : Line}

theorem storeBuf_ok (result : storeBuf buf i c = .ok stored) :
    i.toNat < buf.length ∧ stored = buf.set i.toNat c := by
  rw [storeBuf] at result
  by_cases inside : i.toNat < buf.length
  · rw [store_inside inside] at result
    cases result
    exact ⟨inside, rfl⟩
  · rw [store_outside inside] at result
    cases result

theorem storeBuf_inside (inside : i.toNat < buf.length) :
    storeBuf buf i c = .ok (buf.set i.toNat c) := by
  rw [storeBuf, store_inside inside]

/-- The loop works on one array. -/
theorem getLineLoop_length {rounds : Nat}
    (returned : getLineLoop bufSize rounds codes buf i console = .ok line) :
    line.buf.length = buf.length := by
  induction rounds generalizing codes buf i console with
  | zero => cases returned
  | succ rounds hypothesis =>
      rw [getLineLoop] at returned
      split at returned
      · split at returned
        · cases returned
        · rcases bind_eq_ok.mp returned with ⟨stored, stores, rest⟩
          have length : stored.length = buf.length := by
            rw [(storeBuf_ok stores).2, List.length_set]
          split at rest
          · split at rest
            · exact (hypothesis rest).trans length
            · exact (hypothesis rest).trans length
          · split at rest
            · cases rest
              exact length
            · exact (hypothesis rest).trans length
      · cases returned
        rfl

/-- The index stays below the size, so no round of the loop faults. -/
theorem getLineLoop_inside {rounds : Nat} (room : bufSize.toNat ≤ buf.length)
    (inside : i.toNat < bufSize.toNat) :
    Inside bufSize (getLineLoop bufSize rounds codes buf i console) := by
  induction rounds generalizing codes buf i console with
  | zero => rfl
  | succ rounds hypothesis =>
      rw [getLineLoop]
      split
      · rename_i before
        have last : i.toNat + 1 < bufSize.toNat := by
          have bound := bufSize.isLt
          rw [BitVec.lt_def, BitVec.toNat_sub] at before
          change i.toNat < (2 ^ 32 - 1 + bufSize.toNat) % 2 ^ 32 at before
          omega
        rcases getChar codes with none | ⟨c, rest⟩
        · rfl
        have stores : storeBuf buf i c = .ok (buf.set i.toNat c) :=
          storeBuf_inside (by omega)
        simp only [stores, ok_bind]
        have stillRoom : bufSize.toNat ≤ (buf.set i.toNat c).length := by
          rw [List.length_set]
          exact room
        split
        · split
          · exact hypothesis stillRoom inside
          · rename_i nonzero
            apply hypothesis stillRoom
            have positive : 0 < i.toNat := by
              by_contra zero
              exact nonzero (BitVec.eq_of_toNat_eq (by simp; omega))
            rw [BitVec.toNat_sub]
            change (2 ^ 32 - 1 + i.toNat) % 2 ^ 32 < bufSize.toNat
            have bound := i.isLt
            omega
        · split
          · exact inside
          · apply hypothesis stillRoom
            rw [BitVec.toNat_add]
            change (i.toNat + 1) % 2 ^ 32 < bufSize.toNat
            omega
      · exact inside

/-- In a buffer of the given size, `get_line` returns or falls asleep. -/
theorem getLine_no_fault (room : bufSize.toNat ≤ buf.length)
    (positive : 0 < bufSize.toNat) (fault : Fault) :
    getLine codes buf bufSize console ≠ .error (.fault fault) := by
  have inside : Inside bufSize
      (getLineLoop bufSize (codes.length + 1) codes buf 0#32 console) :=
    getLineLoop_inside room positive
  intro failed
  rw [getLine] at failed
  rcases loop :
      getLineLoop bufSize (codes.length + 1) codes buf 0#32 console with
    stop | looped
  · rw [loop] at inside failed
    cases inside
    cases failed
  · rw [loop] at inside failed
    change looped.i.toNat < bufSize.toNat at inside
    have length := getLineLoop_length loop
    rw [ok_bind, storeBuf_inside (by omega)] at failed
    cases failed

/-- An empty result is an empty string. -/
theorem getLine_empty
    (returned : getLine codes buf bufSize console = .ok line)
    (zero : line.i = 0#32) : text line.buf = [] := by
  rw [getLine] at returned
  rcases bind_eq_ok.mp returned with ⟨looped, loop, rest⟩
  rcases bind_eq_ok.mp rest with ⟨stored, stores, final⟩
  cases final
  rcases storeBuf_ok stores with ⟨_, equal⟩
  change looped.i = 0#32 at zero
  rw [zero] at equal
  rw [equal]
  cases looped.buf with
  | nil => rfl
  | cons head tail => exact text_zero

/-- A line that `get_line` returns ends with a NUL in the caller's buffer. -/
theorem getLine_terminated
    (returned : getLine codes buf bufSize console = .ok line) :
    line.buf.length = buf.length ∧ Terminated line.buf := by
  rw [getLine] at returned
  rcases bind_eq_ok.mp returned with ⟨looped, loop, rest⟩
  rcases bind_eq_ok.mp rest with ⟨stored, stores, final⟩
  cases final
  rcases storeBuf_ok stores with ⟨inside, equal⟩
  constructor
  · rw [equal, List.length_set]
    exact getLineLoop_length loop
  · rw [equal]
    exact List.mem_set inside 0#8

end Buffer

end MagicalOs.Console.LineInput
