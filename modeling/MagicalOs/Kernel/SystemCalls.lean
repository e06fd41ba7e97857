import MagicalOs.Console.LineInput
import MagicalOs.Console.ScreenBounds
import MagicalOs.Kernel.KernelRuns

/-!
# System calls

`do_syscall` looks at the number of a call, narrows its words to what a
function of the kernel takes, and calls this function.  The calls run with
interrupts off; those which sleep give the processor away on their way, and
`get_line` does so before every key.  So its keys are steps of their own, and
every other call is one step.
-/

namespace MagicalOs.Kernel.SystemCalls

open MagicalOs.Library.ByteMemory
open MagicalOs.Console.Screen
open MagicalOs.Console.ScreenBounds (Operation)
open MagicalOs.Console.LineInput (eraseChar)
open MagicalOs.Kernel.MachineState
open MagicalOs.Kernel.TaskCreation (File)
open MagicalOs.Kernel.KernelRuns

/-! ## The switch -/

/-- The registers of a system call. -/
structure Call where
  syscallId : Word
  arg1 : Word
  arg2 : Word
  arg3 : Word

/-- A function of the kernel, with what `do_syscall` hands to it. -/
inductive Service where
  | timerGetGlobalCounter
  | wakeupAfterMsec (msec : Word)
  | cursorPosY
  | putStr (str : Word)
  | putStrPos (str : Word) (x y : Byte)
  | dumpHex (val numDigits : Word)
  | dumpHexPos (val numDigits : Word) (x y : Byte)
  | getLine (buf bufSize : Word)
  | fsOpen (name : Word)
  | taskInit (file : Word)
  | shutdown

/-- The `switch` of `do_syscall`, by the numbers of `kernel.h`. -/
def service (call : Call) : Option Service :=
  match call.syscallId.toNat with
  | 1 => some .timerGetGlobalCounter
  | 2 => some (.wakeupAfterMsec call.arg1)
  | 3 => some .cursorPosY
  | 4 => some (.putStr call.arg1)
  | 5 =>
      some
        (.putStrPos call.arg1 (call.arg2.setWidth 8) (call.arg3.setWidth 8))
  | 6 => some (.dumpHex call.arg1 call.arg2)
  | 7 =>
      some
        (.dumpHexPos call.arg1 call.arg2 ((call.arg3 >>> 16).setWidth 8)
          ((call.arg3 &&& 0x0000ffff#32).setWidth 8))
  | 8 => some (.getLine call.arg1 call.arg2)
  | 9 => some (.fsOpen call.arg1)
  | 10 => some (.taskInit call.arg1)
  | 11 => some .shutdown
  | _ => none

/-! ## The functions -/

/-- The memory of the caller and the files of the kernel. -/
structure Caller where
  str : Word → List Byte
  fsOpen : List Byte → Word
  fileAt : Word → Option File

structure System where
  machine : Machine
  console : ConsoleState

/-- The characters which `SYSCALL_SHUTDOWN` sends to the port. -/
def shutdownBytes : List Byte :=
  [0x53#8, 0x68#8, 0x75#8, 0x74#8, 0x64#8, 0x6f#8, 0x77#8, 0x6e#8]

def shutdown (console : ConsoleState) : ConsoleState :=
  shutdownBytes.foldl (fun console value => outbP value 0x8900#16 console)
    console

/-- What a call does on the screen. -/
def drawService (caller : Caller) (service : Service) (console : ConsoleState) :
    ConsoleState :=
  match service with
  | .putStr str => putStr (caller.str str) console
  | .putStrPos str x y => putStrPos (caller.str str) x y console
  | .dumpHex val numDigits => dumpHex val numDigits console
  | .dumpHexPos val numDigits x y => dumpHexPos val numDigits x y console
  | .shutdown => shutdown console
  | _ => console

/-- The calls which are one step, with their results. -/
inductive Serves (layout : Layout) (caller : Caller) (system : System) :
    Service → Word → System → Prop where
  | timerGetGlobalCounter :
      Serves layout caller system .timerGetGlobalCounter
        system.machine.globalCounter system
  | wakeupAfterMsec {msec : Word} {after : Machine}
      (taken : Step layout system.machine (.wakeupAfterMsec msec) after) :
      Serves layout caller system (.wakeupAfterMsec msec) 0#32
        { system with machine := after }
  | cursorPosY :
      Serves layout caller system .cursorPosY system.console.cursorPos.y
        system
  | putStr (str : Word) :
      Serves layout caller system (.putStr str) 0#32
        { system with
          console := drawService caller (.putStr str) system.console }
  | putStrPos (str : Word) (x y : Byte) :
      Serves layout caller system (.putStrPos str x y) 0#32
        { system with
          console := drawService caller (.putStrPos str x y) system.console }
  | dumpHex (val numDigits : Word) :
      Serves layout caller system (.dumpHex val numDigits) 0#32
        { system with
          console :=
            drawService caller (.dumpHex val numDigits) system.console }
  | dumpHexPos (val numDigits : Word) (x y : Byte) :
      Serves layout caller system (.dumpHexPos val numDigits x y) 0#32
        { system with
          console :=
            drawService caller (.dumpHexPos val numDigits x y) system.console }
  | fsOpen (name : Word) :
      Serves layout caller system (.fsOpen name)
        (caller.fsOpen (caller.str name)) system
  | taskInit {file : Word} {opened : File} {after : Machine}
      (isFile : caller.fileAt file = some opened)
      (taken : Step layout system.machine (.taskInit opened) after) :
      Serves layout caller system (.taskInit file) 0#32
        { system with machine := after }
  | shutdown :
      Serves layout caller system .shutdown (-1#32)
        { system with console := drawService caller .shutdown system.console }

/-- `do_syscall`; a number without a function gives the first `result`. -/
inductive DoSyscall (layout : Layout) (caller : Caller) (system : System)
    (call : Call) : Word → System → Prop where
  | serves {called : Service} {result : Word} {after : System}
      (asked : service call = some called)
      (served : Serves layout caller system called result after) :
      DoSyscall layout caller system call result after
  | unknown (asked : service call = none) :
      DoSyscall layout caller system call (-1#32) system

/-! ## What happens on the screen -/

/-- What `get_line` does on the screen for a key. -/
inductive Key where
  | char (c : Byte)
  | newline
  | backspace

def echo (key : Key) (console : ConsoleState) : ConsoleState :=
  match key with
  | .char c => putChar c console
  | .newline => putChar carriageReturn (putChar newline console)
  | .backspace => eraseChar console

/-- A call on the screen, if its number has a function. -/
def drawCall (caller : Caller) (call : Call) (console : ConsoleState) :
    ConsoleState :=
  match service call with
  | some called => drawService caller called console
  | none => console

section Draw

variable {layout : Layout} {caller : Caller} {system after : System}
  {called : Service} {call : Call} {result : Word}

theorem Serves.console (served : Serves layout caller system called result
      after) :
    after.console = drawService caller called system.console := by
  cases served with
  | _ => rfl

theorem DoSyscall.console
    (done : DoSyscall layout caller system call result after) :
    after.console = drawCall caller call system.console := by
  cases done with
  | serves asked served =>
      rw [served.console, drawCall, asked]
  | unknown asked =>
      rw [drawCall, asked]

/-- The calls which only ask have no effect. -/
theorem DoSyscall.timerGetGlobalCounter
    (asked : service call = some .timerGetGlobalCounter)
    (done : DoSyscall layout caller system call result after) :
    result = system.machine.globalCounter ∧ after = system := by
  cases done with
  | serves other served =>
      rw [asked] at other
      cases other
      cases served
      exact ⟨rfl, rfl⟩
  | unknown other =>
      rw [asked] at other
      cases other

theorem DoSyscall.cursorPosY (asked : service call = some .cursorPosY)
    (done : DoSyscall layout caller system call result after) :
    result = system.console.cursorPos.y ∧ after = system := by
  cases done with
  | serves other served =>
      rw [asked] at other
      cases other
      cases served
      exact ⟨rfl, rfl⟩
  | unknown other =>
      rw [asked] at other
      cases other

end Draw

end MagicalOs.Kernel.SystemCalls
