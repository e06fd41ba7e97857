import MagicalOs.Kernel.InterruptTable
import MagicalOs.Library.StackCode

/-!
# The interrupt handlers

The instructions of the handlers in `sys.S`, under their labels.  The routines
which they call are compiled, and may do anything the calling convention allows:
in particular they may switch to other tasks before they return.

Every interrupt which is not an exception is invisible to the code it
interrupts.  A system call hands four registers to `do_syscall` as its
arguments, and comes back with its result in `eax`; the words of the arguments
belong to the compiled routine, and the handler pops three of them into `ebx`,
`ecx` and `edx`.
-/

namespace MagicalOs.Kernel.Handlers

open MagicalOs.Library.ByteMemory
open MagicalOs.Library.ByteMemory.Memory
open MagicalOs.Library.StackMachine
open MagicalOs.Library.StackCode
open MagicalOs.Kernel.GateDescriptors
open MagicalOs.Kernel.InterruptTable

/-! ## The code -/

/-- The routines which the handlers call. -/
inductive Symbol where
  | doIrKeyboard
  | doIrTimer
  | doException
  | doPageFault
  | doSyscall
  deriving DecidableEq

abbrev Code := List (Instruction Symbol)

def keyboardHandler : Code :=
  [.pushal, .call .doIrKeyboard, .popal, .iret]

def timerHandler : Code :=
  [.pushal, .call .doIrTimer, .popal, .iret]

/-- `exception_handler`, given the address of `excp_error_code`. -/
def exceptionHandler (excpErrorCode : Nat) : Code :=
  [.popl (.memory excpErrorCode), .pushal, .call .doException, .popal, .iret]

/-- The handlers of most exceptions jump to themselves. -/
def endlessHandler : Code :=
  [.loop, .iret]

def pageFaultHandler (excpErrorCode : Nat) : Code :=
  [.popl (.memory excpErrorCode), .pushal, .movlCr2 .eax,
    .pushl (.register .eax), .pushl (.memory excpErrorCode),
    .call .doPageFault, .popl (.register .eax), .popl (.register .eax),
    .popal, .iret]

/-- The registers which the system call pushes, in this order. -/
def pushedRegisters : List Register :=
  [.esp, .ebp, .esi, .edi, .edx, .ecx, .ebx, .eax]

/-- The word of `eax` is popped into `ebx`, and then the one of `ebx` is. -/
def poppedRegisters : List Register :=
  [.ebx, .ebx, .ecx, .edx, .edi, .esi, .ebp, .esp]

def syscallHandler : Code :=
  pushedRegisters.map (fun register => .pushl (.register register)) ++
    [.call .doSyscall] ++
    poppedRegisters.map (fun register => .popl (.register register)) ++
    [.iret]

def ignoreInt : Code :=
  [.iret]

/-- The instructions behind each label. -/
def code (excpErrorCode : Nat) : Handler → Code
  | .ignoreInt => ignoreInt
  | .exceptionHandler => exceptionHandler excpErrorCode
  | .divideErrorHandler => endlessHandler
  | .debugHandler => endlessHandler
  | .nmiHandler => endlessHandler
  | .breakpointHandler => endlessHandler
  | .overflowHandler => endlessHandler
  | .boundRangeExceededHandler => endlessHandler
  | .invalidOpcodeHandler => endlessHandler
  | .deviceNotAvailableHandler => endlessHandler
  | .doubleFaultHandler => endlessHandler
  | .coprocessorSegmentOverrunHandler => endlessHandler
  | .invalidTssHandler => endlessHandler
  | .segmentNotPresentHandler => endlessHandler
  | .stackFaultHandler => endlessHandler
  | .generalProtectionHandler => endlessHandler
  | .pageFaultHandler => pageFaultHandler excpErrorCode
  | .x87FpuFloatingPointErrorHandler => endlessHandler
  | .alignmentCheckHandler => endlessHandler
  | .machineCheckHandler => endlessHandler
  | .simdFloatingPointHandler => endlessHandler
  | .virtualizationHandler => endlessHandler
  | .timerHandler => timerHandler
  | .keyboardHandler => keyboardHandler
  | .syscallHandler => syscallHandler

/-! ## Taking an interrupt -/

section Handlers

variable {image : Image} {idt : InterruptTable} {core after : Core}
  {stack : Core.InnerStack} {start bottom : Nat} {vector : Byte}

/-- The state in which `do_syscall` is called. -/
def called (entered : Core) : Core :=
  entered.pushAll (pushedRegisters.map entered.get)

/-- The first four words are the arguments of `do_syscall`. -/
def arguments (core : Core) : List Word :=
  [core.get .eax, core.get .ebx, core.get .ecx, core.get .edx]

/-- The registers of the caller when the system call comes back. -/
def results (core returned : Core) : Register → Word
  | .eax => returned.get .eax
  | .ebx => returned.memory.load32 (returned.stackTop + 4)
  | .ecx => returned.memory.load32 (returned.stackTop + 8)
  | .edx => returned.memory.load32 (returned.stackTop + 12)
  | other => core.get other

/-- How a system call comes back, after a call of `do_syscall`. -/
structure Answered (stack : Core.InnerStack) (bottom : Nat)
    (core called returned after : Core) : Prop where
  arguments : Stacked called.memory called.stackTop (arguments core)
  same : after =
    { core with
      registers := results core returned
      cr2 := after.cr2
      memory := returned.memory }
  stack : ∀ address, core.frameEnd stack ≤ address → address < bottom →
    after.memory address = core.memory address
  others : Stacked returned.memory returned.stackTop (Handlers.arguments core) →
    ∀ register, register ≠ .eax → after.get register = core.get register

end Handlers

end MagicalOs.Kernel.Handlers
