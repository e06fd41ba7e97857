import MagicalOs.Console.KeyboardBuffer
import MagicalOs.Kernel.Descriptors

/-!
# The state of the kernel

One record holds the physical memory and the static variables of `sched.c`,
`task.c`, `memory.c`, `timer.c` and `console_io.c` which scheduling, task
creation and the two interrupt handlers work on.  Task structures, page
directories and page tables live in the physical memory, as the kernel
addresses them.

The addresses of two static objects are chosen by the linker.  They are
parameters of the model: all that is used of them is that they lie in the
kernel image, below `0x11000`, and do not overlap.
-/

namespace MagicalOs.Kernel.MachineState

open MagicalOs.Library.ByteMemory
open MagicalOs.Kernel.Descriptors
open MagicalOs.Console.KeyboardBuffer

/-- `sizeof(struct task)`. -/
def sizeofTask : Nat := 144

/-- The addresses of `dummy_task` and `kern_task_tss`. -/
structure Layout where
  dummyTask : Nat
  kernTaskTss : Nat
  dummyTask_above : 0x7e00 ≤ dummyTask
  dummyTask_below : dummyTask + sizeofTask ≤ 0x11000
  kernTaskTss_above : 0x7e00 ≤ kernTaskTss
  kernTaskTss_below : kernTaskTss + sizeofTss ≤ 0x11000
  separate :
    dummyTask + sizeofTask ≤ kernTaskTss ∨
      kernTaskTss + sizeofTss ≤ dummyTask

/-- Addresses at the end of the kernel image. -/
def Layout.sample : Layout where
  dummyTask := 0x10000
  kernTaskTss := 0x10100
  dummyTask_above := by decide
  dummyTask_below := by decide
  kernTaskTss_above := by decide
  kernTaskTss_below := by decide
  separate := by decide

/-- A queue head of `sched.c`. -/
structure Queue where
  head : Nat
  len : Word
  deriving DecidableEq

/-- One `outb_p`. -/
structure PortWrite where
  value : Byte
  port : Half
  deriving DecidableEq

structure Machine where
  mem : Memory
  heapAllocTable : Nat → Byte
  gdt : DescriptorTable
  cpu : Cpu
  taskIdCounter : Half
  currentTask : Nat
  runQueue : Queue
  wakeupQueue : Queue
  wakeupEventQueue : Queue
  globalCounter : Word
  keycodeQueue : KeycodeQueue
  ports : List PortWrite

/-- `outb_p(value, port)`. -/
def Machine.outbP (machine : Machine) (value : Byte) (port : Half) : Machine :=
  { machine with ports := machine.ports ++ [⟨value, port⟩] }

/-- Acknowledge an interrupt: `IOADR_MPIC_OCW2_BIT_MANUAL_EOI | line`. -/
def Machine.manualEoi (machine : Machine) (line : Byte) : Machine :=
  machine.outbP (0x60#8 ||| line) 0x0020#16

/-- `INTR_IR_TIMER`. -/
def intrIrTimer : Byte := 0#8

/-- `INTR_IR_KB`. -/
def intrIrKb : Byte := 1#8

end MagicalOs.Kernel.MachineState
