import MagicalOs.Kernel.KernelRuns

/-!
# Task creation without enough free pages

`mem_alloc` returns the null pointer when no page is free, as `kmalloc` checks.
`task_init` does not: with fewer than four free pages it takes those that are
left, goes on with address 0 in place of the missing ones, and puts the task on
the run queue.
-/

namespace MagicalOs.Kernel.FailedCreation

open MagicalOs.Library.ByteMemory
open MagicalOs.Kernel.HeapPages
open MagicalOs.Kernel.MachineState
open MagicalOs.Kernel.SchedQueues
open MagicalOs.Kernel.TaskCreation
open MagicalOs.Kernel.KernelRuns

section Exhausted

variable {table : HeapTable} {machine : Machine}

end Exhausted

/-! ## A used heap -/

/-- A booted machine on which the first heap pages are live. -/
def used (count : Nat) : Machine :=
  { boot Layout.sample fun _ => 0#8 with
    heapAllocTable := fun page => if page < count then 1#8 else 0#8 }

end MagicalOs.Kernel.FailedCreation
