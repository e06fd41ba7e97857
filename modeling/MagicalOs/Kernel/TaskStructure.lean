import MagicalOs.Kernel.HeapPages
import MagicalOs.Kernel.MachineState

/-!
# Task structures in memory

The fields of `struct task`, as loads and stores at their offsets.  A task
structure starts a heap page, so the structures of two tasks never overlap.
-/

namespace MagicalOs.Kernel.TaskStructure

open MagicalOs.Library.ByteMemory
open MagicalOs.Library.ByteMemory.Memory
open MagicalOs.Kernel.HeapPages

/-! ## The fields -/

def prev (mem : Memory) (task : Nat) : Nat := mem.loadPtr task
def next (mem : Memory) (task : Nat) : Nat := mem.loadPtr (task + 4)
def taskId (mem : Memory) (task : Nat) : Half := mem.load16 (task + 8)

/-- The address of the field `tss`. -/
def tss (task : Nat) : Nat := task + 12

/-- The address of the field `context_switch_func`. -/
def contextSwitchFunc (task : Nat) : Nat := task + 120

def taskSwitchedInTimeSlice (mem : Memory) (task : Nat) : Byte :=
  mem (task + 132)

def wakeupAfterMsec (mem : Memory) (task : Nat) : Word :=
  mem.load32 (task + 136)

def wakeupAfterEvent (mem : Memory) (task : Nat) : Byte :=
  mem (task + 140)

def setPrev (mem : Memory) (task value : Nat) : Memory :=
  mem.storePtr task value

def setNext (mem : Memory) (task value : Nat) : Memory :=
  mem.storePtr (task + 4) value

def setTaskSwitchedInTimeSlice (mem : Memory) (task : Nat) (value : Byte) :
    Memory :=
  mem.store8 (task + 132) value

def setWakeupAfterMsec (mem : Memory) (task : Nat) (value : Word) : Memory :=
  mem.store32 (task + 136) value

def setWakeupAfterEvent (mem : Memory) (task : Nat) (value : Byte) : Memory :=
  mem.store8 (task + 140) value

/-! ## Frames -/

/-- Only the link fields of the given tasks may differ. -/
def LinksOnly (before after : Memory) (tasks : List Nat) : Prop :=
  ∀ address, (∀ task ∈ tasks, address < task ∨ task + 8 ≤ address) →
    after address = before address

namespace LinksOnly

variable {before middle after : Memory} {tasks larger : List Nat}

theorem refl (mem : Memory) (tasks : List Nat) : LinksOnly mem mem tasks :=
  fun _ _ => rfl

theorem trans (first : LinksOnly before middle tasks)
    (second : LinksOnly middle after tasks) :
    LinksOnly before after tasks :=
  fun address outside =>
    (second address outside).trans (first address outside)

theorem mono (links : LinksOnly before after tasks)
    (subset : tasks ⊆ larger) :
    LinksOnly before after larger :=
  fun address outside =>
    links address fun task member => outside task (subset member)

theorem agreeOn (links : LinksOnly before after tasks) {base size : Nat}
    (outside : ∀ task ∈ tasks, base + size ≤ task ∨ task + 8 ≤ base) :
    AgreeOn after before base size := by
  intro address lower upper
  refine links address fun task member => ?_
  have apart := outside task member
  omega

theorem setPrev {task value : Nat} (member : task ∈ tasks) :
    LinksOnly before (TaskStructure.setPrev before task value) tasks := by
  intro address outside
  have apart := outside task member
  exact storePtr_agreeOutside before task value address (by omega)

theorem setNext {task value : Nat} (member : task ∈ tasks) :
    LinksOnly before (TaskStructure.setNext before task value) tasks := by
  intro address outside
  have apart := outside task member
  exact storePtr_agreeOutside before (task + 4) value address (by omega)

end LinksOnly

/-! ## Stores behind the switch routine -/

theorem setTaskSwitchedInTimeSlice_tail (mem : Memory) (task : Nat)
    (value : Byte) :
    AgreeOutside (setTaskSwitchedInTimeSlice mem task value) mem
      (task + 132) 12 :=
  (store8_agreeOutside mem (task + 132) value).mono (by omega) (by omega)

theorem setWakeupAfterMsec_tail (mem : Memory) (task : Nat) (value : Word) :
    AgreeOutside (setWakeupAfterMsec mem task value) mem (task + 132) 12 :=
  (store32_agreeOutside mem (task + 136) value).mono (by omega) (by omega)

theorem setWakeupAfterEvent_tail (mem : Memory) (task : Nat) (value : Byte) :
    AgreeOutside (setWakeupAfterEvent mem task value) mem (task + 132) 12 :=
  (store8_agreeOutside mem (task + 140) value).mono (by omega) (by omega)

/-! ## Loads after stores to the link fields -/

section LinkFields

variable {mem : Memory} {task other value : Nat}

theorem next_setNext_self (small : value < 2 ^ 32) :
    next (setNext mem task value) task = value :=
  loadPtr_storePtr_self mem (task + 4) small

theorem prev_setPrev_self (small : value < 2 ^ 32) :
    prev (setPrev mem task value) task = value :=
  loadPtr_storePtr_self mem task small

theorem next_setNext_of_ne (taskPage : IsHeapPage task)
    (otherPage : IsHeapPage other) (different : other ≠ task) :
    next (setNext mem task value) other = next mem other := by
  have apart := otherPage.apart taskPage different
  exact loadPtr_storePtr_of_disjoint mem value (by omega)

theorem prev_setPrev_of_ne (taskPage : IsHeapPage task)
    (otherPage : IsHeapPage other) (different : other ≠ task) :
    prev (setPrev mem task value) other = prev mem other := by
  have apart := otherPage.apart taskPage different
  exact loadPtr_storePtr_of_disjoint mem value (by omega)

theorem next_setPrev (taskPage : IsHeapPage task)
    (otherPage : IsHeapPage other) :
    next (setPrev mem task value) other = next mem other := by
  apply loadPtr_storePtr_of_disjoint mem value
  by_cases equal : other = task
  · omega
  · have apart := otherPage.apart taskPage equal
    omega

theorem prev_setNext (taskPage : IsHeapPage task)
    (otherPage : IsHeapPage other) :
    prev (setNext mem task value) other = prev mem other := by
  apply loadPtr_storePtr_of_disjoint mem value
  by_cases equal : other = task
  · omega
  · have apart := otherPage.apart taskPage equal
    omega

end LinkFields

end MagicalOs.Kernel.TaskStructure
