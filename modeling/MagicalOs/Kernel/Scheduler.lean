import MagicalOs.Kernel.SchedQueues

/-!
# The scheduler

The dispatcher, the two wake-up traversals and the two sleeping calls of
`sched.c`, and the interrupt handlers which call them.  Every routine runs
with interrupts off, so each is one function of the machine; the pairs of
`kern_lock` and `kern_unlock` around its parts have no further effect.

A traversal is a `do ... while` loop over a ring which it modifies.  Its
definition takes a bound on the number of iterations and has no result when
the bound is exceeded.
-/

namespace MagicalOs.Kernel.Scheduler

open MagicalOs.Library.ByteMemory
open MagicalOs.Library.ByteMemory.Memory
open MagicalOs.Console.KeyboardBuffer
open MagicalOs.Kernel.Descriptors
open MagicalOs.Kernel.MachineState
open MagicalOs.Kernel.TaskStructure
open MagicalOs.Kernel.SchedQueues

/-- The causes of a call of `schedule`. -/
inductive SchedCause where
  | timer
  | syscall
  deriving DecidableEq

/-- `TIMER_TICK_MS`. -/
def timerTickMs : Word := 10#32

/-- `EVENT_TYPE_KBD`. -/
def eventTypeKbd : Byte := 1#8

/-- `KERN_TASK_GDT_IDX` as a selector. -/
def kernTaskSelector : Half := 0x18#16

/-! ## Context switches -/

/-- Execute the far jump of a context switch. -/
def jumpTo (machine : Machine) (selector : Half) : Machine :=
  let (gdt, cpu) := ljmp machine.gdt machine.cpu selector
  { machine with gdt := gdt, cpu := cpu }

/-- `kern_task_context_switch`. -/
def kernTaskContextSwitch (machine : Machine) : Machine :=
  jumpTo machine kernTaskSelector

/-- The selector in the `ljmp` instruction of a task's own routine. -/
def contextSwitchSelector (mem : Memory) (task : Nat) : Half :=
  mem.load16 (contextSwitchFunc task + 8)

/-- `task->context_switch()`. -/
def taskContextSwitch (machine : Machine) (task : Nat) : Machine :=
  jumpTo machine (contextSwitchSelector machine.mem task)

/-! ## The dispatcher -/

/-- `current_task->task_switched_in_time_slice = value`. -/
def markTimeSlice (machine : Machine) (value : Byte) : Machine :=
  { machine with
    mem := setTaskSwitchedInTimeSlice machine.mem machine.currentTask value }

/-- Make `task` current and switch to it. -/
def switchTo (machine : Machine) (cause : SchedCause) (task : Nat) :
    Machine :=
  let machine := { machine with currentTask := task }
  let machine :=
    if cause = .syscall then markTimeSlice machine 1#8 else machine
  taskContextSwitch (machine.manualEoi intrIrTimer) task

/-- The part of `schedule` after the time slice of the last task has ended. -/
def dispatch (machine : Machine) (cause : SchedCause) : Machine :=
  if machine.runQueue.head = 0 then
    if machine.currentTask = 0 then
      machine.manualEoi intrIrTimer
    else
      kernTaskContextSwitch
        ({ machine with currentTask := 0 }.manualEoi intrIrTimer)
  else if machine.currentTask ≠ 0 then
    if machine.currentTask ≠ next machine.mem machine.currentTask then
      switchTo machine cause (next machine.mem machine.currentTask)
    else
      machine.manualEoi intrIrTimer
  else
    switchTo machine cause machine.runQueue.head

def schedule (machine : Machine) (cause : SchedCause) : Machine :=
  if cause = .timer ∧ machine.currentTask ≠ 0 ∧
      taskSwitchedInTimeSlice machine.mem machine.currentTask ≠ 0#8 then
    (markTimeSlice machine 0#8).manualEoi intrIrTimer
  else if machine.currentTask ≠ 0 then
    dispatch (markTimeSlice machine 0#8) cause
  else
    dispatch machine cause

/-! ## Waking tasks up -/

/--
The loop of both traversals: visit a task, then go on with the successor it
had before the visit, until the queue is empty or its head is reached.
-/
def updateLoop (queue : Machine → Queue) (visit : Machine → Nat → Machine) :
    (iterations : Nat) → Machine → Nat → Option Machine
  | 0, _, _ => none
  | iterations + 1, machine, task =>
      let successor := next machine.mem task
      let machine := visit machine task
      if (queue machine).head ≠ 0 ∧ successor ≠ (queue machine).head then
        updateLoop queue visit iterations machine successor
      else
        some machine

/-- The loop body of `sched_update_wakeupq`. -/
def visitSleeper (machine : Machine) (task : Nat) : Machine :=
  if timerTickMs < wakeupAfterMsec machine.mem task then
    { machine with
      mem :=
        setWakeupAfterMsec machine.mem task
          (wakeupAfterMsec machine.mem task - timerTickMs) }
  else
    let machine :=
      { machine with mem := setWakeupAfterMsec machine.mem task 0#32 }
    schedRunqEnq (schedWakeupqDel machine task).2 task

def schedUpdateWakeupq (iterations : Nat) (machine : Machine) :
    Option (Int × Machine) :=
  if machine.wakeupQueue.head = 0 then
    some (-1, machine)
  else
    (updateLoop Machine.wakeupQueue visitSleeper iterations machine
      machine.wakeupQueue.head).map fun machine => (0, machine)

/-- The loop body of `sched_update_wakeupevq`. -/
def visitWaiter (eventType : Byte) (machine : Machine) (task : Nat) :
    Machine :=
  if wakeupAfterEvent machine.mem task = eventType then
    let machine :=
      { machine with mem := setWakeupAfterEvent machine.mem task 0#8 }
    schedRunqEnq (schedWakeupevqDel machine task).2 task
  else
    machine

def schedUpdateWakeupevq (iterations : Nat) (machine : Machine)
    (eventType : Byte) : Option (Int × Machine) :=
  if machine.wakeupEventQueue.head = 0 then
    some (-1, machine)
  else
    (updateLoop Machine.wakeupEventQueue (visitWaiter eventType) iterations
      machine machine.wakeupEventQueue.head).map fun machine => (0, machine)

/-! ## Going to sleep -/

/-- Both sleeping calls first save the successor of the sleeper. -/
def saveSuccessor (layout : Layout) (machine : Machine) : Machine :=
  if next machine.mem machine.currentTask ≠ machine.currentTask then
    { machine with
      mem :=
        setNext machine.mem layout.dummyTask
          (next machine.mem machine.currentTask) }
  else
    machine

/-- Both sleeping calls hand the dummy task to the dispatcher. -/
def leaveToDummy (layout : Layout) (machine : Machine) : Machine :=
  { machine with currentTask := layout.dummyTask }

/-- `wakeup_after_msec` up to its call of `schedule`. -/
def enterSleep (layout : Layout) (machine : Machine) (msec : Word) : Machine :=
  let machine := saveSuccessor layout machine
  let task := machine.currentTask
  let machine :=
    { machine with mem := setWakeupAfterMsec machine.mem task msec }
  let machine := (schedRunqDel machine task).2
  leaveToDummy layout (schedWakeupqEnq machine task)

/-- The function `wakeup_after_msec`. -/
def callWakeupAfterMsec (layout : Layout) (machine : Machine) (msec : Word) :
    Machine :=
  schedule (enterSleep layout machine msec) .syscall

/-- `wakeup_after_event` up to its call of `schedule`. -/
def enterWait (layout : Layout) (machine : Machine) (eventType : Byte) :
    Machine :=
  let machine := saveSuccessor layout machine
  let task := machine.currentTask
  let machine :=
    { machine with mem := setWakeupAfterEvent machine.mem task eventType }
  let machine := (schedRunqDel machine task).2
  leaveToDummy layout (schedWakeupevqEnq machine task)

/-- The function `wakeup_after_event`. -/
def callWakeupAfterEvent (layout : Layout) (machine : Machine)
    (eventType : Byte) : Machine :=
  schedule (enterWait layout machine eventType) .syscall

/-! ## Interrupt handlers -/

/-- `do_ir_timer` up to its call of `schedule`. -/
def tick (iterations : Nat) (machine : Machine) : Option Machine :=
  let machine :=
    { machine with globalCounter := machine.globalCounter + timerTickMs }
  (schedUpdateWakeupq iterations machine).map Prod.snd

def doIrTimer (iterations : Nat) (machine : Machine) : Option Machine :=
  (tick iterations machine).map fun machine => schedule machine .timer

/-- Take a scan code from the keyboard controller, if it has one. -/
def receiveKeycode (machine : Machine) (status data : Byte) : Machine :=
  if status &&& 0x01#8 ≠ 0#8 then
    { machine with keycodeQueue := enqueue machine.keycodeQueue data }
  else
    machine

/--
`do_ir_keyboard`, given the status and the data which the keyboard controller
presents.
-/
def doIrKeyboard (iterations : Nat) (machine : Machine)
    (status data : Byte) : Option Machine :=
  (schedUpdateWakeupevq iterations (receiveKeycode machine status data)
    eventTypeKbd).map fun (_, machine) => machine.manualEoi intrIrKb

end MagicalOs.Kernel.Scheduler
