import MagicalOs.Kernel.Dispatch
import MagicalOs.Kernel.TaskCreation

/-!
# Runs of the kernel

A run starts with the machine as `kern_init` sets it up and goes on with task
creations, timer and keyboard interrupts, and sleeps of the current task, in
any order.  Every step runs with interrupts off, so it is one transition.  A
run records the task structures it has created.

Runs are taken over a condition on the steps; `Reachable` is the unconditional
case.
-/

namespace MagicalOs.Kernel.KernelRuns

open MagicalOs.Library.ByteMemory
open MagicalOs.Library.ByteMemory.Memory
open MagicalOs.Console.KeyboardBuffer
open MagicalOs.Kernel.Descriptors
open MagicalOs.Kernel.HeapPages
open MagicalOs.Kernel.MachineState
open MagicalOs.Kernel.PageTables
open MagicalOs.Kernel.TaskStructure
open MagicalOs.Kernel.TaskCreation
open MagicalOs.Kernel.SchedQueues
open MagicalOs.Kernel.Scheduler
open MagicalOs.Kernel.TaskQueues
open MagicalOs.Kernel.Dispatch

/-! ## The boot state -/

/-- `KERN_TASK_GDT_IDX`. -/
def kernTaskGdtIdx : Nat := 3

/-- `kern_task_init`. -/
def kernTaskInit (layout : Layout) (machine : Machine) : Machine :=
  let mem := machine.mem.store32 (layout.kernTaskTss + 4) 0x0007f800#32
  let mem := mem.store16 (layout.kernTaskTss + 8) 0x0010#16
  let mem := mem.store32 (layout.kernTaskTss + 28) 0x0008f018#32
  let gdt :=
    initGdt machine.gdt kernTaskGdtIdx (BitVec.ofNat 32 layout.kernTaskTss)
      (BitVec.ofNat 32 sizeofTss) 0#8
  let (gdt, cpu) := ltr gdt (BitVec.ofNat 16 (8 * kernTaskGdtIdx))
  { machine with mem := mem, gdt := gdt, cpu := cpu }

/-- Only the segment of the kernel task is written. -/
theorem kernTaskInit_frame (layout : Layout) (machine : Machine)
    {address : Nat} (above : 0x11000 ≤ address) :
    (kernTaskInit layout machine).mem address = machine.mem address := by
  have below := layout.kernTaskTss_below
  rw [Descriptors.sizeofTss] at below
  have first := store32_agreeOutside machine.mem (layout.kernTaskTss + 4)
    0x0007f800#32
  have second := store16_agreeOutside
    (machine.mem.store32 (layout.kernTaskTss + 4) 0x0007f800#32)
    (layout.kernTaskTss + 8) 0x0010#16
  have third := store32_agreeOutside
    ((machine.mem.store32 (layout.kernTaskTss + 4) 0x0007f800#32).store16
      (layout.kernTaskTss + 8) 0x0010#16)
    (layout.kernTaskTss + 28) 0x0008f018#32
  exact (third address (by omega)).trans
    ((second address (by omega)).trans (first address (by omega)))

/-- The static variables before `kern_init`, over some memory. -/
def staticMachine (mem : Memory) : Machine where
  mem := mem
  heapAllocTable := fun _ => 0#8
  gdt := staticGdt
  cpu := { taskRegister := 0#16, runningTss := 0#32, switchFailed := false }
  taskIdCounter := 1#16
  currentTask := 0
  runQueue := { head := 0, len := 0#32 }
  wakeupQueue := { head := 0, len := 0#32 }
  wakeupEventQueue := { head := 0, len := 0#32 }
  globalCounter := 0#32
  keycodeQueue :=
    conInit
      { buf := fun _ => 0#8
        start := 0#8
        «end» := 0#8
        isFull := 0#8
        errorStatus := 0#8 }
  ports := []

/-- The machine before the first task is created. -/
def boot (layout : Layout) (mem : Memory) : Machine :=
  kernTaskInit layout (staticMachine (memInit mem))

/-! ## Steps -/

inductive Event where
  | taskInit (file : File)
  | timer
  | keyboard (status data : Byte)
  | wakeupAfterMsec (msec : Word)
  | wakeupAfterEvent (eventType : Byte)

/-- Tasks are created while pages are left, and only a running task sleeps. -/
def Enabled (machine : Machine) : Event → Prop
  | .taskInit _ => 4 ≤ (freePages machine.heapAllocTable).card
  | .timer => True
  | .keyboard _ _ => True
  | .wakeupAfterMsec _ => machine.currentTask ≠ 0
  | .wakeupAfterEvent _ => machine.currentTask ≠ 0

/-- The code which handles an event; traversals are bounded. -/
def perform (layout : Layout) (iterations : Nat) (machine : Machine) :
    Event → Option Machine
  | .taskInit file => some (taskInit machine file)
  | .timer => doIrTimer iterations machine
  | .keyboard status data => doIrKeyboard iterations machine status data
  | .wakeupAfterMsec msec => some (callWakeupAfterMsec layout machine msec)
  | .wakeupAfterEvent eventType =>
      some (callWakeupAfterEvent layout machine eventType)

def Step (layout : Layout) (machine : Machine) (event : Event)
    (after : Machine) : Prop :=
  Enabled machine event ∧
    ∃ iterations, perform layout iterations machine event = some after

/-- The task structures an event creates. -/
def createdBy (machine : Machine) : Event → List Nat
  | .taskInit _ => [(allocatePages machine.heapAllocTable).1.task]
  | .timer => []
  | .keyboard _ _ => []
  | .wakeupAfterMsec _ => []
  | .wakeupAfterEvent _ => []

/-- The runs whose steps satisfy a condition, with the created tasks. -/
inductive Run (layout : Layout) (mem : Memory)
    (Allowed : Machine → Event → Prop) : Machine → List Nat → Prop where
  | boot : Run layout mem Allowed (boot layout mem) []
  | step {machine : Machine} {created : List Nat} {event : Event}
      {after : Machine} (before : Run layout mem Allowed machine created)
      (allowed : Allowed machine event)
      (step : Step layout machine event after) :
      Run layout mem Allowed after (created ++ createdBy machine event)

/-- The states the kernel can reach, and the tasks created on the way. -/
def Reachable (layout : Layout) (mem : Memory) : Machine → List Nat → Prop :=
  Run layout mem fun _ _ => True

/-- The events, handled in this order, lead from one state to another. -/
def Follows (layout : Layout) (machine : Machine) :
    List Event → Machine → Prop
  | [], after => after = machine
  | event :: rest, after =>
      ∃ middle, Step layout machine event middle ∧
        Follows layout middle rest after

/-! ## What a step does to the queues -/

section Steps

variable {layout : Layout} {machine after : Machine} {queues : Queues}
  {front back sleep event created : List Nat} {task iterations : Nat}

/-- The machine which a sleeping call hands to `schedule`. -/
structure Leaving (layout : Layout) (machine entering : Machine)
    (before later : Queues) : Prop where
  dispatchable : Dispatchable layout entering later
  mem : DynamicOnly machine.mem entering.mem before.all
  heapAllocTable : entering.heapAllocTable = machine.heapAllocTable
  gdt : entering.gdt = machine.gdt
  cpu : entering.cpu = machine.cpu
  taskIdCounter : entering.taskIdCounter = machine.taskIdCounter
  currentTask : entering.currentTask = layout.dummyTask
  saved : later.run ≠ [] →
    next entering.mem layout.dummyTask =
      next machine.mem machine.currentTask
  perm : later.all.Perm before.all

/-- Saving the successor writes into the kernel image only. -/
theorem saveSuccessor_requeued (layout : Layout)
    (holds : Represents machine queues) :
    Requeued machine (saveSuccessor layout machine) queues queues := by
  rw [saveSuccessor]
  split
  next =>
    have below := layout.dummyTask_below
    have stored :
        AgreeOutside
          (setNext machine.mem layout.dummyTask
            (next machine.mem machine.currentTask)) machine.mem
          (layout.dummyTask + 4) 4 :=
      storePtr_agreeOutside _ _ _
    refine .of_image holds ?_ stored
    rw [sizeofTask] at below
    omega
  next => exact .refl holds

/-- A task which is not alone has its successor saved in the dummy task. -/
private theorem next_saveSuccessor (successorPage :
      IsHeapPage (next machine.mem machine.currentTask))
    (different : next machine.mem machine.currentTask ≠ machine.currentTask) :
    next (saveSuccessor layout machine).mem layout.dummyTask =
      next machine.mem machine.currentTask := by
  rw [saveSuccessor, if_pos different]
  exact next_setNext_self successorPage.small

/-- The successor of a task which leaves a ring of several tasks. -/
theorem next_of_leaving {mem : Memory} {queue : Queue}
    (ring : QueueRing mem queue (front ++ task :: back))
    (several : front ++ back ≠ []) :
    next mem task = (back ++ front).headD 0 ∧
      next mem task ∈ front ++ back ∧ next mem task ≠ task := by
  have successor := ring.ring.next_eq
  have nodup := ring.ring.nodup
  have fresh : task ∉ front ++ back :=
    (List.nodup_cons.mp (List.nodup_middle.mp nodup)).1
  cases rest : back ++ front with
  | nil =>
      rcases List.append_eq_nil_iff.mp rest with ⟨rfl, rfl⟩
      exact absurd rfl several
  | cons first others =>
      rw [rest, List.headD_cons] at successor
      have member : first ∈ front ++ back := by
        have inRest : first ∈ back ++ front := by simp [rest]
        simp only [List.mem_append] at inRest ⊢
        exact inRest.symm
      rw [successor]
      refine ⟨rfl, member, ?_⟩
      rintro rfl
      exact fresh member

/-- Both sleeping calls leave the ring of ready tasks in this way. -/
private theorem leaving_of_moved {stored : Memory} {moved : Machine}
    {later : Queues}
    (holds : Represents machine ⟨front ++ task :: back, sleep, event⟩)
    (current : machine.currentTask = task)
    (tail : AgreeOutside stored (saveSuccessor layout machine).mem
      (task + 132) 12)
    (requeued : Moved { saveSuccessor layout machine with mem := stored }
      moved ⟨front ++ task :: back, sleep, event⟩ later)
    (run : later.run = front ++ back) :
    Leaving layout machine (leaveToDummy layout moved)
      ⟨front ++ task :: back, sleep, event⟩ later := by
  have taskPage := holds.run.pages task (by simp)
  have image := layout.dummyTask_below
  rw [sizeofTask] at image
  have saving := saveSuccessor_requeued layout holds
  have storing : Requeued (saveSuccessor layout machine)
      { saveSuccessor layout machine with mem := stored }
      ⟨front ++ task :: back, sleep, event⟩
      ⟨front ++ task :: back, sleep, event⟩ :=
    .of_tail saving.represents (by simp [Queues.all]) tail
  have whole := saving.trans (storing.trans requeued.toRequeued)
  have saved : later.run ≠ [] →
      next moved.mem layout.dummyTask =
        next machine.mem machine.currentTask := by
    intro several
    have successor := next_of_leaving holds.run (run ▸ several)
    have successorPage :
        IsHeapPage (next machine.mem machine.currentTask) := by
      apply holds.run.pages _
      have member := successor.2.1
      rw [current]
      simp only [List.mem_append, List.mem_cons] at member ⊢
      tauto
    have different :
        next machine.mem machine.currentTask ≠ machine.currentTask := by
      rw [current]
      exact successor.2.2
    have links :
        AgreeOn moved.mem stored (layout.dummyTask + 4) 4 := by
      refine requeued.links.agreeOn fun other member => ?_
      have high := (storing.represents.pages other member).lower
      omega
    have stores :
        AgreeOn stored (saveSuccessor layout machine).mem
          (layout.dummyTask + 4) 4 := by
      have high := taskPage.lower
      exact tail.agreeOn (layout.dummyTask + 4) 4 (by omega)
    exact (links.trans stores).loadPtr.trans
      (next_saveSuccessor successorPage different)
  refine
    { dispatchable :=
        ⟨⟨whole.represents.run, whole.represents.sleep,
          whole.represents.event, whole.represents.nodup⟩, ?_⟩
      mem := whole.undisturbed.mem
      heapAllocTable := whole.undisturbed.heapAllocTable
      gdt := whole.undisturbed.gdt
      cpu := whole.undisturbed.cpu
      taskIdCounter := whole.undisturbed.taskIdCounter
      currentTask := rfl
      saved := saved
      perm := whole.perm }
  refine .inr (.inr ⟨rfl, fun several => ?_⟩)
  change next moved.mem layout.dummyTask ∈ later.run
  rw [saved several, current, run]
  exact (next_of_leaving holds.run (run ▸ several)).2.1

/-- `wakeup_after_msec` hands the dummy task to the dispatcher. -/
theorem enterSleep_leaving (msec : Word)
    (holds : Represents machine ⟨front ++ task :: back, sleep, event⟩)
    (current : machine.currentTask = task) :
    Leaving layout machine (enterSleep layout machine msec)
      ⟨front ++ task :: back, sleep, event⟩
      ⟨front ++ back, sleep ++ [task], event⟩ := by
  have saving := saveSuccessor_requeued layout holds
  have same : (saveSuccessor layout machine).currentTask = task :=
    saving.undisturbed.currentTask.trans current
  have tail :
      AgreeOutside
        (setWakeupAfterMsec (saveSuccessor layout machine).mem task msec)
        (saveSuccessor layout machine).mem (task + 132) 12 :=
    setWakeupAfterMsec_tail _ task msec
  have storing :=
    Requeued.of_tail saving.represents (by simp [Queues.all]) tail
  have moved := sleepReady storing.represents
  have leaving := leaving_of_moved holds current tail moved rfl
  rw [enterSleep]
  simp only [same]
  exact leaving

/-- So does `wakeup_after_event`. -/
theorem enterWait_leaving (eventType : Byte)
    (holds : Represents machine ⟨front ++ task :: back, sleep, event⟩)
    (current : machine.currentTask = task) :
    Leaving layout machine (enterWait layout machine eventType)
      ⟨front ++ task :: back, sleep, event⟩
      ⟨front ++ back, sleep, event ++ [task]⟩ := by
  have saving := saveSuccessor_requeued layout holds
  have same : (saveSuccessor layout machine).currentTask = task :=
    saving.undisturbed.currentTask.trans current
  have tail :
      AgreeOutside
        (setWakeupAfterEvent (saveSuccessor layout machine).mem task eventType)
        (saveSuccessor layout machine).mem (task + 132) 12 :=
    setWakeupAfterEvent_tail _ task eventType
  have storing :=
    Requeued.of_tail saving.represents (by simp [Queues.all]) tail
  have moved := awaitReady storing.represents
  have leaving := leaving_of_moved holds current tail moved rfl
  rw [enterWait]
  simp only [same]
  exact leaving

end Steps

end MagicalOs.Kernel.KernelRuns
