import MagicalOs.Kernel.TaskFields

/-!
# The effect of a step on the tasks

One theorem for each kind of event: which queues the tasks are on afterwards,
which task is current, and what has become of the fields of each task.  The
results about runs only use these five theorems.
-/

namespace MagicalOs.Kernel.StepEffects

open MagicalOs.Library.ByteMemory
open MagicalOs.Kernel.HeapPages
open MagicalOs.Kernel.MachineState
open MagicalOs.Kernel.TaskStructure
open MagicalOs.Kernel.TaskCreation
open MagicalOs.Kernel.SchedQueues
open MagicalOs.Kernel.Scheduler
open MagicalOs.Kernel.TaskQueues
open MagicalOs.Kernel.SchedTraversal
open MagicalOs.Kernel.Dispatch
open MagicalOs.Kernel.KernelRuns
open MagicalOs.Kernel.QueueInvariant
open MagicalOs.Kernel.TaskFields

variable {layout : Layout} {machine after entering : Machine}
  {queues later : Queues} {created front back sleep event : List Nat}

/-- The task structure which the next creation takes. -/
def newTask (machine : Machine) : Nat :=
  (nextTaskPages machine.heapAllocTable).task

theorem taskInit_effect {file : File}
    (holds : Invariant machine created queues)
    (taken : Step layout machine (.taskInit file) after) :
    Invariant after (created ++ [newTask machine])
        { queues with run := queues.run ++ [newTask machine] } ∧
      createdBy machine (.taskInit file) = [newTask machine] ∧
      after.currentTask = machine.currentTask ∧
      IsHeapPage (newTask machine) ∧ newTask machine ∉ queues.all ∧
      ∀ task, task ∈ queues.all ∨ task = newTask machine →
        fields after.mem task = fields machine.mem task := by
  rcases taken with ⟨enabled, iterations, ran⟩
  cases ran
  have free : 4 ≤ (freePages machine.heapAllocTable).card := enabled
  refine ⟨holds.taskInit free, ?_, ?_, (nextTaskPages_distinct free).heapTask,
    holds.nextTask_fresh free, ?_⟩
  · rw [createdBy, allocatePages_of_free free]
    rfl
  · rw [taskInit_of_free free]
    rfl
  · intro task known
    rcases known with member | rfl
    · exact fields_taskInit holds free member
    · exact fields_newTask holds free

theorem timer_effect (holds : Invariant machine created queues)
    (taken : Step layout machine .timer after) :
    ∃ entering iterations, tick iterations machine = some entering ∧
      after = schedule entering .timer ∧
      Invariant entering created (wokenSleepers machine queues) ∧
      entering.currentTask = machine.currentTask ∧
      (∀ task, IsHeapPage task →
        fields entering.mem task =
          if task ∈ visited (sleeperDue machine.mem) queues.sleep then
            slept (fields machine.mem task)
          else fields machine.mem task) ∧
      Invariant after created (wokenSleepers machine queues) ∧
      after.currentTask =
        (turn entering .timer).getD machine.currentTask ∧
      ∀ task, IsHeapPage task →
        fields after.mem task =
          { fields entering.mem task with
            taskSwitchedInTimeSlice := flagAfter entering .timer task } := by
  rcases taken with ⟨enabled, iterations, ran⟩
  rcases Option.map_eq_some_iff.mp ran with ⟨entering, ticked, rfl⟩
  have invariant := holds.tick ticked
  have current : entering.currentTask = machine.currentTask :=
    (tick_requeued holds.represents ticked).undisturbed.currentTask
  have ready := invariant.dispatchable layout
  have dispatched : Dispatched entering (schedule entering .timer)
      (wokenSleepers machine queues) (turn entering .timer) :=
    schedule_dispatched ready
  refine ⟨entering, iterations, ticked, rfl, invariant, current, ?_,
    invariant.schedule layout .timer, ?_, ?_⟩
  · exact fun task page => fields_tick holds.represents ticked page
  · rw [dispatched.currentTask, current]
  · exact fun task page => fields_schedule ready page

/-- With no sleepers, the first timer interrupt just starts the first task. -/
theorem start_effect {first : Nat} {rest : List Nat}
    (holds : Invariant machine created ⟨first :: rest, [], event⟩)
    (idle : machine.currentTask = 0)
    (taken : Step layout machine .timer after) :
    Invariant after created ⟨first :: rest, [], event⟩ ∧
      after.currentTask = first ∧
      ∀ task, IsHeapPage task →
        fields after.mem task = fields machine.mem task := by
  rcases timer_effect holds taken with
    ⟨entering, _, _, _, entered, same, before, invariant, current, effect⟩
  have noSleepers :
      wokenSleepers machine ⟨first :: rest, [], event⟩ =
        ⟨first :: rest, [], event⟩ := by
    simp [wokenSleepers, wake]
  rw [noSleepers] at entered invariant
  have enteringIdle : entering.currentTask = 0 := same.trans idle
  refine ⟨invariant, ?_, fun task page => ?_⟩
  · rw [current, turn_of_idle entered.represents enteringIdle]
    rfl
  · have notCurrent : task ≠ entering.currentTask :=
      enteringIdle ▸ page.ne_null
    rw [effect task page, flagAfter, if_neg (by simp), if_neg notCurrent]
    refine Eq.trans ?_ (before task page)
    rfl

theorem keyboard_effect {status data : Byte}
    (holds : Invariant machine created queues)
    (taken : Step layout machine (.keyboard status data) after) :
    Invariant after created (wokenWaiters machine eventTypeKbd queues) ∧
      after.currentTask = machine.currentTask ∧
      ∀ task, IsHeapPage task →
        fields after.mem task =
          if task ∈ visited (waiterDue eventTypeKbd machine.mem)
              queues.event then
            notified eventTypeKbd (fields machine.mem task)
          else fields machine.mem task := by
  rcases taken with ⟨enabled, iterations, ran⟩
  refine ⟨holds.keyboard ran, ?_, ?_⟩
  · exact (doIrKeyboard_requeued holds.represents ran).undisturbed.currentTask
  · exact fun task page => fields_doIrKeyboard holds.represents ran page

/--
What a sleep leaves behind, given what it does to the sleeping task before its
call of `schedule`.
-/
private theorem leaving_effect (change : Fields → Fields)
    (holds : Invariant machine created queues)
    (leaving : Leaving layout machine entering queues later)
    (flagKept : ∀ before, (change before).taskSwitchedInTimeSlice =
      before.taskSwitchedInTimeSlice)
    (entered : ∀ task, IsHeapPage task → fields entering.mem task =
      if task = machine.currentTask then change (fields machine.mem task)
      else fields machine.mem task) :
    Invariant (schedule entering .syscall) created later ∧
      (schedule entering .syscall).currentTask =
        (if later.run = [] then 0
          else next machine.mem machine.currentTask) ∧
      ∀ task, IsHeapPage task →
        fields (schedule entering .syscall).mem task =
          { (if task = machine.currentTask then change (fields machine.mem task)
              else fields machine.mem task) with
            taskSwitchedInTimeSlice :=
              if task = (schedule entering .syscall).currentTask then 1#8
              else taskSwitchedInTimeSlice machine.mem task } := by
  have dispatched :
      Dispatched entering (schedule entering .syscall) later
        (turn entering .syscall) := schedule_dispatched leaving.dispatchable
  have decision := turn_of_leaving leaving
  have current : (schedule entering .syscall).currentTask =
      (if later.run = [] then 0
        else next machine.mem machine.currentTask) := by
    rw [dispatched.currentTask, decision]
    rfl
  refine ⟨holds.leaving leaving, current, fun task page => ?_⟩
  have notDummy : task ≠ entering.currentTask := by
    have above := page.lower
    have below := layout.dummyTask_below
    rw [leaving.currentTask]
    omega
  have kept : taskSwitchedInTimeSlice entering.mem task =
      taskSwitchedInTimeSlice machine.mem task := by
    have field := congrArg Fields.taskSwitchedInTimeSlice (entered task page)
    split at field
    next => exact field.trans (flagKept _)
    next => exact field
  have flag : flagAfter entering .syscall task =
      if task = (schedule entering .syscall).currentTask then 1#8
      else taskSwitchedInTimeSlice machine.mem task := by
    rw [flagAfter, decision, ← current, if_neg notDummy, kept]
    simp [eq_comm]
  rw [fields_schedule leaving.dispatchable page, flag, entered task page]

/-- The successor of a sleeping task is another task. -/
private theorem successor_ne
    (holds : Represents machine ⟨front ++ machine.currentTask :: back, sleep,
      event⟩) (busy : machine.currentTask ≠ 0) :
    (if front ++ back = [] then 0
      else next machine.mem machine.currentTask) ≠ machine.currentTask := by
  split
  next => exact busy.symm
  next several => exact (next_of_leaving holds.run several).2.2

theorem sleep_effect {msec : Word} {run : List Nat}
    (holds : Invariant machine created ⟨run, sleep, event⟩)
    (taken : Step layout machine (.wakeupAfterMsec msec) after) :
    ∃ front back, run = front ++ machine.currentTask :: back ∧
      Invariant after created
        ⟨front ++ back, sleep ++ [machine.currentTask], event⟩ ∧
      after.currentTask =
        (if front ++ back = [] then 0
          else next machine.mem machine.currentTask) ∧
      after.currentTask ≠ machine.currentTask ∧
      ∀ task, IsHeapPage task →
        fields after.mem task =
          { taskSwitchedInTimeSlice :=
              if task = after.currentTask then 1#8
              else taskSwitchedInTimeSlice machine.mem task
            wakeupAfterMsec :=
              if task = machine.currentTask then msec
              else wakeupAfterMsec machine.mem task
            wakeupAfterEvent := wakeupAfterEvent machine.mem task } := by
  rcases taken with ⟨enabled, iterations, ran⟩
  cases ran
  rcases holds.exists_split enabled with ⟨front, back, split⟩
  have inRun : run = front ++ machine.currentTask :: back := split
  subst inRun
  have leaving : Leaving layout machine (enterSleep layout machine msec) _
      ⟨front ++ back, sleep ++ [machine.currentTask], event⟩ :=
    enterSleep_leaving msec holds.represents rfl
  rcases leaving_effect (fun before => { before with wakeupAfterMsec := msec })
      holds leaving (fun _ => rfl) fun task page =>
        fields_enterSleep msec holds.represents rfl page with
    ⟨invariant, current, effect⟩
  refine ⟨front, back, rfl, invariant, current, ?_, fun task page => ?_⟩
  · exact fun same => successor_ne holds.represents enabled
      (current.symm.trans same)
  · apply (effect task page).trans
    split
    next => rfl
    next => rfl

theorem wait_effect {eventType : Byte} {run : List Nat}
    (holds : Invariant machine created ⟨run, sleep, event⟩)
    (taken : Step layout machine (.wakeupAfterEvent eventType) after) :
    ∃ front back, run = front ++ machine.currentTask :: back ∧
      Invariant after created
        ⟨front ++ back, sleep, event ++ [machine.currentTask]⟩ ∧
      after.currentTask =
        (if front ++ back = [] then 0
          else next machine.mem machine.currentTask) ∧
      after.currentTask ≠ machine.currentTask ∧
      ∀ task, IsHeapPage task →
        fields after.mem task =
          { taskSwitchedInTimeSlice :=
              if task = after.currentTask then 1#8
              else taskSwitchedInTimeSlice machine.mem task
            wakeupAfterMsec := wakeupAfterMsec machine.mem task
            wakeupAfterEvent :=
              if task = machine.currentTask then eventType
              else wakeupAfterEvent machine.mem task } := by
  rcases taken with ⟨enabled, iterations, ran⟩
  cases ran
  rcases holds.exists_split enabled with ⟨front, back, split⟩
  have inRun : run = front ++ machine.currentTask :: back := split
  subst inRun
  have leaving : Leaving layout machine (enterWait layout machine eventType) _
      ⟨front ++ back, sleep, event ++ [machine.currentTask]⟩ :=
    enterWait_leaving eventType holds.represents rfl
  rcases leaving_effect
      (fun before => { before with wakeupAfterEvent := eventType })
      holds leaving (fun _ => rfl) fun task page =>
        fields_enterWait eventType holds.represents rfl page with
    ⟨invariant, current, effect⟩
  refine ⟨front, back, rfl, invariant, current, ?_, fun task page => ?_⟩
  · exact fun same => successor_ne holds.represents enabled
      (current.symm.trans same)
  · apply (effect task page).trans
    split
    next => rfl
    next => rfl

/-! ## Starting from the boot state -/

/-- A reachable state and its queues. -/
structure Known (layout : Layout) (mem : Memory) (machine : Machine)
    (created : List Nat) (queues : Queues) : Prop where
  reachable : Reachable layout mem machine created
  invariant : Invariant machine created queues

namespace Known

variable {mem : Memory}

theorem boot (layout : Layout) (mem : Memory) :
    Known layout mem (KernelRuns.boot layout mem) [] ⟨[], [], []⟩ :=
  ⟨.boot, boot_invariant layout mem⟩

/-- As long as there are few tasks, one more can be created. -/
theorem creates (known : Known layout mem machine created queues)
    (few : created.length ≤ 895) (file : File) :
    ∃ after task, Step layout machine (.taskInit file) after ∧
      Known layout mem after (created ++ [task])
        { queues with run := queues.run ++ [task] } ∧
      IsHeapPage task ∧ after.currentTask = machine.currentTask := by
  have taken : Step layout machine (.taskInit file)
      (TaskCreation.taskInit machine file) :=
    ⟨known.invariant.free few, 0, rfl⟩
  rcases taskInit_effect known.invariant taken with
    ⟨invariant, creates, current, page, _, _⟩
  have reachable : Reachable layout mem _ _ :=
    .step known.reachable trivial taken
  rw [creates] at reachable
  exact ⟨_, _, taken, ⟨reachable, invariant⟩, page, current⟩

/-- The timer starts the first task. -/
theorem starts {first : Nat} {rest : List Nat}
    (known : Known layout mem machine created ⟨first :: rest, [], event⟩)
    (idle : machine.currentTask = 0) :
    ∃ after, Step layout machine .timer after ∧
      Known layout mem after created ⟨first :: rest, [], event⟩ ∧
      after.currentTask = first := by
  have progress : ∃ after, Step layout machine .timer after :=
    known.invariant.progress trivial
  rcases progress with ⟨after, taken⟩
  rcases start_effect known.invariant idle taken with
    ⟨invariant, current, _⟩
  have reachable : Reachable layout mem _ _ :=
    .step known.reachable trivial taken
  rw [createdBy, List.append_nil] at reachable
  exact ⟨after, taken, ⟨reachable, invariant⟩, current⟩

end Known

end MagicalOs.Kernel.StepEffects
