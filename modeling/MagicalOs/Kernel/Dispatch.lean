import MagicalOs.Kernel.SchedTraversal

/-!
# The dispatcher

`turn` is the decision which `schedule` takes: nothing, or the task which
becomes current, zero standing for the kernel task.  `schedule_dispatched` says
that a call of `schedule` carries the decision out and does nothing else: it
makes that task current, executes one far jump through its selector, and
writes no more than time slice flags.

`schedule` is called while the current task is a ready task, or none, or the
dummy task whose `next` a sleeper has just set.
-/

namespace MagicalOs.Kernel.Dispatch

open MagicalOs.Library.ByteMemory
open MagicalOs.Library.ByteMemory.Memory
open MagicalOs.Kernel.Descriptors
open MagicalOs.Kernel.HeapPages
open MagicalOs.Kernel.MachineState
open MagicalOs.Kernel.TaskStructure
open MagicalOs.Kernel.SchedQueues
open MagicalOs.Kernel.Scheduler
open MagicalOs.Kernel.TaskQueues

/-- A task which used up a time slice it was switched into keeps running. -/
def KeepsSlice (machine : Machine) (cause : SchedCause) : Prop :=
  cause = .timer ∧ machine.currentTask ≠ 0 ∧
    taskSwitchedInTimeSlice machine.mem machine.currentTask ≠ 0#8

instance (machine : Machine) (cause : SchedCause) :
    Decidable (KeepsSlice machine cause) :=
  inferInstanceAs (Decidable (_ ∧ _ ∧ _))

/-- Whose turn it is when a time slice has ended. -/
def nextTurn (machine : Machine) : Option Nat :=
  if machine.runQueue.head = 0 then
    if machine.currentTask = 0 then none else some 0
  else if machine.currentTask ≠ 0 then
    if machine.currentTask ≠ next machine.mem machine.currentTask then
      some (next machine.mem machine.currentTask)
    else
      none
  else
    some machine.runQueue.head

/-- The task `schedule` switches to, if it switches at all. -/
def turn (machine : Machine) (cause : SchedCause) : Option Nat :=
  if KeepsSlice machine cause then none else nextTurn machine

/-- The selector through which a task, or the kernel task, is entered. -/
def switchSelector (mem : Memory) (task : Nat) : Half :=
  if task = 0 then kernTaskSelector else contextSwitchSelector mem task

/-- The processor after the far jump of a decision. -/
def afterTurn (machine : Machine) : Option Nat → DescriptorTable × Cpu
  | none => (machine.gdt, machine.cpu)
  | some task =>
      ljmp machine.gdt machine.cpu (switchSelector machine.mem task)

/-- The states in which `schedule` is called. -/
structure Dispatchable (layout : Layout) (machine : Machine)
    (queues : Queues) : Prop where
  represents : Represents machine queues
  current : machine.currentTask = 0 ∨ machine.currentTask ∈ queues.run ∨
    machine.currentTask = layout.dummyTask ∧
      (queues.run ≠ [] →
        next machine.mem machine.currentTask ∈ queues.run)

/-- What one call of `schedule` does. -/
structure Dispatched (machine after : Machine) (queues : Queues)
    (target : Option Nat) : Prop where
  represents : Represents after queues
  mem : DynamicOnly machine.mem after.mem queues.all
  heapAllocTable : after.heapAllocTable = machine.heapAllocTable
  taskIdCounter : after.taskIdCounter = machine.taskIdCounter
  currentTask : after.currentTask = target.getD machine.currentTask
  switched : (after.gdt, after.cpu) = afterTurn machine target

section Schedule

variable {layout : Layout} {machine : Machine} {queues : Queues}
  {cause : SchedCause} {task : Nat}

/-- Marking the time slice of a ready task, or of the dummy task. -/
theorem markTimeSlice_requeued (value : Byte)
    (holds : Represents machine queues)
    (current : machine.currentTask ∈ queues.run ∨
      machine.currentTask = layout.dummyTask) :
    Requeued machine (markTimeSlice machine value) queues queues := by
  rcases current with ready | isDummy
  · have member : machine.currentTask ∈ queues.all := by
      simp [Queues.all, ready]
    exact .of_tail holds member (setTaskSwitchedInTimeSlice_tail _ _ value)
  · have below := layout.dummyTask_below
    have inImage : machine.currentTask + 132 + 12 ≤ 0x11000 := by
      rw [isDummy]
      exact below
    exact
      ⟨holds.of_image inImage (setTaskSwitchedInTimeSlice_tail _ _ value),
        ⟨.of_image inImage (setTaskSwitchedInTimeSlice_tail _ _ value), rfl,
          rfl, rfl, rfl, rfl⟩,
        .refl _⟩

/-- The flags do not reach the links or the switch routine of a task. -/
private theorem next_markTimeSlice (value : Byte) :
    next (markTimeSlice machine value).mem machine.currentTask =
      next machine.mem machine.currentTask :=
  ((setTaskSwitchedInTimeSlice_tail machine.mem machine.currentTask
    value).agreeOn (machine.currentTask + 4) 4 (by omega)).loadPtr

private theorem selector_of_requeued {after : Machine}
    (requeued : Requeued machine after queues queues)
    (ready : task ∈ queues.run) :
    contextSwitchSelector after.mem task =
      contextSwitchSelector machine.mem task := by
  have pages : ∀ task ∈ queues.all, IsHeapPage task :=
    requeued.represents.pages
  have page := requeued.represents.run.pages task ready
  have fixed :=
    requeued.undisturbed.mem.agreeOn pages page 128 2 (by omega) (by omega)
  exact fixed.load16

/-- Making a ready task current and switching to it. -/
private theorem switchTo_dispatched (layout : Layout)
    (holds : Represents machine queues) (ready : task ∈ queues.run) :
    Dispatched machine (switchTo machine cause task) queues (some task) := by
  have page := holds.run.pages task ready
  have chosen : Represents { machine with currentTask := task } queues :=
    ⟨holds.run, holds.sleep, holds.event, holds.nodup⟩
  have selector : switchSelector machine.mem task =
      contextSwitchSelector machine.mem task :=
    if_neg page.ne_null
  have current : task ∈ queues.run ∨ task = layout.dummyTask := .inl ready
  have marked := markTimeSlice_requeued 1#8 chosen current
  cases cause with
  | timer =>
      exact
        { represents := ⟨holds.run, holds.sleep, holds.event, holds.nodup⟩
          mem := .refl _ _
          heapAllocTable := rfl
          taskIdCounter := rfl
          currentTask := rfl
          switched := by rw [afterTurn, selector]; rfl }
  | syscall =>
      have unchanged := selector_of_requeued marked ready
      refine
        { represents :=
            ⟨marked.represents.run, marked.represents.sleep,
              marked.represents.event, marked.represents.nodup⟩
          mem := marked.undisturbed.mem
          heapAllocTable := rfl
          taskIdCounter := rfl
          currentTask := rfl
          switched := ?_ }
      rw [afterTurn, selector, ← unchanged]
      rfl

/-- The successor of the current task is ready whenever a task is. -/
theorem Dispatchable.next_ready
    (holds : Dispatchable layout machine queues)
    (busy : machine.currentTask ≠ 0) (nonEmpty : queues.run ≠ []) :
    next machine.mem machine.currentTask ∈ queues.run := by
  rcases holds.current with isNull | ready | ⟨_, saved⟩
  · exact absurd isNull busy
  · exact holds.represents.run.ring.next_mem ready
  · exact saved nonEmpty

private theorem dispatch_dispatched
    (holds : Dispatchable layout machine queues) :
    Dispatched machine (dispatch machine cause) queues
      (nextTurn machine) := by
  have represents := holds.represents
  have emptyIff := represents.run.head_eq_zero_iff
  by_cases isEmpty : machine.runQueue.head = 0
  · by_cases idle : machine.currentTask = 0
    · simp only [dispatch, nextTurn, if_pos isEmpty, if_pos idle]
      exact
        ⟨⟨represents.run, represents.sleep, represents.event,
          represents.nodup⟩, .refl _ _, rfl, rfl, rfl, rfl⟩
    · simp only [dispatch, nextTurn, if_pos isEmpty, if_neg idle]
      exact
        ⟨⟨represents.run, represents.sleep, represents.event,
          represents.nodup⟩, .refl _ _, rfl, rfl, rfl, rfl⟩
  · have nonEmpty : queues.run ≠ [] := fun none => isEmpty (emptyIff.mpr none)
    by_cases idle : machine.currentTask = 0
    · have headReady : machine.runQueue.head ∈ queues.run := by
        rw [represents.run.head]
        cases ready : queues.run with
        | nil => exact absurd ready nonEmpty
        | cons first rest => simp
      simp only [dispatch, nextTurn, if_neg isEmpty, ne_eq, idle,
        not_true_eq_false, if_false]
      exact switchTo_dispatched layout represents headReady
    · have nextReady := holds.next_ready idle nonEmpty
      by_cases alone :
          machine.currentTask = next machine.mem machine.currentTask
      · simp only [dispatch, nextTurn, if_neg isEmpty, ne_eq, idle,
          not_false_eq_true, if_true, ← alone, not_true_eq_false, if_false]
        exact
          ⟨⟨represents.run, represents.sleep, represents.event,
            represents.nodup⟩, .refl _ _, rfl, rfl, rfl, rfl⟩
      · simp only [dispatch, nextTurn, if_neg isEmpty, ne_eq, idle,
          not_false_eq_true, if_true, alone]
        exact switchTo_dispatched layout represents nextReady

/-- It is the turn of a ready task, or of the kernel task if there is none. -/
theorem ready_of_nextTurn (holds : Dispatchable layout machine queues)
    (chosen : nextTurn machine = some task) :
    task = 0 ∧ queues.run = [] ∨ task ∈ queues.run := by
  have emptyIff := holds.represents.run.head_eq_zero_iff
  rw [nextTurn] at chosen
  split at chosen
  next isEmpty =>
    split at chosen
    next => cases chosen
    next =>
      cases chosen
      exact .inl ⟨rfl, emptyIff.mp isEmpty⟩
  next notEmpty =>
    have nonEmpty : queues.run ≠ [] := fun none => notEmpty (emptyIff.mpr none)
    right
    split at chosen
    next busy =>
      have nextReady := holds.next_ready busy nonEmpty
      split at chosen
      next =>
        cases chosen
        exact nextReady
      next => cases chosen
    next =>
      cases chosen
      rw [holds.represents.run.head]
      cases ready : queues.run with
      | nil => exact absurd ready nonEmpty
      | cons first rest => simp

theorem ready_of_turn (holds : Dispatchable layout machine queues)
    (chosen : turn machine cause = some task) :
    task = 0 ∧ queues.run = [] ∨ task ∈ queues.run := by
  rw [turn] at chosen
  split at chosen
  next => cases chosen
  next => exact ready_of_nextTurn holds chosen

/-- An idle dispatcher starts the first ready task. -/
theorem turn_of_idle {first : Nat} {rest sleep waiting : List Nat}
    (holds : Represents machine ⟨first :: rest, sleep, waiting⟩)
    (idle : machine.currentTask = 0) : turn machine cause = some first := by
  have ends : ¬KeepsSlice machine cause := fun keeps => keeps.2.1 idle
  have head : machine.runQueue.head = first := holds.run.head
  have page := holds.run.pages first (by simp)
  rw [turn, if_neg ends, nextTurn, head, if_neg page.ne_null,
    if_neg (not_not.mpr idle)]

/-- `schedule` never picks the task which is current already. -/
theorem ne_current_of_turn (chosen : turn machine cause = some task) :
    task ≠ machine.currentTask := by
  rw [turn, nextTurn] at chosen
  split at chosen
  next => cases chosen
  next =>
    split at chosen
    next =>
      split at chosen
      next => cases chosen
      next busy =>
        cases chosen
        exact fun idle => busy idle.symm
    next nonEmpty =>
      split at chosen
      next =>
        split at chosen
        next different =>
          cases chosen
          exact different.symm
        next => cases chosen
      next idle =>
        cases chosen
        rw [not_not.mp idle]
        exact nonEmpty

/-- Ending the time slice of the current task does not change the turn. -/
theorem nextTurn_markTimeSlice (value : Byte) :
    nextTurn (markTimeSlice machine value) = nextTurn machine := by
  have current :
      (markTimeSlice machine value).currentTask = machine.currentTask := rfl
  have queue : (markTimeSlice machine value).runQueue = machine.runQueue := rfl
  rw [nextTurn, nextTurn, current, queue, next_markTimeSlice]

theorem dispatchable_markTimeSlice (value : Byte)
    (holds : Dispatchable layout machine queues)
    (busy : machine.currentTask ≠ 0) :
    Dispatchable layout (markTimeSlice machine value) queues := by
  rcases holds.current with isNull | ready | ⟨isDummy, saved⟩
  · exact absurd isNull busy
  · have current : machine.currentTask ∈ queues.run ∨
        machine.currentTask = layout.dummyTask := .inl ready
    have marked := markTimeSlice_requeued value holds.represents current
    exact ⟨marked.represents, .inr (.inl ready)⟩
  · have marked :=
      markTimeSlice_requeued value holds.represents (.inr isDummy)
    refine ⟨marked.represents, .inr (.inr ⟨isDummy, fun nonEmpty => ?_⟩)⟩
    change next (markTimeSlice machine value).mem machine.currentTask ∈ _
    rw [next_markTimeSlice]
    exact saved nonEmpty

/-- It does not change where a far jump leads either. -/
private theorem afterTurn_of_requeued {after : Machine} {target : Option Nat}
    (requeued : Requeued machine after queues queues)
    (ready : ∀ task ∈ target, task = 0 ∨ task ∈ queues.run) :
    afterTurn after target = afterTurn machine target := by
  cases target with
  | none =>
      rw [afterTurn, requeued.undisturbed.gdt, requeued.undisturbed.cpu]
      rfl
  | some task =>
      have selector :
          switchSelector after.mem task = switchSelector machine.mem task := by
        rcases ready task rfl with rfl | inRun
        · rfl
        · rw [switchSelector, selector_of_requeued requeued inRun]
          rfl
      rw [afterTurn, requeued.undisturbed.gdt, requeued.undisturbed.cpu,
        selector]
      rfl

theorem schedule_of_keeps (keeps : KeepsSlice machine cause) :
    schedule machine cause =
      (markTimeSlice machine 0#8).manualEoi intrIrTimer :=
  if_pos keeps

theorem schedule_of_busy (ends : ¬KeepsSlice machine cause)
    (busy : machine.currentTask ≠ 0) :
    schedule machine cause = dispatch (markTimeSlice machine 0#8) cause :=
  (if_neg ends).trans (if_pos busy)

theorem schedule_of_idle (idle : machine.currentTask = 0) :
    schedule machine cause = dispatch machine cause :=
  (if_neg fun keeps => keeps.2.1 idle).trans (if_neg (not_not.mpr idle))

/-- A call of `schedule` carries out its decision. -/
theorem schedule_dispatched (holds : Dispatchable layout machine queues) :
    Dispatched machine (schedule machine cause) queues
      (turn machine cause) := by
  by_cases idle : machine.currentTask = 0
  · have ends : ¬KeepsSlice machine cause := fun keeps => keeps.2.1 idle
    rw [turn, if_neg ends, schedule_of_idle idle]
    exact dispatch_dispatched holds
  have current : machine.currentTask ∈ queues.run ∨
      machine.currentTask = layout.dummyTask := by
    rcases holds.current with isNull | ready | ⟨isDummy, _⟩
    · exact absurd isNull idle
    · exact .inl ready
    · exact .inr isDummy
  have marked := markTimeSlice_requeued 0#8 holds.represents current
  by_cases keeps : KeepsSlice machine cause
  · rw [turn, if_pos keeps, schedule_of_keeps keeps]
    exact
      { represents :=
          ⟨marked.represents.run, marked.represents.sleep,
            marked.represents.event, marked.represents.nodup⟩
        mem := marked.undisturbed.mem
        heapAllocTable := rfl
        taskIdCounter := rfl
        currentTask := rfl
        switched := rfl }
  · have ready := dispatchable_markTimeSlice 0#8 holds idle
    have dispatched :
        Dispatched (markTimeSlice machine 0#8)
          (dispatch (markTimeSlice machine 0#8) cause) queues
          (nextTurn (markTimeSlice machine 0#8)) :=
      dispatch_dispatched ready
    have chosen : ∀ task ∈ nextTurn machine, task = 0 ∨ task ∈ queues.run :=
      fun task isTurn =>
        (ready_of_nextTurn holds isTurn).imp_left And.left
    rw [nextTurn_markTimeSlice] at dispatched
    rw [turn, if_neg keeps, schedule_of_busy keeps idle]
    exact
      { represents := dispatched.represents
        mem := marked.undisturbed.mem.trans dispatched.mem
        heapAllocTable := dispatched.heapAllocTable
        taskIdCounter := dispatched.taskIdCounter
        currentTask := dispatched.currentTask
        switched := by
          rw [dispatched.switched, afterTurn_of_requeued marked chosen] }

end Schedule

end MagicalOs.Kernel.Dispatch
