import MagicalOs.Kernel.QueueInvariant
import MagicalOs.Kernel.TaskSegments

/-!
# The segment which the processor runs

However many tasks exist, and whether or not a far jump finds the segment of
the task it was meant for, the processor only runs a task state segment which
belongs to the kernel task or to a task that `task_init` has created.
-/

namespace MagicalOs.Kernel.RunningSegments

open MagicalOs.Library.ByteMemory
open MagicalOs.Kernel.Descriptors
open MagicalOs.Kernel.Descriptors.SegmentDescriptor
open MagicalOs.Kernel.HeapPages
open MagicalOs.Kernel.MachineState
open MagicalOs.Kernel.TaskStructure
open MagicalOs.Kernel.TaskCreation
open MagicalOs.Kernel.SchedQueues
open MagicalOs.Kernel.Scheduler
open MagicalOs.Kernel.TaskQueues
open MagicalOs.Kernel.Dispatch
open MagicalOs.Kernel.KernelRuns
open MagicalOs.Kernel.QueueInvariant
open MagicalOs.Kernel.TaskSegments

/-- The segment is the one of the kernel task or of a created task. -/
def IsSegment (layout : Layout) (created : List Nat) (base : Word) : Prop :=
  base = BitVec.ofNat 32 layout.kernTaskTss ∨
    ∃ task ∈ created, base = BitVec.ofNat 32 (tss task)

/-- The segments which a far jump can enter, and the one which is entered. -/
structure OwnSegments (layout : Layout) (gdt : DescriptorTable) (cpu : Cpu)
    (created : List Nat) : Prop where
  available : ∀ idx, (gdt idx).IsAvailableTss →
    IsSegment layout created (gdt idx).base
  register :
    IsSegment layout created (gdt (cpu.taskRegister.toNat / 8)).base
  running : IsSegment layout created cpu.runningTss

section Segments

variable {layout : Layout} {mem : Memory} {machine after : Machine}
  {gdt : DescriptorTable} {cpu : Cpu} {created new : List Nat}
  {queues : Queues} {event : Event} {cause : SchedCause}
  {Allowed : Machine → Event → Prop}

theorem IsSegment.append {base : Word}
    (segment : IsSegment layout created base) :
    IsSegment layout (created ++ new) base := by
  rcases segment with kernel | ⟨task, member, equal⟩
  · exact .inl kernel
  · exact .inr ⟨task, List.mem_append_left new member, equal⟩

/-- A changed type matters at its own entry only. -/
theorem available_of_setTssType {idx other : Nat} {type : BitVec 4}
    (available : (setTssType gdt idx type other).IsAvailableTss)
    (different : other ≠ idx) : (gdt other).IsAvailableTss := by
  rw [setTssType, Function.update_of_ne different] at available
  exact available

/-- A far jump enters a segment which was available, or none. -/
theorem OwnSegments.ljmp (own : OwnSegments layout gdt cpu created)
    (selector : Half) :
    OwnSegments layout (ljmp gdt cpu selector).1 (ljmp gdt cpu selector).2
      created := by
  rw [Descriptors.ljmp]
  split
  next entered =>
    have entry := own.available _ entered.2
    constructor
    · intro idx available
      have type := available.2.1
      simp only [base_setTssType]
      by_cases isTarget : idx = selector.toNat / 8
      · rw [isTarget, type_setTssType_self] at type
        cases type
      · have released := available_of_setTssType available isTarget
        by_cases wasRunning : idx = cpu.taskRegister.toNat / 8
        · rw [wasRunning]
          exact own.register
        · exact own.available idx
            (available_of_setTssType released wasRunning)
    · simp only [base_setTssType]
      exact entry
    · exact entry
  next => exact ⟨own.available, own.register, own.running⟩

theorem OwnSegments.afterTurn
    (own : OwnSegments layout machine.gdt machine.cpu created)
    (target : Option Nat) :
    OwnSegments layout (afterTurn machine target).1
      (afterTurn machine target).2 created := by
  cases target with
  | none => exact own
  | some task => exact own.ljmp _

theorem OwnSegments.dispatched {target : Option Nat}
    (own : OwnSegments layout machine.gdt machine.cpu created)
    (dispatched : Dispatched machine after queues target) :
    OwnSegments layout after.gdt after.cpu created := by
  have switched := dispatched.switched
  have gdt : after.gdt = (Dispatch.afterTurn machine target).1 :=
    congrArg Prod.fst switched
  have cpu : after.cpu = (Dispatch.afterTurn machine target).2 :=
    congrArg Prod.snd switched
  rw [gdt, cpu]
  exact own.afterTurn target

/-- A new descriptor denotes the segment of the new task. -/
theorem OwnSegments.initGdt (own : OwnSegments layout gdt cpu created)
    (idx task : Nat) (limit : Word) (dpl : Byte) :
    OwnSegments layout
      (initGdt gdt idx (BitVec.ofNat 32 (tss task)) limit dpl) cpu
      (created ++ [task]) := by
  have entry : ∀ other,
      IsSegment layout created (gdt other).base →
      IsSegment layout (created ++ [task])
        (Descriptors.initGdt gdt idx (BitVec.ofNat 32 (tss task)) limit dpl
          other).base := by
    intro other segment
    rw [Descriptors.initGdt]
    by_cases same : other = idx
    · rw [same, Function.update_self, base_install]
      exact .inr ⟨task, by simp, rfl⟩
    · rw [Function.update_of_ne same]
      exact segment.append
  constructor
  · intro other available
    by_cases same : other = idx
    · rw [same, Descriptors.initGdt, Function.update_self, base_install]
      exact .inr ⟨task, by simp, rfl⟩
    · rw [Descriptors.initGdt, Function.update_of_ne same] at available
      exact entry other (own.available other available)
  · exact entry _ own.register
  · exact own.running.append

/-- The static table contains code and data segments only. -/
theorem not_available_staticGdt (idx : Nat) :
    ¬(staticGdt idx).IsAvailableTss := by
  unfold staticGdt
  split
  next => decide
  next => decide
  next => decide
  next => decide
  next => decide

/-- At boot the processor runs the segment of the kernel task. -/
theorem boot_ownSegments (layout : Layout) (mem : Memory) :
    OwnSegments layout (boot layout mem).gdt (boot layout mem).cpu [] := by
  have installed :
      (initGdt staticGdt 3 (BitVec.ofNat 32 layout.kernTaskTss)
        (BitVec.ofNat 32 sizeofTss) 0#8 3).base =
        BitVec.ofNat 32 layout.kernTaskTss := by
    rw [initGdt, Function.update_self, base_install]
  have runs := boot_runs layout mem
  have register : (boot layout mem).cpu.taskRegister.toNat / 8 = 3 := by
    rw [runs.register]
    rfl
  have running : (boot layout mem).cpu.runningTss =
      BitVec.ofNat 32 layout.kernTaskTss := by
    rw [runs.running, tssOf, if_pos rfl]
  constructor
  · intro idx available
    rw [boot_gdt] at available
    by_cases kernel : idx = 3
    · have type := available.2.1
      rw [kernel, type_setTssType_self] at type
      cases type
    · have installing := available_of_setTssType available kernel
      rw [initGdt, Function.update_of_ne kernel] at installing
      exact absurd installing (not_available_staticGdt idx)
  · left
    rw [register, boot_gdt, base_setTssType, installed]
  · exact .inl running

/-- Every step enters the segment of a created task, or of the kernel task. -/
theorem OwnSegments.step
    (own : OwnSegments layout machine.gdt machine.cpu created)
    (holds : Invariant machine created queues)
    (taken : Step layout machine event after) :
    OwnSegments layout after.gdt after.cpu
      (created ++ createdBy machine event) := by
  rcases taken with ⟨enabled, iterations, ran⟩
  cases event with
  | taskInit file =>
      cases ran
      rw [createdBy, allocatePages_of_free enabled, taskInit_of_free enabled]
      exact own.initGdt _ _ _ _
  | timer =>
      rcases Option.map_eq_some_iff.mp ran with ⟨entering, ticked, rfl⟩
      have unchanged := (tick_requeued holds.represents ticked).undisturbed
      have entered := holds.tick ticked
      rw [createdBy, List.append_nil]
      rw [← unchanged.gdt, ← unchanged.cpu] at own
      exact own.dispatched
        (schedule_dispatched (entered.dispatchable layout))
  | keyboard status data =>
      have unchanged := (doIrKeyboard_requeued holds.represents ran).undisturbed
      rw [createdBy, List.append_nil, unchanged.gdt, unchanged.cpu]
      exact own
  | wakeupAfterMsec msec =>
      cases ran
      rcases queues with ⟨run, sleep, event⟩
      rcases holds.exists_split enabled with ⟨front, back, rfl⟩
      have leaves : Leaving layout machine (enterSleep layout machine msec)
          _ _ :=
        enterSleep_leaving msec holds.represents rfl
      rw [createdBy, List.append_nil]
      rw [← leaves.gdt, ← leaves.cpu] at own
      exact own.dispatched (schedule_dispatched leaves.dispatchable)
  | wakeupAfterEvent eventType =>
      cases ran
      rcases queues with ⟨run, sleep, event⟩
      rcases holds.exists_split enabled with ⟨front, back, rfl⟩
      have leaves : Leaving layout machine
          (enterWait layout machine eventType) _ _ :=
        enterWait_leaving eventType holds.represents rfl
      rw [createdBy, List.append_nil]
      rw [← leaves.gdt, ← leaves.cpu] at own
      exact own.dispatched (schedule_dispatched leaves.dispatchable)

end Segments

end MagicalOs.Kernel.RunningSegments
