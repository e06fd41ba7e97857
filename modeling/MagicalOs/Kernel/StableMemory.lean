import MagicalOs.Kernel.AddressSpaces
import MagicalOs.Kernel.QueueInvariant

/-!
# The memory which scheduling leaves alone

Between its creation and the end of a run, a task structure is written at its
links, its time slice and its wakeup fields only.  Every other byte behind the
kernel image and below the free pages of the heap is stable: no step of the
kernel changes it, and a task creation takes its pages from behind.
-/

namespace MagicalOs.Kernel.StableMemory

open MagicalOs.Library.ByteMemory
open MagicalOs.Library.ByteMemory.Memory
open MagicalOs.Kernel.HeapPages
open MagicalOs.Kernel.MachineState
open MagicalOs.Kernel.TaskStructure
open MagicalOs.Kernel.TaskCreation
open MagicalOs.Kernel.SchedQueues
open MagicalOs.Kernel.Scheduler
open MagicalOs.Kernel.TaskQueues
open MagicalOs.Kernel.SchedTraversal
open MagicalOs.Kernel.Dispatch
open MagicalOs.Kernel.HeapRuns (Leads)
open MagicalOs.Kernel.AddressSpaces (QueueInUse)
open MagicalOs.Kernel.KernelRuns
open MagicalOs.Kernel.QueueInvariant

/-- The byte is in use, and not part of what scheduling writes. -/
structure Stable (created : List Nat) (address : Nat) : Prop where
  above : 0x11000 ≤ address
  below : address < heapPage (4 * created.length)
  fixed : ∀ task ∈ created,
    address < task ∨ task + 8 ≤ address ∧ address < task + 132 ∨
      task + 144 ≤ address

section Stable

variable {layout : Layout} {machine next : Machine} {queues : Queues}
  {created tasks : List Nat} {event : Event} {file : File} {address : Nat}
  {old new : Memory}

/-- All bytes of a block are stable. -/
def StableBlock (created : List Nat) (base size : Nat) : Prop :=
  ∀ address, base ≤ address → address < base + size → Stable created address

theorem Stable.unchanged (stable : Stable created address)
    (changes : DynamicOnly old new tasks)
    (known : ∀ task ∈ tasks, task ∈ created) :
    new address = old address :=
  changes address stable.above fun task member =>
    stable.fixed task (known task member)

/-- A creation only writes to its own pages and to links. -/
theorem Stable.creation (stable : Stable created address)
    (holds : Invariant machine created queues)
    (free : 4 ≤ (freePages machine.heapAllocTable).card) :
    (taskInit machine file).mem address = machine.mem address := by
  have below := stable.below
  have links :
      LinksOnly (initialized machine file).mem (taskInit machine file).mem
        ((nextTaskPages machine.heapAllocTable).task :: queues.run) :=
    holds.taskInit_linksOnly free
  have built : AgreeOn (initialized machine file).mem machine.mem address 1 :=
    holds.initialized_agreeOn free below
  rw [links address, built.load8]
  intro task member
  rcases List.mem_cons.mp member with rfl | ready
  · left
    rw [holds.nextTask_eq free]
    exact Nat.lt_of_lt_of_le below (heapPage_le (Nat.le_add_right _ 2))
  · have known : task ∈ created := by
      apply holds.perm.mem_iff.mp
      exact List.mem_append_left _ ready
    rcases stable.fixed task known with before | ⟨behind, _⟩ | behind
    · exact .inl before
    · exact .inr behind
    · right
      omega

theorem Stable.leaving {entering : Machine} {before later : Queues}
    {cause : SchedCause} (stable : Stable created address)
    (leaves : Leaving layout machine entering before later)
    (known : ∀ task ∈ before.all, task ∈ created) :
    (schedule entering cause).mem address = machine.mem address := by
  have changes : DynamicOnly entering.mem (schedule entering cause).mem
      later.all :=
    (schedule_dispatched leaves.dispatchable).mem
  have inner := stable.unchanged leaves.mem known
  have outer := stable.unchanged changes
    fun task member => known task (leaves.perm.mem_iff.mp member)
  exact outer.trans inner

/-- No step changes a stable byte, -/
theorem Stable.step (stable : Stable created address)
    (holds : Invariant machine created queues)
    (taken : Step layout machine event next) :
    next.mem address = machine.mem address := by
  have known : ∀ task ∈ queues.all, task ∈ created :=
    fun task member => holds.perm.mem_iff.mp member
  rcases taken with ⟨enabled, iterations, ran⟩
  cases event with
  | taskInit file =>
      cases ran
      exact stable.creation holds enabled
  | timer =>
      rcases Option.map_eq_some_iff.mp ran with ⟨entering, ticked, rfl⟩
      have woken := tick_requeued holds.represents ticked
      have entered := holds.tick ticked
      have changes : DynamicOnly entering.mem (schedule entering .timer).mem
          (wokenSleepers machine queues).all :=
        (schedule_dispatched (entered.dispatchable layout)).mem
      have inner := stable.unchanged woken.undisturbed.mem known
      have outer := stable.unchanged changes
        fun task member => entered.perm.mem_iff.mp member
      exact outer.trans inner
  | keyboard status data =>
      have woken := doIrKeyboard_requeued holds.represents ran
      exact stable.unchanged woken.undisturbed.mem known
  | wakeupAfterMsec msec =>
      cases ran
      rcases queues with ⟨run, sleep, event⟩
      rcases holds.exists_split enabled with ⟨front, back, rfl⟩
      have leaves : Leaving layout machine (enterSleep layout machine msec)
          _ _ :=
        enterSleep_leaving msec holds.represents rfl
      exact stable.leaving leaves known
  | wakeupAfterEvent eventType =>
      cases ran
      rcases queues with ⟨run, sleep, event⟩
      rcases holds.exists_split enabled with ⟨front, back, rfl⟩
      have leaves : Leaving layout machine
          (enterWait layout machine eventType) _ _ :=
        enterWait_leaving eventType holds.represents rfl
      exact stable.leaving leaves known

/-- and it stays stable, because new tasks lie behind it. -/
theorem Stable.after (stable : Stable created address)
    (holds : Invariant machine created queues)
    (taken : Step layout machine event next) :
    Stable (created ++ createdBy machine event) address := by
  have below := stable.below
  refine ⟨stable.above, ?_, ?_⟩
  · refine Nat.lt_of_lt_of_le below (heapPage_le ?_)
    rw [List.length_append]
    omega
  · intro task member
    rcases List.mem_append.mp member with old | new
    · exact stable.fixed task old
    · left
      cases event with
      | taskInit file =>
          have free : 4 ≤ (freePages machine.heapAllocTable).card := taken.1
          rw [createdBy, allocatePages_of_free free, List.mem_singleton] at new
          rw [new, holds.nextTask_eq free]
          exact Nat.lt_of_lt_of_le below (heapPage_le (Nat.le_add_right _ 2))
      | timer => cases new
      | keyboard status data => cases new
      | wakeupAfterMsec msec => cases new
      | wakeupAfterEvent eventType => cases new

theorem StableBlock.agreeOn {base size : Nat}
    (stable : StableBlock created base size)
    (holds : Invariant machine created queues)
    (taken : Step layout machine event next) :
    AgreeOn next.mem machine.mem base size :=
  fun address lower upper => (stable address lower upper).step holds taken

/-- What lies between the kernel image and the heap is stable. -/
theorem stableBlock_below {base size : Nat} (above : 0x11000 ≤ base)
    (below : base + size ≤ heapStartAddr)
    (pages : ∀ task ∈ created, IsHeapPage task) :
    StableBlock created base size := by
  intro address lower upper
  have heap : heapStartAddr ≤ heapPage (4 * created.length) :=
    Nat.le_add_right _ _
  refine ⟨Nat.le_trans above lower, by omega, fun task member => .inl ?_⟩
  have page : heapStartAddr ≤ task := (pages task member).lower
  omega

end Stable

/-! ## The run queue between steps -/

section Queue

variable {machine : Machine} {created : List Nat} {queues : Queues}

/-- Between steps the run queue leads to task structures in use. -/
theorem runQueue_inUse (holds : Invariant machine created queues) :
    QueueInUse machine (0 :: queues.run) := by
  have ring := holds.represents.run
  have ready : ∀ task ∈ 0 :: queues.run, task ≠ 0 → task ∈ queues.run :=
    fun task member nonNull => (List.mem_cons.mp member).resolve_left nonNull
  constructor
  · constructor
    · intro task member nonNull
      exact ring.pages task (ready task member nonNull)
    · exact List.mem_cons_self
    · rw [ring.head]
      cases queues.run with
      | nil => exact List.mem_cons_self
      | cons first rest =>
          exact List.mem_cons_of_mem 0 List.mem_cons_self
    · intro task member nonNull
      apply List.mem_cons_of_mem
      exact ring.ring.prev_mem (ready task member nonNull)
  · intro task member nonNull
    have known : task ∈ created := by
      apply holds.perm.mem_iff.mp
      exact List.mem_append_left _ (ready task member nonNull)
    rcases ring.pages task (ready task member nonNull) with
      ⟨index, small, rfl⟩
    have below := holds.below _ known
    rw [heapPage_eq, heapPage_eq] at below
    refine ⟨index, small, rfl, (holds.heap index small).mpr ?_⟩
    omega

end Queue

end MagicalOs.Kernel.StableMemory
