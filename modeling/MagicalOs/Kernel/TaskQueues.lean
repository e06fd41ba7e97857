import MagicalOs.Kernel.Scheduler

/-!
# The three queues together

`TaskQueues` is the abstract state of the scheduler: which tasks are ready,
asleep, or waiting for an event, each in queue order.  `Represents` says that
the memory and the queue heads of a machine hold these three lists, as rings
which share no task.

The module states what one change of queues does to the abstract state, and
which part of the memory a scheduling step may write at all: the fields of task
structures which are not fixed at their creation, and the kernel image.
-/

namespace MagicalOs.Kernel.TaskQueues

open MagicalOs.Library.ByteMemory
open MagicalOs.Library.ByteMemory.Memory
open MagicalOs.Kernel.HeapPages
open MagicalOs.Kernel.MachineState
open MagicalOs.Kernel.TaskStructure
open MagicalOs.Kernel.SchedQueues
open MagicalOs.Kernel.Scheduler

/-- The tasks of the three queues, in queue order. -/
@[ext]
structure Queues where
  run : List Nat
  sleep : List Nat
  event : List Nat

/-- All tasks of the system. -/
def Queues.all (queues : Queues) : List Nat :=
  queues.run ++ (queues.sleep ++ queues.event)

/-- The machine holds the three queues, and no task is on two of them. -/
structure Represents (machine : Machine) (queues : Queues) : Prop where
  run : QueueRing machine.mem machine.runQueue queues.run
  sleep : QueueRing machine.mem machine.wakeupQueue queues.sleep
  event : QueueRing machine.mem machine.wakeupEventQueue queues.event
  nodup : queues.all.Nodup

/-! ## Writable memory -/

/--
Only the fields of the given tasks which change after their creation, and the
kernel image, may differ.
-/
def DynamicOnly (before after : Memory) (tasks : List Nat) : Prop :=
  ∀ address, 0x11000 ≤ address →
    (∀ task ∈ tasks,
      address < task ∨ task + 8 ≤ address ∧ address < task + 132 ∨
        task + 144 ≤ address) →
    after address = before address

namespace DynamicOnly

variable {before middle after : Memory} {tasks larger : List Nat} {task : Nat}

theorem refl (mem : Memory) (tasks : List Nat) : DynamicOnly mem mem tasks :=
  fun _ _ _ => rfl

theorem trans (first : DynamicOnly before middle tasks)
    (second : DynamicOnly middle after tasks) :
    DynamicOnly before after tasks :=
  fun address above outside =>
    (second address above outside).trans (first address above outside)

theorem mono (changes : DynamicOnly before after tasks)
    (subset : tasks ⊆ larger) : DynamicOnly before after larger :=
  fun address above outside =>
    changes address above fun task member => outside task (subset member)

theorem of_linksOnly (links : LinksOnly before after tasks) :
    DynamicOnly before after tasks := by
  intro address _ outside
  refine links address fun task member => ?_
  have := outside task member
  omega

/-- A store behind the `tss` and the switch routine of a task. -/
theorem of_tail (member : task ∈ tasks)
    (agree : AgreeOutside after before (task + 132) 12) :
    DynamicOnly before after tasks := by
  intro address _ outside
  have := outside task member
  exact agree address (by omega)

/-- A store into the kernel image. -/
theorem of_image {base size : Nat} (below : base + size ≤ 0x11000)
    (agree : AgreeOutside after before base size) :
    DynamicOnly before after tasks :=
  fun address above _ => agree address (by omega)

/-- The fields fixed at the creation of a task are not written. -/
theorem agreeOn (changes : DynamicOnly before after tasks)
    (pages : ∀ task ∈ tasks, IsHeapPage task) (page : IsHeapPage task)
    (offset size : Nat) (lower : 8 ≤ offset) (upper : offset + size ≤ 132) :
    AgreeOn after before (task + offset) size := by
  intro address above below
  have high := page.lower
  refine changes address (by omega) fun other member => ?_
  by_cases same : other = task
  · omega
  · have apart := (pages other member).apart page same
    omega

end DynamicOnly

/-- A scheduling routine which switches no task leaves all of this alone. -/
structure Undisturbed (tasks : List Nat) (before after : Machine) : Prop where
  mem : DynamicOnly before.mem after.mem tasks
  heapAllocTable : after.heapAllocTable = before.heapAllocTable
  gdt : after.gdt = before.gdt
  cpu : after.cpu = before.cpu
  taskIdCounter : after.taskIdCounter = before.taskIdCounter
  currentTask : after.currentTask = before.currentTask

namespace Undisturbed

variable {tasks larger : List Nat} {before middle after : Machine}

theorem refl (machine : Machine) (tasks : List Nat) :
    Undisturbed tasks machine machine :=
  ⟨.refl _ _, rfl, rfl, rfl, rfl, rfl⟩

theorem trans (first : Undisturbed tasks before middle)
    (second : Undisturbed tasks middle after) :
    Undisturbed tasks before after where
  mem := first.mem.trans second.mem
  heapAllocTable := second.heapAllocTable.trans first.heapAllocTable
  gdt := second.gdt.trans first.gdt
  cpu := second.cpu.trans first.cpu
  taskIdCounter := second.taskIdCounter.trans first.taskIdCounter
  currentTask := second.currentTask.trans first.currentTask

theorem mono (undisturbed : Undisturbed tasks before after)
    (subset : tasks ⊆ larger) : Undisturbed larger before after :=
  { undisturbed with mem := undisturbed.mem.mono subset }

end Undisturbed

/-- Changes of links do not reach the other fields of a task structure. -/
theorem agreeOn_of_linksOnly {before after : Memory} {tasks : List Nat}
    {task : Nat} (links : LinksOnly before after tasks)
    (pages : ∀ task ∈ tasks, IsHeapPage task) (page : IsHeapPage task)
    (offset size : Nat) (lower : 8 ≤ offset) (upper : offset + size ≤ 4096) :
    AgreeOn after before (task + offset) size := by
  refine links.agreeOn fun other member => ?_
  by_cases same : other = task
  · omega
  · have apart := (pages other member).apart page same
    omega

/-! ## Stores which touch no link -/

variable {machine : Machine} {mem after : Memory} {queue : Queue}
  {queues : Queues} {tasks front back : List Nat} {task : Nat}

/-- A store behind the links of a task structure leaves every ring alone. -/
theorem QueueRing.of_tail (holds : QueueRing mem queue tasks)
    (page : IsHeapPage task)
    (agree : AgreeOutside after mem (task + 132) 12) :
    QueueRing after queue tasks := by
  refine holds.congr fun other member => ?_
  apply agree.agreeOn other 8
  by_cases same : other = task
  · omega
  · have apart := (holds.pages other member).apart page same
    omega

/-- So does a store into the kernel image. -/
theorem QueueRing.of_image (holds : QueueRing mem queue tasks)
    {base size : Nat} (below : base + size ≤ 0x11000)
    (agree : AgreeOutside after mem base size) :
    QueueRing after queue tasks := by
  refine holds.congr fun other member => ?_
  have high := (holds.pages other member).lower
  exact agree.agreeOn other 8 (by omega)

namespace Represents

theorem pages (holds : Represents machine queues) :
    ∀ task ∈ queues.all, IsHeapPage task := by
  intro task member
  simp only [Queues.all, List.mem_append] at member
  rcases member with ready | asleep | waiting
  · exact holds.run.pages task ready
  · exact holds.sleep.pages task asleep
  · exact holds.event.pages task waiting

theorem of_tail (holds : Represents machine queues) (page : IsHeapPage task)
    (agree : AgreeOutside after machine.mem (task + 132) 12) :
    Represents { machine with mem := after } queues :=
  ⟨QueueRing.of_tail holds.run page agree,
    QueueRing.of_tail holds.sleep page agree,
    QueueRing.of_tail holds.event page agree, holds.nodup⟩

theorem of_image (holds : Represents machine queues) {base size : Nat}
    (below : base + size ≤ 0x11000)
    (agree : AgreeOutside after machine.mem base size) :
    Represents { machine with mem := after } queues :=
  ⟨QueueRing.of_image holds.run below agree,
    QueueRing.of_image holds.sleep below agree,
    QueueRing.of_image holds.event below agree, holds.nodup⟩

end Represents

/-! ## Moves between the queues -/

section Moving

variable {source target other : Queue} {others before : List Nat}

/-- What a move does to its two queues and to the third one. -/
private theorem queueMove_rings
    (sourceHolds : QueueRing mem source (front ++ task :: back))
    (targetHolds : QueueRing mem target tasks)
    (otherHolds : QueueRing mem other others)
    (perm : before.Perm ((front ++ task :: back) ++ (tasks ++ others)))
    (nodup : before.Nodup) :
    QueueRing (queueMove mem source target task).1
        (queueMove mem source target task).2.1 (front ++ back) ∧
      QueueRing (queueMove mem source target task).1
        (queueMove mem source target task).2.2 (tasks ++ [task]) ∧
      QueueRing (queueMove mem source target task).1 other others ∧
      LinksOnly mem (queueMove mem source target task).1 before := by
  have grouped := perm.nodup_iff.mp nodup
  have outer := List.disjoint_of_nodup_append grouped
  have inner :=
    List.disjoint_of_nodup_append (List.nodup_append.mp grouped).2.1
  have apart : List.Disjoint (front ++ task :: back) tasks :=
    fun _ left right => outer left (List.mem_append_left _ right)
  have links := queueMove_linksOnly sourceHolds targetHolds apart
  refine ⟨queueMove_source sourceHolds targetHolds apart,
    queueMove_target sourceHolds targetHolds apart, ?_, ?_⟩
  · refine otherHolds.linksOnly links ?_ ?_
    · intro node member
      rcases List.mem_append.mp member with inSource | inTarget
      · exact sourceHolds.pages node inSource
      · exact targetHolds.pages node inTarget
    · intro node inOther moved
      rcases List.mem_append.mp moved with inSource | inTarget
      · exact outer inSource (List.mem_append_right _ inOther)
      · exact inner inTarget inOther
  · apply links.mono
    intro node member
    apply perm.mem_iff.mpr
    rw [← List.append_assoc]
    exact List.mem_append_left _ member

end Moving

/-- Tasks have changed their queues, and nothing else has happened. -/
structure Requeued (machine after : Machine) (before later : Queues) :
    Prop where
  represents : Represents after later
  undisturbed : Undisturbed before.all machine after
  perm : later.all.Perm before.all

namespace Requeued

variable {start middle : Machine} {before later last : Queues}

theorem refl (holds : Represents machine queues) :
    Requeued machine machine queues queues :=
  ⟨holds, .refl _ _, .refl _⟩

theorem trans (first : Requeued start middle before later)
    (second : Requeued middle machine later last) :
    Requeued start machine before last where
  represents := second.represents
  undisturbed :=
    first.undisturbed.trans (second.undisturbed.mono first.perm.subset)
  perm := second.perm.trans first.perm

/-- A store behind the links of a task changes no queue. -/
theorem of_tail (holds : Represents machine queues) (member : task ∈ queues.all)
    (agree : AgreeOutside after machine.mem (task + 132) 12) :
    Requeued machine { machine with mem := after } queues queues :=
  ⟨holds.of_tail (holds.pages task member) agree,
    ⟨.of_tail member agree, rfl, rfl, rfl, rfl, rfl⟩, .refl _⟩

/-- Nor does a store into the kernel image. -/
theorem of_image (holds : Represents machine queues) {base size : Nat}
    (below : base + size ≤ 0x11000)
    (agree : AgreeOutside after machine.mem base size) :
    Requeued machine { machine with mem := after } queues queues :=
  ⟨holds.of_image below agree,
    ⟨.of_image below agree, rfl, rfl, rfl, rfl, rfl⟩, .refl _⟩

end Requeued

/-- The outcome of moving one task: only links are written. -/
structure Moved (machine after : Machine) (before later : Queues) : Prop
    extends Requeued machine after before later where
  links : LinksOnly machine.mem after.mem before.all

section Moves

variable {run sleep event : List Nat}

/-- An expired sleeper becomes the last ready task. -/
theorem wakeSleeper
    (holds : Represents machine ⟨run, front ++ task :: back, event⟩) :
    Moved machine (schedRunqEnq (schedWakeupqDel machine task).2 task)
      ⟨run, front ++ task :: back, event⟩
      ⟨run ++ [task], front ++ back, event⟩ := by
  have grouped :
      (Queues.all ⟨run, front ++ task :: back, event⟩).Perm
        ((front ++ task :: back) ++ (run ++ event)) := by
    refine List.perm_iff_count.mpr fun other => ?_
    simp only [Queues.all, List.count_append]
    omega
  have perm :
      (Queues.all ⟨run ++ [task], front ++ back, event⟩).Perm
        (Queues.all ⟨run, front ++ task :: back, event⟩) := by
    refine List.perm_iff_count.mpr fun other => ?_
    simp only [Queues.all, List.count_append, List.count_cons,
      List.count_nil]
    omega
  rcases queueMove_rings holds.sleep holds.run holds.event grouped
    holds.nodup with ⟨sleepRing, runRing, eventRing, links⟩
  exact
    ⟨⟨⟨runRing, sleepRing, eventRing, perm.nodup_iff.mpr holds.nodup⟩,
      ⟨.of_linksOnly links, rfl, rfl, rfl, rfl, rfl⟩, perm⟩, links⟩

/-- So does a task whose event has arrived. -/
theorem wakeWaiter
    (holds : Represents machine ⟨run, sleep, front ++ task :: back⟩) :
    Moved machine (schedRunqEnq (schedWakeupevqDel machine task).2 task)
      ⟨run, sleep, front ++ task :: back⟩
      ⟨run ++ [task], sleep, front ++ back⟩ := by
  have grouped :
      (Queues.all ⟨run, sleep, front ++ task :: back⟩).Perm
        ((front ++ task :: back) ++ (run ++ sleep)) := by
    refine List.perm_iff_count.mpr fun other => ?_
    simp only [Queues.all, List.count_append]
    omega
  have perm :
      (Queues.all ⟨run ++ [task], sleep, front ++ back⟩).Perm
        (Queues.all ⟨run, sleep, front ++ task :: back⟩) := by
    refine List.perm_iff_count.mpr fun other => ?_
    simp only [Queues.all, List.count_append, List.count_cons,
      List.count_nil]
    omega
  rcases queueMove_rings holds.event holds.run holds.sleep grouped
    holds.nodup with ⟨eventRing, runRing, sleepRing, links⟩
  exact
    ⟨⟨⟨runRing, sleepRing, eventRing, perm.nodup_iff.mpr holds.nodup⟩,
      ⟨.of_linksOnly links, rfl, rfl, rfl, rfl, rfl⟩, perm⟩, links⟩

/-- A ready task goes to sleep. -/
theorem sleepReady
    (holds : Represents machine ⟨front ++ task :: back, sleep, event⟩) :
    Moved machine (schedWakeupqEnq (schedRunqDel machine task).2 task)
      ⟨front ++ task :: back, sleep, event⟩
      ⟨front ++ back, sleep ++ [task], event⟩ := by
  have grouped :
      (Queues.all ⟨front ++ task :: back, sleep, event⟩).Perm
        ((front ++ task :: back) ++ (sleep ++ event)) := .refl _
  have perm :
      (Queues.all ⟨front ++ back, sleep ++ [task], event⟩).Perm
        (Queues.all ⟨front ++ task :: back, sleep, event⟩) := by
    refine List.perm_iff_count.mpr fun other => ?_
    simp only [Queues.all, List.count_append, List.count_cons,
      List.count_nil]
    omega
  rcases queueMove_rings holds.run holds.sleep holds.event grouped
    holds.nodup with ⟨runRing, sleepRing, eventRing, links⟩
  exact
    ⟨⟨⟨runRing, sleepRing, eventRing, perm.nodup_iff.mpr holds.nodup⟩,
      ⟨.of_linksOnly links, rfl, rfl, rfl, rfl, rfl⟩, perm⟩, links⟩

/-- A ready task starts to wait for an event. -/
theorem awaitReady
    (holds : Represents machine ⟨front ++ task :: back, sleep, event⟩) :
    Moved machine (schedWakeupevqEnq (schedRunqDel machine task).2 task)
      ⟨front ++ task :: back, sleep, event⟩
      ⟨front ++ back, sleep, event ++ [task]⟩ := by
  have grouped :
      (Queues.all ⟨front ++ task :: back, sleep, event⟩).Perm
        ((front ++ task :: back) ++ (event ++ sleep)) := by
    refine List.perm_iff_count.mpr fun other => ?_
    simp only [Queues.all, List.count_append]
    omega
  have perm :
      (Queues.all ⟨front ++ back, sleep, event ++ [task]⟩).Perm
        (Queues.all ⟨front ++ task :: back, sleep, event⟩) := by
    refine List.perm_iff_count.mpr fun other => ?_
    simp only [Queues.all, List.count_append, List.count_cons,
      List.count_nil]
    omega
  rcases queueMove_rings holds.run holds.event holds.sleep grouped
    holds.nodup with ⟨runRing, eventRing, sleepRing, links⟩
  exact
    ⟨⟨⟨runRing, sleepRing, eventRing, perm.nodup_iff.mpr holds.nodup⟩,
      ⟨.of_linksOnly links, rfl, rfl, rfl, rfl, rfl⟩, perm⟩, links⟩

end Moves

end MagicalOs.Kernel.TaskQueues
