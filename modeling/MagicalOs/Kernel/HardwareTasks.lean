import MagicalOs.Kernel.StepEffects
import MagicalOs.Kernel.TaskSegments

/-!
# The current task and the running task

The kernel keeps the current task in a variable, and the processor keeps the
task state segment it runs.  The two agree as long as the dispatcher gives a
turn to the first two tasks only.  A turn of any later task separates them: the
selector of such a task denotes no segment of its own, so the far jump fails or
leads to another owner, while the variable already names the new task.
-/

namespace MagicalOs.Kernel.HardwareTasks

open MagicalOs.Library.ByteMemory
open MagicalOs.Library.ByteMemory.Memory
open MagicalOs.Kernel.Descriptors
open MagicalOs.Kernel.HeapPages
open MagicalOs.Kernel.MachineState
open MagicalOs.Kernel.TaskStructure
open MagicalOs.Kernel.TaskCreation
open MagicalOs.Kernel.SchedQueues
open MagicalOs.Kernel.Scheduler
open MagicalOs.Kernel.TaskQueues
open MagicalOs.Kernel.SchedTraversal
open MagicalOs.Kernel.Dispatch
open MagicalOs.Kernel.KernelRuns
open MagicalOs.Kernel.QueueInvariant
open MagicalOs.Kernel.StepEffects
open MagicalOs.Kernel.TaskSegments

/-- The call of `schedule` which a step makes. -/
inductive ScheduleCall (layout : Layout) (machine : Machine) :
    Event → Machine → SchedCause → Prop where
  | timer {iterations : Nat} {entering : Machine}
      (ran : tick iterations machine = some entering) :
      ScheduleCall layout machine .timer entering .timer
  | wakeupAfterMsec (msec : Word) :
      ScheduleCall layout machine (.wakeupAfterMsec msec)
        (enterSleep layout machine msec) .syscall
  | wakeupAfterEvent (eventType : Byte) :
      ScheduleCall layout machine (.wakeupAfterEvent eventType)
        (enterWait layout machine eventType) .syscall

/-- No call of `schedule` gives a turn to a third or later task. -/
def FirstTasksOnly (layout : Layout) (machine : Machine) (event : Event) :
    Prop :=
  ∀ entering cause, ScheduleCall layout machine event entering cause →
    ∀ task ∈ turn entering cause, task ≠ 0 →
      (taskId entering.mem task).toNat ≤ 2

/-- The state between two steps, as far as the processor is concerned. -/
structure Hardware (layout : Layout) (machine : Machine)
    (created : List Nat) : Prop where
  installed : Installed layout machine created
  runs : ∃ number, Runs layout machine created number machine.currentTask

/-- A call of `schedule` jumps to another segment than the running one. -/
def SwitchesAway (entering after : Machine) : Prop :=
  (after.gdt, after.cpu) = (entering.gdt, entering.cpu) ∨
    ∃ selector,
      (after.gdt, after.cpu) = ljmp entering.gdt entering.cpu selector ∧
        (entering.gdt (selector.toNat / 8)).base ≠ entering.cpu.runningTss

/--
Between two steps the current task is on the run queue, or none is, and the
processor runs it.
-/
structure CurrentRuns (layout : Layout) (machine : Machine) : Prop where
  ready : machine.currentTask = 0 ∨ machine.runQueue.head ≠ 0 ∧
    ∃ steps, (next machine.mem)^[steps] machine.runQueue.head =
      machine.currentTask
  notDummy : machine.currentTask ≠ layout.dummyTask
  running : machine.cpu.runningTss =
    BitVec.ofNat 32 (tssOf layout machine.currentTask)

/--
The dispatcher of a step jumps away from the running segment and leaves the
processor idle only if no task is ready; a sleeping task hands the processor to
the successor it had on the run queue, or to the kernel task.
-/
structure StepCorrect (layout : Layout) (machine : Machine) (event : Event)
    (after : Machine) : Prop where
  away : ∀ entering cause, ScheduleCall layout machine event entering cause →
    after = schedule entering cause → SwitchesAway entering after
  idle : ∀ entering cause, ScheduleCall layout machine event entering cause →
    after = schedule entering cause →
    after.currentTask = 0 → after.runQueue.head = 0
  handsOver : (∃ msec, event = .wakeupAfterMsec msec) ∨
      (∃ eventType, event = .wakeupAfterEvent eventType) →
    after.currentTask =
        (if next machine.mem machine.currentTask = machine.currentTask then 0
        else next machine.mem machine.currentTask) ∧
      after.cpu.runningTss =
        BitVec.ofNat 32 (tssOf layout after.currentTask)

/-! ## Entering the dispatcher -/

/-- What is known where `schedule` is called, while `running` runs. -/
structure Entered (layout : Layout) (entering : Machine) (cause : SchedCause)
    (created : List Nat) (queues : Queues) (running : Nat) : Prop where
  dispatchable : Dispatchable layout entering queues
  perm : queues.all.Perm created
  room : 4 * created.length ≤ maxHeapPages
  installed : Installed layout entering created
  runs : ∃ number, Runs layout entering created number running
  different : ∀ task ∈ turn entering cause, task ≠ running
  stays : turn entering cause = none → entering.currentTask = running

section Entering

variable {layout : Layout} {machine entering after : Machine}
  {queues later : Queues} {created : List Nat} {cause : SchedCause}
  {event : Event} {number task running : Nat}

theorem entered_of_tick {iterations : Nat}
    (holds : Invariant machine created queues)
    (hardware : Hardware layout machine created)
    (ran : tick iterations machine = some entering) :
    Entered layout entering .timer created (wokenSleepers machine queues)
      machine.currentTask := by
  have invariant := holds.tick ran
  have unchanged := (tick_requeued holds.represents ran).undisturbed
  rcases hardware.runs with ⟨number, runs⟩
  constructor
  · exact invariant.dispatchable layout
  · exact invariant.perm
  · exact holds.room
  · refine hardware.installed.of_dynamicOnly holds.represents.pages holds.perm
      unchanged.taskIdCounter unchanged.mem ?_
    rw [unchanged.gdt]
    exact .refl _
  · exact ⟨number, runs.congr unchanged.gdt unchanged.cpu⟩
  · intro task chosen
    rw [← unchanged.currentTask]
    exact ne_current_of_turn chosen
  · exact fun _ => unchanged.currentTask

/-- A task is alone on its ring exactly when it is its own successor. -/
theorem alone_iff {front back sleep waiting : List Nat} {current : Nat}
    (holds : Represents machine ⟨front ++ current :: back, sleep, waiting⟩) :
    front ++ back = [] ↔ next machine.mem current = current := by
  constructor
  · intro isAlone
    rcases List.append_eq_nil_iff.mp isAlone with ⟨rfl, rfl⟩
    exact holds.run.ring.next_eq_self_iff.mpr rfl
  · intro same
    by_contra several
    exact (next_of_leaving holds.run several).2.2 same

theorem entered_of_leaving (holds : Invariant machine created queues)
    (hardware : Hardware layout machine created)
    (leaving : Leaving layout machine entering queues later)
    (alone : later.run = [] ↔
      next machine.mem machine.currentTask = machine.currentTask)
    (busy : machine.currentTask ≠ 0) :
    Entered layout entering .syscall created later machine.currentTask := by
  have decision := turn_of_leaving leaving
  rcases hardware.runs with ⟨number, runs⟩
  constructor
  · exact leaving.dispatchable
  · exact leaving.perm.trans holds.perm
  · exact holds.room
  · refine hardware.installed.of_dynamicOnly holds.represents.pages holds.perm
      leaving.taskIdCounter leaving.mem ?_
    rw [leaving.gdt]
    exact .refl _
  · exact ⟨number, runs.congr leaving.gdt leaving.cpu⟩
  · intro task chosen
    have value := Option.some.inj (decision.symm.trans chosen)
    rw [← value]
    split
    next => exact busy.symm
    next several => exact fun same => several (alone.mpr same)
  · intro isNone
    rw [decision] at isNone
    cases isNone

/-- Every call of `schedule` is entered like that. -/
theorem ScheduleCall.entered (holds : Invariant machine created queues)
    (hardware : Hardware layout machine created)
    (enabled : Enabled machine event)
    (call : ScheduleCall layout machine event entering cause) :
    ∃ later, Entered layout entering cause created later
      machine.currentTask := by
  cases call with
  | timer ran => exact ⟨_, entered_of_tick holds hardware ran⟩
  | wakeupAfterMsec msec =>
      rcases queues with ⟨run, sleep, waiting⟩
      rcases holds.exists_split enabled with ⟨front, back, rfl⟩
      exact ⟨_, entered_of_leaving holds hardware
        (enterSleep_leaving msec holds.represents rfl)
        (alone_iff holds.represents) enabled⟩
  | wakeupAfterEvent eventType =>
      rcases queues with ⟨run, sleep, waiting⟩
      rcases holds.exists_split enabled with ⟨front, back, rfl⟩
      exact ⟨_, entered_of_leaving holds hardware
        (enterWait_leaving eventType holds.represents rfl)
        (alone_iff holds.represents) enabled⟩

namespace Entered

variable (entered : Entered layout entering cause created queues running)
include entered

theorem createdPage : ∀ task ∈ created, IsHeapPage task :=
  fun task member =>
    entered.dispatchable.represents.pages task
      (entered.perm.mem_iff.mpr member)

theorem nodup : created.Nodup :=
  entered.perm.nodup_iff.mp entered.dispatchable.represents.nodup

theorem dispatched :
    Dispatched entering (schedule entering cause) queues
      (turn entering cause) :=
  schedule_dispatched entered.dispatchable

/-- A turn of one of the first two tasks is a turn of one of the owners. -/
theorem exists_owner
    (first : ∀ task ∈ turn entering cause, task ≠ 0 →
      (taskId entering.mem task).toNat ≤ 2)
    (chosen : turn entering cause = some task) :
    ∃ number ≤ 2, owner created number = some task := by
  rcases ready_of_turn entered.dispatchable chosen with ⟨rfl, _⟩ | member
  · exact ⟨0, by omega, rfl⟩
  have page := entered.dispatchable.represents.run.pages task member
  have small := first task chosen page.ne_null
  have known : task ∈ created :=
    entered.perm.mem_iff.mp (List.mem_append_left _ member)
  rcases List.getElem?_of_mem known with ⟨index, found⟩
  have inList : index < created.length := (List.getElem?_eq_some_iff.mp found).1
  have room := entered.room
  rw [maxHeapPages] at room
  have value := entered.installed.taskId index task found
  rw [value, BitVec.toNat_ofNat] at small
  exact ⟨index + 1, by omega, found⟩

/-- What task creation has fixed is not changed by the dispatcher. -/
theorem installed_schedule :
    Installed layout (schedule entering cause) created := by
  have dispatched := entered.dispatched
  have gdt : (schedule entering cause).gdt =
      (afterTurn entering (turn entering cause)).1 :=
    congrArg Prod.fst dispatched.switched
  refine entered.installed.of_dynamicOnly
    entered.dispatchable.represents.pages entered.perm
    dispatched.taskIdCounter dispatched.mem ?_
  rw [gdt]
  exact afterTurn_sameSegments entering (turn entering cause)

/-- A call of `schedule` which keeps to the first two tasks. -/
theorem hardware
    (first : ∀ task ∈ turn entering cause, task ≠ 0 →
      (taskId entering.mem task).toNat ≤ 2) :
    Hardware layout (schedule entering cause) created ∧
      SwitchesAway entering (schedule entering cause) := by
  have dispatched := entered.dispatched
  have installed := entered.installed_schedule
  have switched := dispatched.switched
  have current := dispatched.currentTask
  rcases entered.runs with ⟨number, runs⟩
  cases chosen : turn entering cause with
  | none =>
      rw [chosen] at switched current
      have gdt : (schedule entering cause).gdt = entering.gdt :=
        congrArg Prod.fst switched
      have cpu : (schedule entering cause).cpu = entering.cpu :=
        congrArg Prod.snd switched
      have same : (schedule entering cause).currentTask = running :=
        current.trans (entered.stays chosen)
      refine ⟨⟨installed, number, ?_⟩, .inl switched⟩
      rw [same]
      exact runs.congr gdt cpu
  | some task =>
      rw [chosen] at switched current
      rcases entered.exists_owner first chosen with ⟨other, small, owned⟩
      have different := entered.different task chosen
      have otherNumber : other ≠ number := by
        rintro rfl
        exact different (Option.some.inj (owned.symm.trans runs.owned))
      have selector :=
        entered.installed.switchSelector_eq entered.createdPage small owned
      rw [afterTurn, selector] at switched
      have isTask : (schedule entering cause).currentTask = task := current
      constructor
      · refine ⟨installed, other, ?_⟩
        rw [isTask]
        exact runs.switch entered.installed small owned otherNumber switched
      · refine .inr ⟨_, switched, ?_⟩
        rw [slotSelector_index small,
          entered.installed.base other small task owned, runs.running]
        exact fun same => different
          (tssOf_injective (owner_page entered.createdPage owned)
            (owner_page entered.createdPage runs.owned) same)

/-- A turn of a third or later task leaves another task running. -/
theorem stuck (chosen : turn entering cause = some task) (nonNull : task ≠ 0)
    (late : ¬(taskId entering.mem task).toNat ≤ 2) :
    (schedule entering cause).cpu.runningTss ≠
      BitVec.ofNat 32
        (tssOf layout (schedule entering cause).currentTask) := by
  have dispatched := entered.dispatched
  rw [chosen] at dispatched
  have different := entered.different task chosen
  have pages := entered.createdPage
  have member : task ∈ created := by
    rcases ready_of_turn entered.dispatchable chosen with ⟨isNull, _⟩ | ready
    · exact absurd isNull nonNull
    · exact entered.perm.mem_iff.mp (List.mem_append_left _ ready)
  have page := pages task member
  have notFirst : ∀ number ≤ 2, owner created number ≠ some task := by
    intro number small owned
    rcases List.getElem?_of_mem member with ⟨index, found⟩
    have same : number = index + 1 :=
      owner_injective entered.nodup pages owned
        (owner_succ created index ▸ found)
    have value := entered.installed.taskId index task found
    rw [value, BitVec.toNat_ofNat] at late
    omega
  have cpu : (schedule entering cause).cpu =
      (ljmp entering.gdt entering.cpu
        (switchSelector entering.mem task)).2 :=
    congrArg Prod.snd dispatched.switched
  have isTask : (schedule entering cause).currentTask = task :=
    dispatched.currentTask
  rcases entered.runs with ⟨number, runs⟩
  rw [cpu, isTask]
  rcases entered.installed.ljmp_running
    (switchSelector entering.mem task) with
    stays | ⟨other, small, owning, owned, switched⟩
  · rw [stays, runs.running]
    exact fun same => different
      (tssOf_injective (owner_page pages runs.owned) (.inr page) same).symm
  · rw [switched]
    intro same
    have equal := tssOf_injective (owner_page pages owned) (.inr page) same
    exact notFirst other small (equal ▸ owned)

/-- After `schedule` nothing is current only if nothing is ready. -/
theorem idle (noTask : (schedule entering cause).currentTask = 0) :
    (schedule entering cause).runQueue.head = 0 := by
  have ready := entered.dispatchable
  have dispatched := entered.dispatched
  have emptyIff := dispatched.represents.run.head_eq_zero_iff
  have current := dispatched.currentTask
  rw [noTask] at current
  cases chosen : turn entering cause with
  | none =>
      rw [chosen] at current
      have isIdle : entering.currentTask = 0 := current.symm
      have ends : ¬KeepsSlice entering cause := fun keeps => keeps.2.1 isIdle
      have noneLeft : entering.runQueue.head = 0 := by
        rw [turn, if_neg ends, nextTurn] at chosen
        by_contra nonEmpty
        rw [if_neg nonEmpty, if_neg (not_not.mpr isIdle)] at chosen
        cases chosen
      exact emptyIff.mpr (ready.represents.run.head_eq_zero_iff.mp noneLeft)
  | some task =>
      rw [chosen] at current
      have isKernel : task = 0 := current.symm
      rcases ready_of_turn ready chosen with ⟨_, none⟩ | member
      · exact emptyIff.mpr none
      · exact absurd isKernel (ready.represents.run.pages task member).ne_null

end Entered

end Entering

/-! ## Steps -/

section Steps

variable {layout : Layout} {mem : Memory} {machine after : Machine}
  {event : Event} {queues : Queues} {created : List Nat}

theorem Hardware.running (hardware : Hardware layout machine created) :
    machine.cpu.runningTss =
      BitVec.ofNat 32 (tssOf layout machine.currentTask) := by
  rcases hardware.runs with ⟨number, runs⟩
  exact runs.running

/-- A step ends with the call of `schedule` it makes. -/
theorem ScheduleCall.after_eq {entering : Machine} {cause : SchedCause}
    (taken : Step layout machine event after)
    (call : ScheduleCall layout machine event entering cause) :
    after = schedule entering cause := by
  rcases taken with ⟨_, iterations, ran⟩
  cases call with
  | timer ranCall =>
      rcases Option.map_eq_some_iff.mp ran with ⟨entering, ticked, rfl⟩
      rw [tick_unique ticked ranCall]
  | wakeupAfterMsec msec => exact (Option.some.inj ran).symm
  | wakeupAfterEvent eventType => exact (Option.some.inj ran).symm

theorem Hardware.taskInit {file : File}
    (holds : Invariant machine created queues)
    (hardware : Hardware layout machine created)
    (free : 4 ≤ (freePages machine.heapAllocTable).card) :
    Hardware layout (TaskCreation.taskInit machine file)
      (created ++ [(nextTaskPages machine.heapAllocTable).task]) := by
  have current : (TaskCreation.taskInit machine file).currentTask =
      machine.currentTask := by
    rw [taskInit_of_free free]
    rfl
  rcases hardware.runs with ⟨number, runs⟩
  constructor
  · exact hardware.installed.taskInit holds free
  · rw [current]
    exact ⟨number, runs.taskInit hardware.installed holds.room free⟩

theorem Hardware.keyboard {iterations : Nat} {status data : Byte}
    (holds : Invariant machine created queues)
    (hardware : Hardware layout machine created)
    (ran : doIrKeyboard iterations machine status data = some after) :
    Hardware layout after created := by
  have unchanged := (doIrKeyboard_requeued holds.represents ran).undisturbed
  rcases hardware.runs with ⟨number, runs⟩
  constructor
  · refine hardware.installed.of_dynamicOnly holds.represents.pages holds.perm
      unchanged.taskIdCounter unchanged.mem ?_
    rw [unchanged.gdt]
    exact .refl _
  · rw [unchanged.currentTask]
    exact ⟨number, runs.congr unchanged.gdt unchanged.cpu⟩

/-- Every step which keeps to the first tasks keeps the processor right. -/
theorem Hardware.step (holds : Invariant machine created queues)
    (hardware : Hardware layout machine created)
    (first : FirstTasksOnly layout machine event)
    (taken : Step layout machine event after) :
    Hardware layout after (created ++ createdBy machine event) := by
  have enabled := taken.1
  have scheduled : ∀ entering cause,
      ScheduleCall layout machine event entering cause →
      Hardware layout after created := by
    intro entering cause call
    rcases call.entered holds hardware enabled with ⟨later, entered⟩
    rw [call.after_eq taken]
    exact (entered.hardware (first entering cause call)).1
  rcases taken with ⟨_, iterations, ran⟩
  cases event with
  | taskInit file =>
      cases ran
      rw [createdBy, allocatePages_of_free enabled]
      exact hardware.taskInit holds enabled
  | timer =>
      rcases Option.map_eq_some_iff.mp ran with ⟨entering, ticked, rfl⟩
      rw [createdBy, List.append_nil]
      exact scheduled entering .timer (.timer ticked)
  | keyboard status data =>
      rw [createdBy, List.append_nil]
      exact hardware.keyboard holds ran
  | wakeupAfterMsec msec =>
      rw [createdBy, List.append_nil]
      exact scheduled _ _ (.wakeupAfterMsec msec)
  | wakeupAfterEvent eventType =>
      rw [createdBy, List.append_nil]
      exact scheduled _ _ (.wakeupAfterEvent eventType)

/-- A sleeping task hands over to its successor. -/
theorem handsOver (holds : Invariant machine created queues)
    (taken : Step layout machine event after)
    (sleeps : (∃ msec, event = .wakeupAfterMsec msec) ∨
      (∃ eventType, event = .wakeupAfterEvent eventType)) :
    after.currentTask =
      if next machine.mem machine.currentTask = machine.currentTask then 0
      else next machine.mem machine.currentTask := by
  have successor {front back sleep waiting : List Nat}
      (represents : Represents machine
        ⟨front ++ machine.currentTask :: back, sleep, waiting⟩)
      (current : after.currentTask = if front ++ back = [] then 0
        else next machine.mem machine.currentTask) :
      after.currentTask =
        if next machine.mem machine.currentTask = machine.currentTask then 0
        else next machine.mem machine.currentTask := by
    rw [current]
    simp only [alone_iff represents]
  rcases queues with ⟨run, sleep, waiting⟩
  rcases sleeps with ⟨msec, rfl⟩ | ⟨eventType, rfl⟩
  · rcases sleep_effect holds taken with ⟨front, back, rfl, _, current, _⟩
    exact successor holds.represents current
  · rcases wait_effect holds taken with ⟨front, back, rfl, _, current, _⟩
    exact successor holds.represents current

theorem Hardware.stepCorrect (holds : Invariant machine created queues)
    (hardware : Hardware layout machine created)
    (first : FirstTasksOnly layout machine event)
    (taken : Step layout machine event after) :
    StepCorrect layout machine event after := by
  constructor
  · intro entering cause call same
    rcases call.entered holds hardware taken.1 with ⟨later, entered⟩
    rw [same]
    exact (entered.hardware (first entering cause call)).2
  · intro entering cause call same noTask
    rcases call.entered holds hardware taken.1 with ⟨later, entered⟩
    rw [same] at noTask ⊢
    exact entered.idle noTask
  · intro sleeps
    exact ⟨handsOver holds taken sleeps,
      (hardware.step holds first taken).running⟩

/-- A step which gives a later task its turn separates the two. -/
theorem Hardware.stuck (holds : Invariant machine created queues)
    (hardware : Hardware layout machine created)
    (taken : Step layout machine event after)
    (late : ¬FirstTasksOnly layout machine event) :
    after.cpu.runningTss ≠
      BitVec.ofNat 32 (tssOf layout after.currentTask) := by
  simp only [FirstTasksOnly, not_forall] at late
  rcases late with ⟨entering, cause, call, task, chosen, nonNull, tooLate⟩
  rcases call.entered holds hardware taken.1 with ⟨later, entered⟩
  rw [call.after_eq taken]
  exact entered.stuck chosen nonNull tooLate

theorem Hardware.currentRuns (holds : Invariant machine created queues)
    (hardware : Hardware layout machine created) :
    CurrentRuns layout machine where
  ready := by
    refine holds.current.imp_right fun member => ?_
    have ring := holds.represents.run
    cases tasks : queues.run with
    | nil =>
        rw [tasks] at member
        cases member
    | cons first rest =>
        rw [tasks] at ring member
        have head : machine.runQueue.head = first := ring.head
        have firstPage := ring.pages first (by simp)
        rcases ring.ring.reachable member with ⟨steps, _, reached⟩
        rw [head]
        exact ⟨firstPage.ne_null, steps, reached⟩
  notDummy := by
    have above := layout.dummyTask_above
    have below := layout.dummyTask_below
    rcases holds.current with idle | member
    · rw [idle]
      omega
    · have lower := (holds.represents.run.pages _ member).lower
      omega
  running := hardware.running

/-- Runs which keep to the first tasks keep the processor right. -/
theorem run_hardware
    (run : Run layout mem (FirstTasksOnly layout) machine created) :
    (∃ queues, Invariant machine created queues) ∧
      Hardware layout machine created := by
  induction run with
  | boot =>
      exact ⟨⟨_, boot_invariant layout mem⟩, boot_installed layout mem, 0,
        boot_runs layout mem⟩
  | step before allowed taken induction =>
      rcases induction with ⟨⟨queues, holds⟩, hardware⟩
      exact ⟨holds.step taken, hardware.step holds allowed taken⟩

/--
In every run whose dispatcher only gives a turn to the first two tasks, the
processor runs the current task, and a further step is correct exactly when it
keeps to the first two tasks as well.
-/
theorem currentRuns_of_firstTasksOnly
    (run : Run layout mem (FirstTasksOnly layout) machine created) :
    CurrentRuns layout machine ∧
      ∀ event after, Step layout machine event after →
        ((CurrentRuns layout after ∧
            StepCorrect layout machine event after) ↔
          FirstTasksOnly layout machine event) := by
  rcases run_hardware run with ⟨⟨queues, holds⟩, hardware⟩
  refine ⟨hardware.currentRuns holds, fun event after taken => ?_⟩
  constructor
  · rintro ⟨current, _⟩
    by_contra late
    exact hardware.stuck holds taken late current.running
  · intro first
    have hardwareAfter := hardware.step holds first taken
    rcases holds.step taken with ⟨later, holdsAfter⟩
    exact ⟨hardwareAfter.currentRuns holdsAfter,
      hardware.stepCorrect holds first taken⟩

/-- After the first creation it is still the kernel task which runs. -/
theorem firstTask_currentRuns :
    CurrentRuns Layout.sample
      (taskInit (boot Layout.sample fun _ => 0#8)
        { name := 0x12000, dataBaseAddr := 0x12020 }) := by
  have first :
      Step Layout.sample (boot Layout.sample fun _ => 0#8)
        (.taskInit { name := 0x12000, dataBaseAddr := 0x12020 })
        (taskInit (boot Layout.sample fun _ => 0#8)
          { name := 0x12000, dataBaseAddr := 0x12020 }) :=
    ⟨(boot_invariant Layout.sample fun _ => 0#8).free (by simp), 0, rfl⟩
  have allowed :
      FirstTasksOnly Layout.sample (boot Layout.sample fun _ => 0#8)
        (.taskInit { name := 0x12000, dataBaseAddr := 0x12020 }) := by
    intro entering cause call
    cases call
  exact (currentRuns_of_firstTasksOnly (.step .boot allowed first)).1

end Steps

/-! ## Three tasks -/

section ThreeTasks

variable {layout : Layout} {machine entering after : Machine}
  {queues : Queues} {created rest sleep waiting : List Nat}
  {cause : SchedCause} {first running index task : Nat} {file : File}

/-- The number of the task whose turn it is. -/
theorem Entered.taskId_turn
    (entered : Entered layout entering cause created queues running)
    (found : created[index]? = some task) (few : created.length ≤ 895) :
    (taskId entering.mem task).toNat = index + 1 := by
  have inList := (List.getElem?_eq_some_iff.mp found).1
  rw [entered.installed.taskId index task found, BitVec.toNat_ofNat]
  omega

/-- Creating a task which is the last of the ready ones. -/
private theorem taskInit_follows
    (holds : Invariant machine created queues)
    (hardware : Hardware layout machine created)
    (few : created.length ≤ 895) (file : File) :
    ∃ task,
      Step layout machine (.taskInit file) (taskInit machine file) ∧
      Invariant (taskInit machine file) (created ++ [task])
        { queues with run := queues.run ++ [task] } ∧
      Hardware layout (taskInit machine file) (created ++ [task]) ∧
      (taskInit machine file).currentTask = machine.currentTask := by
  have free := holds.free few
  have taken : Step layout machine (.taskInit file) (taskInit machine file) :=
    ⟨free, 0, rfl⟩
  rcases taskInit_effect holds taken with ⟨invariant, _, current, _⟩
  exact ⟨_, taken, invariant, hardware.taskInit holds free, current⟩

/-- The timer interrupt which starts the first ready task. -/
private theorem timer_follows
    (holds : Invariant machine created ⟨first :: rest, [], []⟩)
    (hardware : Hardware layout machine created)
    (idle : machine.currentTask = 0) (found : created[0]? = some first)
    (few : created.length ≤ 895) :
    ∃ after, Step layout machine .timer after ∧
      Invariant after created ⟨first :: rest, [], []⟩ ∧
      Hardware layout after created ∧ after.currentTask = first := by
  have allowed : FirstTasksOnly layout machine .timer := by
    intro entering cause call task isTurn _
    cases call with
    | timer ran =>
        have entered := entered_of_tick holds hardware ran
        have represents : Represents entering ⟨first :: rest ++ [], [], []⟩ :=
          entered.dispatchable.represents
        rw [List.append_nil] at represents
        have woke := tick_requeued holds.represents ran
        have isFirst : turn entering .timer = some first :=
          turn_of_idle represents (woke.undisturbed.currentTask.trans idle)
        have same : first = task := Option.some.inj (isFirst.symm.trans isTurn)
        rw [← same, entered.taskId_turn found few]
        omega
  have progress : ∃ after, Step layout machine .timer after :=
    holds.progress trivial
  rcases progress with ⟨after, taken⟩
  rcases start_effect holds idle taken with ⟨invariant, current, _⟩
  have hardwareAfter := hardware.step holds allowed taken
  rw [createdBy, List.append_nil] at hardwareAfter
  exact ⟨after, taken, invariant, hardwareAfter, current⟩

/-- A sleep of the first ready task, which gives the second one its turn. -/
private theorem sleep_follows {current following : Nat} (msec : Word)
    (holds :
      Invariant machine created ⟨current :: following :: rest, sleep, []⟩)
    (hardware : Hardware layout machine created)
    (isCurrent : machine.currentTask = current)
    (found : created[index]? = some following)
    (few : created.length ≤ 895) :
    ∃ after, Step layout machine (.wakeupAfterMsec msec) after ∧
      Invariant after created ⟨following :: rest, sleep ++ [current], []⟩ ∧
      after.currentTask = following ∧
      (FirstTasksOnly layout machine (.wakeupAfterMsec msec) ↔ index < 2) := by
  have represents :
      Represents machine ⟨[] ++ current :: following :: rest, sleep, []⟩ :=
    holds.represents
  have page := holds.represents.run.pages current (by simp)
  have followingPage := holds.represents.run.pages following (by simp)
  have busy : machine.currentTask ≠ 0 := isCurrent ▸ page.ne_null
  have leaving : Leaving layout machine (enterSleep layout machine msec)
      ⟨[] ++ current :: following :: rest, sleep, []⟩
      ⟨[] ++ following :: rest, sleep ++ [current], []⟩ :=
    enterSleep_leaving msec represents isCurrent
  have alone := alone_iff represents
  have successor : next machine.mem machine.currentTask = following := by
    rw [isCurrent, (next_of_leaving represents.run (by simp)).1]
    rfl
  have chosen :
      turn (enterSleep layout machine msec) .syscall = some following := by
    rw [turn_of_leaving leaving, if_neg (by simp), successor]
  have entered := entered_of_leaving holds hardware leaving
    (by rw [isCurrent]; exact alone) busy
  have number := entered.taskId_turn found few
  refine ⟨_, ⟨busy, 0, rfl⟩, holds.leaving leaving, ?_, ?_⟩
  · change (schedule (enterSleep layout machine msec) .syscall).currentTask = _
    rw [entered.dispatched.currentTask, chosen]
    rfl
  · constructor
    · intro allowed
      have small := allowed _ _ (.wakeupAfterMsec msec) following chosen
        followingPage.ne_null
      omega
    · intro early entering cause call task isTurn _
      cases call with
      | wakeupAfterMsec =>
          have same : following = task :=
            Option.some.inj (chosen.symm.trans isTurn)
          rw [← same, number]
          omega

/--
Three tasks are created, the timer starts the first one, and the first two go
to sleep: the third task becomes current while the second one keeps running.
-/
theorem threeTasks_not_currentRuns :
    ∃ after,
      Follows Layout.sample (boot Layout.sample fun _ => 0#8)
        [.taskInit { name := 0x12000, dataBaseAddr := 0x12020 },
          .taskInit { name := 0x13000, dataBaseAddr := 0x13020 },
          .taskInit { name := 0x13000, dataBaseAddr := 0x13020 },
          .timer, .wakeupAfterMsec 1000#32, .wakeupAfterMsec 1000#32] after ∧
      ¬CurrentRuns Layout.sample after := by
  have hardware0 : Hardware Layout.sample
      (boot Layout.sample fun _ => 0#8) [] :=
    ⟨boot_installed _ _, 0, boot_runs _ _⟩
  rcases taskInit_follows (boot_invariant _ _) hardware0 (by simp)
    { name := 0x12000, dataBaseAddr := 0x12020 } with
    ⟨first, step1, holds1, hardware1, current1⟩
  rcases taskInit_follows holds1 hardware1 (by simp)
    { name := 0x13000, dataBaseAddr := 0x13020 } with
    ⟨second, step2, holds2, hardware2, current2⟩
  rcases taskInit_follows holds2 hardware2 (by simp)
    { name := 0x13000, dataBaseAddr := 0x13020 } with
    ⟨third, step3, holds3, hardware3, current3⟩
  have idle := current3.trans (current2.trans current1)
  rcases timer_follows holds3 hardware3 idle rfl (by simp) with
    ⟨after4, step4, holds4, hardware4, current4⟩
  have secondFound : ([first] ++ [second] ++ [third])[1]? = some second := rfl
  rcases sleep_follows 1000#32 holds4 hardware4 current4 secondFound
    (by simp) with ⟨after5, step5, holds5, current5, allowed5⟩
  have hardware5 := hardware4.step holds4 (allowed5.mpr (by omega)) step5
  have thirdFound : ([first] ++ [second] ++ [third])[2]? = some third := rfl
  rcases sleep_follows 1000#32 holds5 hardware5 current5 thirdFound
    (by simp) with ⟨after6, step6, holds6, current6, allowed6⟩
  have late : ¬FirstTasksOnly Layout.sample after5 (.wakeupAfterMsec 1000#32) :=
    fun allowed => absurd (allowed6.mp allowed) (by omega)
  refine ⟨after6, ⟨_, step1, _, step2, _, step3, _, step4, _, step5, _, step6,
    rfl⟩, ?_⟩
  exact fun runs => hardware5.stuck holds5 step6 late runs.running

end ThreeTasks

end MagicalOs.Kernel.HardwareTasks
