import MagicalOs.Kernel.KernelRuns

/-!
# The queues hold the tasks

In every reachable state the three queues are rings which share no task and
hold exactly the tasks which have been created, and the current task is a ready
task or none.  Since no page is ever freed, the live pages are always a prefix
of the heap; a new task takes the next four, so the word which the creation
writes behind its page directory lies in its own page table.
-/

namespace MagicalOs.Kernel.QueueInvariant

open MagicalOs.Library.ByteMemory
open MagicalOs.Library.ByteMemory.Memory
open MagicalOs.Kernel.Descriptors
open MagicalOs.Kernel.HeapPages
open MagicalOs.Kernel.MachineState
open MagicalOs.Kernel.TaskStructure
open MagicalOs.Kernel.TaskCreation
open MagicalOs.Kernel.SchedQueues
open MagicalOs.Kernel.Scheduler
open MagicalOs.Kernel.TaskQueues
open MagicalOs.Kernel.SchedTraversal
open MagicalOs.Kernel.Dispatch
open MagicalOs.Kernel.KernelRuns

/-- The state of the queues, the current task and the heap between steps. -/
structure Invariant (machine : Machine) (created : List Nat)
    (queues : Queues) : Prop where
  represents : Represents machine queues
  current : machine.currentTask = 0 ∨ machine.currentTask ∈ queues.run
  perm : queues.all.Perm created
  heap : Prefix machine.heapAllocTable (4 * created.length)
  room : 4 * created.length ≤ maxHeapPages
  below : ∀ task ∈ created, task + 4096 ≤ heapPage (4 * created.length)

/-! ## Task creation -/

section Creation

variable {machine : Machine} {file : File} {queues : Queues}
  {created : List Nat}

/-- The machine in which `task_init` puts the new task on the run queue. -/
def initialized (machine : Machine) (file : File) : Machine :=
  let pages := nextTaskPages machine.heapAllocTable
  { machine with
    heapAllocTable := takeTaskPages machine.heapAllocTable
    mem := initTaskMemory machine.mem pages file machine.taskIdCounter
    taskIdCounter := machine.taskIdCounter + 1#16
    gdt :=
      initGdt machine.gdt (tssIndex machine.taskIdCounter)
        (BitVec.ofNat 32 (tss pages.task)) (BitVec.ofNat 32 sizeofTss) 3#8 }

theorem taskInit_of_free (free : 4 ≤ (freePages machine.heapAllocTable).card) :
    taskInit machine file =
      schedRunqEnq (initialized machine file)
        (nextTaskPages machine.heapAllocTable).task := by
  rw [taskInit, allocatePages_of_free free]
  rfl

namespace Invariant

variable (holds : Invariant machine created queues)
include holds

theorem room_of_free (free : 4 ≤ (freePages machine.heapAllocTable).card) :
    4 * created.length + 4 ≤ maxHeapPages := by
  have card := holds.heap.card
  have room := holds.room
  omega

/-- The next task structure lies behind all earlier ones. -/
theorem nextTask_eq (free : 4 ≤ (freePages machine.heapAllocTable).card) :
    (nextTaskPages machine.heapAllocTable).task =
      heapPage (4 * created.length + 2) := by
  rw [(nextTaskPages_of_heapPrefix holds.heap (holds.room_of_free free)).1]

theorem nextTask_fresh (free : 4 ≤ (freePages machine.heapAllocTable).card) :
    (nextTaskPages machine.heapAllocTable).task ∉ queues.all := by
  intro member
  have below := holds.below _ (holds.perm.mem_iff.mp member)
  rw [holds.nextTask_eq free, heapPage_eq, heapPage_eq] at below
  omega

/-- A creation does not write into the pages of earlier tasks. -/
theorem initialized_agreeOn
    (free : 4 ≤ (freePages machine.heapAllocTable).card) {base size : Nat}
    (below : base + size ≤ heapPage (4 * created.length)) :
    AgreeOn (initialized machine file).mem machine.mem base size := by
  have pages :=
    (nextTaskPages_of_heapPrefix holds.heap (holds.room_of_free free)).1
  rw [heapPage_eq] at below
  refine initTaskMemory_agreeOn _ _ _ base size ?_ ?_ ?_
  · rw [pages]
    simp only [heapPage_eq]
    omega
  · rw [pages]
    simp only [heapPage_eq]
    omega
  · rw [pages]
    simp only [heapPage_eq]
    omega

theorem initialized_represents
    (free : 4 ≤ (freePages machine.heapAllocTable).card) :
    Represents (initialized machine file) queues := by
  have agree : ∀ task ∈ queues.all,
      AgreeOn (initialized machine file).mem machine.mem task 8 := by
    intro task member
    have below := holds.below task (holds.perm.mem_iff.mp member)
    exact holds.initialized_agreeOn free (by omega)
  refine ⟨?_, ?_, ?_, holds.represents.nodup⟩
  · refine holds.represents.run.congr fun task member => agree task ?_
    simp [Queues.all, member]
  · refine holds.represents.sleep.congr fun task member => agree task ?_
    simp [Queues.all, member]
  · refine holds.represents.event.congr fun task member => agree task ?_
    simp [Queues.all, member]

/-- The links which putting the new task on the run queue writes. -/
theorem taskInit_linksOnly
    (free : 4 ≤ (freePages machine.heapAllocTable).card) :
    LinksOnly (initialized machine file).mem (taskInit machine file).mem
      ((nextTaskPages machine.heapAllocTable).task :: queues.run) := by
  have represents : Represents (initialized machine file) queues :=
    holds.initialized_represents free
  have fresh := holds.nextTask_fresh free
  rw [taskInit_of_free free]
  refine queueEnq_linksOnly represents.run
    (nextTaskPages_distinct free).heapTask ?_
  exact fun member => fresh (by simp [Queues.all, member])

theorem taskInit_represents
    (free : 4 ≤ (freePages machine.heapAllocTable).card) :
    Represents (taskInit machine file)
      { queues with
        run := queues.run ++ [(nextTaskPages machine.heapAllocTable).task]
      } := by
  have represents : Represents (initialized machine file) queues :=
    holds.initialized_represents free
  have links :
      LinksOnly (initialized machine file).mem (taskInit machine file).mem
        ((nextTaskPages machine.heapAllocTable).task :: queues.run) :=
    holds.taskInit_linksOnly free
  have page := (nextTaskPages_distinct free).heapTask
  have fresh := holds.nextTask_fresh free
  have freshRun :
      (nextTaskPages machine.heapAllocTable).task ∉ queues.run :=
    fun member => fresh (by simp [Queues.all, member])
  have linked : ∀ other ∈
      (nextTaskPages machine.heapAllocTable).task :: queues.run,
      IsHeapPage other := by
    intro other member
    rcases List.mem_cons.mp member with rfl | ready
    · exact page
    · exact represents.run.pages other ready
  have ready :=
    queueEnq_ring represents.run page freshRun
  have nodup := represents.nodup
  refine ⟨?_, ?_, ?_, ?_⟩
  · rw [taskInit_of_free free]
    exact ready
  · have sleep := represents.sleep.linksOnly links linked ?_
    · rw [taskInit_of_free free] at sleep ⊢
      exact sleep
    · intro other asleep moved
      rcases List.mem_cons.mp moved with rfl | inRun
      · exact fresh (by simp [Queues.all, asleep])
      · exact List.disjoint_of_nodup_append nodup inRun
          (List.mem_append_left _ asleep)
  · have event := represents.event.linksOnly links linked ?_
    · rw [taskInit_of_free free] at event ⊢
      exact event
    · intro other waiting moved
      rcases List.mem_cons.mp moved with rfl | inRun
      · exact fresh (by simp [Queues.all, waiting])
      · exact List.disjoint_of_nodup_append nodup inRun
          (List.mem_append_right _ waiting)
  · have perm :
        ((queues.run ++ [(nextTaskPages machine.heapAllocTable).task]) ++
          (queues.sleep ++ queues.event)).Perm
          ((nextTaskPages machine.heapAllocTable).task :: queues.all) := by
      rw [List.append_assoc]
      exact List.perm_middle
    exact perm.nodup_iff.mpr (List.nodup_cons.mpr ⟨fresh, nodup⟩)

theorem taskInit (free : 4 ≤ (freePages machine.heapAllocTable).card) :
    Invariant (TaskCreation.taskInit machine file)
      (created ++ [(nextTaskPages machine.heapAllocTable).task])
      { queues with
        run := queues.run ++ [(nextTaskPages machine.heapAllocTable).task]
      } := by
  have room := holds.room_of_free free
  have heap := (nextTaskPages_of_heapPrefix holds.heap room).2
  have length :
      4 * (created ++ [(nextTaskPages machine.heapAllocTable).task]).length =
        4 * created.length + 4 := by
    rw [List.length_append, List.length_singleton]
    omega
  refine ⟨holds.taskInit_represents free, ?_, ?_, ?_, ?_, ?_⟩
  · rw [taskInit_of_free free]
    refine holds.current.imp_right fun ready => ?_
    exact List.mem_append_left _ ready
  · have moved :
        (Queues.all
          { queues with
            run := queues.run ++ [(nextTaskPages machine.heapAllocTable).task]
          }).Perm
          ((nextTaskPages machine.heapAllocTable).task :: queues.all) := by
      rw [Queues.all, List.append_assoc]
      exact List.perm_middle
    exact moved.trans ((holds.perm.cons _).trans
      (List.perm_append_singleton _ _).symm)
  · rw [length, taskInit_of_free free]
    exact heap
  · rw [length]
    exact room
  · intro other member
    rw [length]
    rcases List.mem_append.mp member with old | new
    · exact (holds.below other old).trans (heapPage_le (Nat.le_add_right _ 4))
    · rw [List.mem_singleton.mp new, holds.nextTask_eq free, heapPage_eq,
        heapPage_eq]
      omega

end Invariant

end Creation

/-! ## Interrupts and sleeps -/

section Scheduling

variable {layout : Layout} {machine after : Machine} {queues later : Queues}
  {created front back sleep event : List Nat} {iterations task : Nat}

namespace Invariant

variable (holds : Invariant machine created queues)
include holds

/-- Waking tasks up keeps the invariant. -/
theorem requeued (changes : Requeued machine after queues later)
    (grows : queues.run ⊆ later.run) : Invariant after created later where
  represents := changes.represents
  current := by
    rw [changes.undisturbed.currentTask]
    exact holds.current.imp_right fun ready => grows ready
  perm := changes.perm.trans holds.perm
  heap := changes.undisturbed.heapAllocTable ▸ holds.heap
  room := holds.room
  below := holds.below

theorem dispatchable (layout : Layout) :
    Dispatchable layout machine queues :=
  ⟨holds.represents, holds.current.imp_right .inl⟩

/-- So does a call of `schedule` between two tasks. -/
theorem schedule (layout : Layout) (cause : SchedCause) :
    Invariant (Scheduler.schedule machine cause) created queues := by
  have ready := holds.dispatchable layout
  have dispatched : Dispatched machine (Scheduler.schedule machine cause)
      queues (turn machine cause) := schedule_dispatched ready
  refine ⟨dispatched.represents, ?_, holds.perm,
    dispatched.heapAllocTable ▸ holds.heap, holds.room, holds.below⟩
  rw [dispatched.currentTask]
  cases chosen : turn machine cause with
  | none => exact holds.current
  | some task => exact (ready_of_turn ready chosen).imp_left And.left

end Invariant

/-- The dispatcher always switches away from the dummy task. -/
theorem turn_of_leaving {before : Queues}
    (leaving : Leaving layout machine after before later) :
    turn after .syscall =
      some (if later.run = [] then 0 else next machine.mem machine.currentTask)
      := by
  have represents := leaving.dispatchable.represents
  have emptyIff := represents.run.head_eq_zero_iff
  have image := layout.dummyTask_above
  have imageEnd := layout.dummyTask_below
  have current := leaving.currentTask
  have ends : ¬KeepsSlice after .syscall := fun keeps => by
    have impossible := keeps.1
    cases impossible
  have busy : after.currentTask ≠ 0 := by
    rw [current]
    omega
  rw [turn, if_neg ends, nextTurn]
  by_cases isEmpty : later.run = []
  · rw [if_pos (emptyIff.mpr isEmpty), if_neg busy, if_pos isEmpty]
  · have saved := leaving.saved isEmpty
    have nextReady : next after.mem after.currentTask ∈ later.run := by
      rcases leaving.dispatchable.current with isNull | ready | ⟨_, member⟩
      · exact absurd isNull busy
      · have high := (represents.run.pages _ ready).lower
        rw [current] at high
        omega
      · exact member isEmpty
    have high := (represents.run.pages _ nextReady).lower
    have different : after.currentTask ≠ next after.mem after.currentTask := by
      rw [current] at high ⊢
      omega
    rw [if_neg (fun none => isEmpty (emptyIff.mp none)), if_pos busy,
      if_pos different, if_neg isEmpty, current, saved]

/-- A sleep of the current task keeps the invariant. -/
theorem Invariant.leaving
    (holds : Invariant machine created queues)
    (leaves : Leaving layout machine after queues later) :
    Invariant (Scheduler.schedule after .syscall) created later := by
  have ready := leaves.dispatchable
  have dispatched : Dispatched after (Scheduler.schedule after .syscall) later
      (turn after .syscall) := schedule_dispatched ready
  refine ⟨dispatched.represents, ?_, leaves.perm.trans holds.perm, ?_,
    holds.room, holds.below⟩
  · rw [dispatched.currentTask]
    have chosen := turn_of_leaving leaves
    have valid := ready_of_turn ready chosen
    rw [chosen]
    exact valid.imp_left And.left
  · rw [dispatched.heapAllocTable, leaves.heapAllocTable]
    exact holds.heap

/-- A timer interrupt wakes tasks up before it calls `schedule`. -/
theorem tick_requeued (holds : Represents machine queues)
    (ran : Scheduler.tick iterations machine = some after) :
    Requeued machine after queues (wokenSleepers machine queues) := by
  rcases Option.map_eq_some_iff.mp ran with ⟨⟨result, woken⟩, update, rfl⟩
  have counted : Represents
      { machine with globalCounter := machine.globalCounter + timerTickMs }
      queues :=
    ⟨holds.run, holds.sleep, holds.event, holds.nodup⟩
  have woke := schedUpdateWakeupq_requeued counted update
  have unchanged := woke.undisturbed
  exact
    ⟨woke.represents,
      ⟨unchanged.mem, unchanged.heapAllocTable, unchanged.gdt, unchanged.cpu,
        unchanged.taskIdCounter, unchanged.currentTask⟩, woke.perm⟩

/-- The state before the dispatcher of a timer interrupt is determined. -/
theorem tick_unique {first second : Nat} {one other : Machine}
    (ranOne : tick first machine = some one)
    (ranOther : tick second machine = some other) : one = other := by
  rcases Option.map_eq_some_iff.mp ranOne with ⟨oneOutcome, oneUpdate, rfl⟩
  rcases Option.map_eq_some_iff.mp ranOther with
    ⟨otherOutcome, otherUpdate, rfl⟩
  have oneLong := schedUpdateWakeupq_mono second oneUpdate
  have otherLong := schedUpdateWakeupq_mono first otherUpdate
  rw [Nat.add_comm, oneLong] at otherLong
  rw [Option.some.inj otherLong]

/-- Receiving a scan code changes the key code queue only. -/
theorem receiveKeycode_eq (machine : Machine) (status data : Byte) :
    ∃ queue, receiveKeycode machine status data =
      { machine with keycodeQueue := queue } := by
  rw [receiveKeycode]
  split
  next => exact ⟨_, rfl⟩
  next => exact ⟨machine.keycodeQueue, rfl⟩

/-- A keyboard interrupt does nothing else to the tasks. -/
theorem doIrKeyboard_requeued {status data : Byte}
    (holds : Represents machine queues)
    (ran : doIrKeyboard iterations machine status data = some after) :
    Requeued machine after queues
      (wokenWaiters machine eventTypeKbd queues) := by
  rcases receiveKeycode_eq machine status data with ⟨queue, received⟩
  rw [doIrKeyboard, received] at ran
  rcases Option.map_eq_some_iff.mp ran with ⟨⟨result, woken⟩, update, rfl⟩
  have accepted : Represents { machine with keycodeQueue := queue } queues :=
    ⟨holds.run, holds.sleep, holds.event, holds.nodup⟩
  have woke := schedUpdateWakeupevq_requeued accepted update
  have represents := woke.represents
  have unchanged := woke.undisturbed
  exact
    ⟨⟨represents.run, represents.sleep, represents.event, represents.nodup⟩,
      ⟨unchanged.mem, unchanged.heapAllocTable, unchanged.gdt, unchanged.cpu,
        unchanged.taskIdCounter, unchanged.currentTask⟩, woke.perm⟩

theorem Invariant.tick (holds : Invariant machine created queues)
    (ran : Scheduler.tick iterations machine = some after) :
    Invariant after created (wokenSleepers machine queues) :=
  holds.requeued (tick_requeued holds.represents ran)
    (List.subset_append_left _ _)

theorem Invariant.keyboard {status data : Byte}
    (holds : Invariant machine created queues)
    (ran : doIrKeyboard iterations machine status data = some after) :
    Invariant after created (wokenWaiters machine eventTypeKbd queues) :=
  holds.requeued (doIrKeyboard_requeued holds.represents ran)
    (List.subset_append_left _ _)

/-- A running task is a ready task, so it can leave the run queue. -/
theorem Invariant.exists_split (holds : Invariant machine created queues)
    (busy : machine.currentTask ≠ 0) :
    ∃ front back, queues.run = front ++ machine.currentTask :: back := by
  rcases holds.current with idle | ready
  · exact absurd idle busy
  · exact List.append_of_mem ready

end Scheduling

/-! ## Runs -/

section Runs

variable {layout : Layout} {mem : Memory} {machine after : Machine}
  {event : Event} {queues : Queues} {created : List Nat}
  {Allowed : Machine → Event → Prop}

theorem boot_invariant (layout : Layout) (mem : Memory) :
    Invariant (boot layout mem) [] ⟨[], [], []⟩ where
  represents :=
    ⟨.empty _, .empty _, .empty _, List.nodup_nil⟩
  current := .inl rfl
  perm := .refl _
  heap := by
    intro page _
    simp [Live, boot, kernTaskInit, staticMachine]
  room := Nat.zero_le _
  below := by simp

/-- Every step keeps the invariant. -/
theorem Invariant.step (holds : Invariant machine created queues)
    (taken : Step layout machine event after) :
    ∃ later, Invariant after (created ++ createdBy machine event) later := by
  rcases taken with ⟨enabled, iterations, ran⟩
  cases event with
  | taskInit file =>
      cases ran
      rw [createdBy, allocatePages_of_free enabled]
      exact ⟨_, holds.taskInit enabled⟩
  | timer =>
      rcases Option.map_eq_some_iff.mp ran with ⟨entering, ticked, rfl⟩
      rw [createdBy, List.append_nil]
      exact ⟨_, (holds.tick ticked).schedule layout .timer⟩
  | keyboard status data =>
      rw [createdBy, List.append_nil]
      exact ⟨_, holds.keyboard ran⟩
  | wakeupAfterMsec msec =>
      cases ran
      rcases queues with ⟨run, sleep, event⟩
      rcases holds.exists_split enabled with ⟨front, back, rfl⟩
      rw [createdBy, List.append_nil]
      exact ⟨_, holds.leaving (enterSleep_leaving msec holds.represents rfl)⟩
  | wakeupAfterEvent eventType =>
      cases ran
      rcases queues with ⟨run, sleep, event⟩
      rcases holds.exists_split enabled with ⟨front, back, rfl⟩
      rw [createdBy, List.append_nil]
      exact
        ⟨_, holds.leaving (enterWait_leaving eventType holds.represents rfl)⟩

/-- Hence every run does. -/
theorem run_invariant (run : Run layout mem Allowed machine created) :
    ∃ queues, Invariant machine created queues := by
  induction run with
  | boot => exact ⟨_, boot_invariant layout mem⟩
  | step before allowed taken induction =>
      rcases induction with ⟨queues, holds⟩
      exact holds.step taken

/-- No traversal runs forever: every enabled event can be handled. -/
theorem Invariant.progress (holds : Invariant machine created queues)
    (enabled : Enabled machine event) :
    ∃ after, Step layout machine event after := by
  have represents := holds.represents
  cases event with
  | taskInit file => exact ⟨_, enabled, 0, rfl⟩
  | timer =>
      have counted : Represents
          { machine with globalCounter := machine.globalCounter + timerTickMs }
          queues :=
        ⟨represents.run, represents.sleep, represents.event, represents.nodup⟩
      rcases schedUpdateWakeupq_spec counted (Nat.le_refl _) with
        ⟨⟨result, update⟩, _⟩
      have ran : ∃ after,
          doIrTimer queues.sleep.length machine = some after := by
        rw [doIrTimer, Scheduler.tick, update]
        exact ⟨_, rfl⟩
      rcases ran with ⟨after, ran⟩
      exact ⟨after, enabled, _, ran⟩
  | keyboard status data =>
      rcases receiveKeycode_eq machine status data with ⟨queue, received⟩
      have accepted : Represents { machine with keycodeQueue := queue }
          queues :=
        ⟨represents.run, represents.sleep, represents.event, represents.nodup⟩
      rcases schedUpdateWakeupevq_spec eventTypeKbd accepted
        (Nat.le_refl _) with ⟨⟨result, update⟩, _⟩
      have ran : ∃ after,
          doIrKeyboard queues.event.length machine status data =
            some after := by
        rw [doIrKeyboard, received, update]
        exact ⟨_, rfl⟩
      rcases ran with ⟨after, ran⟩
      exact ⟨after, enabled, _, ran⟩
  | wakeupAfterMsec msec => exact ⟨_, enabled, 0, rfl⟩
  | wakeupAfterEvent eventType => exact ⟨_, enabled, 0, rfl⟩

end Runs

/-! ## Well-formed queues -/

/-- A queue of `sched.c` is a ring of exactly the given tasks. -/
structure WellFormed (mem : Memory) (queue : Queue) (tasks : List Nat) :
    Prop where
  empty : tasks = [] → queue.head = 0 ∧ queue.len = 0#32
  head : tasks ≠ [] → queue.head ∈ tasks
  prev_next : ∀ task ∈ tasks,
    next mem task ∈ tasks ∧ prev mem (next mem task) = task
  next_prev : ∀ task ∈ tasks,
    prev mem task ∈ tasks ∧ next mem (prev mem task) = task
  reachable : ∀ task ∈ tasks, ∃ steps, (next mem)^[steps] queue.head = task
  nodup : tasks.Nodup
  len : queue.len.toNat = tasks.length

theorem wellFormed_of_queueRing {mem : Memory} {queue : Queue}
    {tasks : List Nat} (holds : QueueRing mem queue tasks)
    (small : tasks.length < 2 ^ 32) : WellFormed mem queue tasks where
  empty := by
    rintro rfl
    exact ⟨holds.head, holds.len⟩
  head := by
    intro nonEmpty
    rw [holds.head]
    cases tasks with
    | nil => exact absurd rfl nonEmpty
    | cons first rest => simp
  prev_next := fun task member =>
    ⟨holds.ring.next_mem member, holds.ring.prev_next member⟩
  next_prev := fun task member =>
    ⟨holds.ring.prev_mem member, holds.ring.next_prev member⟩
  reachable := by
    intro task member
    cases tasks with
    | nil => cases member
    | cons first rest =>
        rcases holds.ring.reachable member with ⟨steps, _, reached⟩
        have head : queue.head = first := holds.head
        exact ⟨steps, by rw [head, reached]⟩
  nodup := holds.ring.nodup
  len := by
    rw [holds.len, BitVec.toNat_ofNat, Nat.mod_eq_of_lt small]

/--
The three queues are well-formed rings without a common task, and together they
hold each of the created tasks exactly once.
-/
def QueuesWellFormed (machine : Machine) (created : List Nat) : Prop :=
  ∃ run sleep event,
    WellFormed machine.mem machine.runQueue run ∧
    WellFormed machine.mem machine.wakeupQueue sleep ∧
    WellFormed machine.mem machine.wakeupEventQueue event ∧
    List.Disjoint run sleep ∧ List.Disjoint run event ∧
    List.Disjoint sleep event ∧
    (run ++ (sleep ++ event)).Perm created ∧ created.Nodup

theorem Invariant.queuesWellFormed {machine : Machine} {created : List Nat}
    {queues : Queues} (holds : Invariant machine created queues) :
    QueuesWellFormed machine created := by
  rcases queues with ⟨run, sleep, event⟩
  have represents := holds.represents
  have nodup := represents.nodup
  have outer := List.disjoint_of_nodup_append nodup
  have inner :=
    List.disjoint_of_nodup_append (List.nodup_append.mp nodup).2.1
  have room := holds.room
  have total : run.length + (sleep.length + event.length) = created.length := by
    simpa [Queues.all] using holds.perm.length_eq
  rw [maxHeapPages] at room
  refine ⟨run, sleep, event,
    wellFormed_of_queueRing represents.run ?_,
    wellFormed_of_queueRing represents.sleep ?_,
    wellFormed_of_queueRing represents.event ?_,
    ?_, ?_, inner, holds.perm, holds.perm.nodup_iff.mp nodup⟩
  · omega
  · omega
  · omega
  · exact fun task inRun inSleep =>
      outer inRun (List.mem_append_left _ inSleep)
  · exact fun task inRun inEvent =>
      outer inRun (List.mem_append_right _ inEvent)

/--
In every reachable state the queues are well formed, and each enabled event
leads to a further state.
-/
theorem reachable_queuesWellFormed {layout : Layout} {mem : Memory}
    {machine : Machine} {created : List Nat}
    (reachable : Reachable layout mem machine created) :
    QueuesWellFormed machine created ∧
      ∀ event, Enabled machine event →
        ∃ after, Step layout machine event after := by
  rcases run_invariant reachable with ⟨queues, holds⟩
  exact ⟨holds.queuesWellFormed, fun event enabled => holds.progress enabled⟩

/-- There is room for a task until nearly nine hundred have been created. -/
theorem Invariant.free {machine : Machine} {created : List Nat}
    {queues : Queues} (holds : Invariant machine created queues)
    (few : created.length ≤ 895) :
    4 ≤ (freePages machine.heapAllocTable).card := by
  rw [holds.heap.card, maxHeapPages]
  omega

/-- The state after the creation of the first task. -/
theorem firstTask_queuesWellFormed :
    ∃ created, created.length = 1 ∧
      QueuesWellFormed
        (taskInit (boot Layout.sample fun _ => 0#8)
          { name := 0x12000, dataBaseAddr := 0x12020 }) created := by
  have first :
      Step Layout.sample (boot Layout.sample fun _ => 0#8)
        (.taskInit { name := 0x12000, dataBaseAddr := 0x12020 })
        (taskInit (boot Layout.sample fun _ => 0#8)
          { name := 0x12000, dataBaseAddr := 0x12020 }) :=
    ⟨(boot_invariant Layout.sample fun _ => 0#8).free (by simp), 0, rfl⟩
  exact
    ⟨_, rfl, (reachable_queuesWellFormed (.step .boot trivial first)).1⟩

end MagicalOs.Kernel.QueueInvariant
