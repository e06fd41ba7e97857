import MagicalOs.Kernel.StepEffects

/-!
# Time slices

A task which is switched to in the middle of a time slice is marked, and keeps
the processor at the next timer interrupt.  The mark is taken away at the next
call of `schedule`, but from the task which is current then: a task which goes
to sleep has been replaced by the dummy task before, so its mark survives the
sleep.  A new task is marked if its page happens to say so, since `task_init`
does not write the field.

In runs without such steps only the current task is ever marked, and a task
which a timer interrupt has started gives way at the next timer interrupt.
-/

namespace MagicalOs.Kernel.TimeSlices

open MagicalOs.Library.ByteMemory
open MagicalOs.Kernel.HeapPages
open MagicalOs.Kernel.MachineState
open MagicalOs.Kernel.PageTables
open MagicalOs.Kernel.TaskStructure
open MagicalOs.Kernel.TaskCreation
open MagicalOs.Kernel.SchedQueues
open MagicalOs.Kernel.Scheduler
open MagicalOs.Kernel.TaskQueues
open MagicalOs.Kernel.SchedTraversal
open MagicalOs.Kernel.Dispatch
open MagicalOs.Kernel.KernelRuns
open MagicalOs.Kernel.QueueInvariant
open MagicalOs.Kernel.TaskFields
open MagicalOs.Kernel.StepEffects

/-- No task other than the current one is marked. -/
def OnlyCurrentMarked (machine : Machine) (created : List Nat) : Prop :=
  ∀ task ∈ created, task ≠ machine.currentTask →
    taskSwitchedInTimeSlice machine.mem task = 0#8

/--
No marked task goes to sleep, and the page of a new task does not mark it.
-/
def LeavesNoMark (machine : Machine) : Event → Prop
  | .taskInit _ =>
      taskSwitchedInTimeSlice machine.mem
        (allocatePages machine.heapAllocTable).1.task = 0#8
  | .timer => True
  | .keyboard _ _ => True
  | .wakeupAfterMsec _ =>
      taskSwitchedInTimeSlice machine.mem machine.currentTask = 0#8
  | .wakeupAfterEvent _ =>
      taskSwitchedInTimeSlice machine.mem machine.currentTask = 0#8

/-- Steps between two timer interrupts in which the current task stays awake. -/
inductive QuietRun (layout : Layout) (start : Machine) : Machine → Prop where
  | refl : QuietRun layout start start
  | taskInit {machine after : Machine} {file : File}
      (before : QuietRun layout start machine)
      (taken : Step layout machine (.taskInit file) after) :
      QuietRun layout start after
  | keyboard {machine after : Machine} {status data : Byte}
      (before : QuietRun layout start machine)
      (taken : Step layout machine (.keyboard status data) after) :
      QuietRun layout start after

/--
A task which the timer interrupt has started, and which has a ring successor
when the next one calls `schedule`, is then replaced by it.
-/
def GivesWay (layout : Layout) (machine : Machine) : Prop :=
  ∀ started, Step layout machine .timer started →
    started.currentTask ≠ machine.currentTask → started.currentTask ≠ 0 →
    ∀ later, QuietRun layout started later →
    ∀ iterations entering, tick iterations later = some entering →
    next entering.mem started.currentTask ≠ started.currentTask →
    ∀ after, Step layout later .timer after →
      after.currentTask = next entering.mem started.currentTask

/-! ## Steps -/

section Steps

variable {layout : Layout} {mem : Memory} {machine after : Machine}
  {queues : Queues} {created : List Nat} {event : Event} {task : Nat}

theorem flag_notified (eventType : Byte) (before : Fields) :
    (notified eventType before).taskSwitchedInTimeSlice =
      before.taskSwitchedInTimeSlice := by
  rw [notified]
  split
  next => rfl
  next => rfl

/-- What is left of the marks after a timer interrupt. -/
theorem flag_timer (holds : Invariant machine created queues)
    (taken : Step layout machine .timer after) (page : IsHeapPage task) :
    taskSwitchedInTimeSlice after.mem task =
      if task = machine.currentTask then 0#8
      else taskSwitchedInTimeSlice machine.mem task := by
  rcases timer_effect holds taken with
    ⟨entering, _, _, _, _, same, before, _, _, effect⟩
  have flag := congrArg Fields.taskSwitchedInTimeSlice (effect task page)
  have entered : taskSwitchedInTimeSlice entering.mem task =
      taskSwitchedInTimeSlice machine.mem task := by
    have unchanged :=
      congrArg Fields.taskSwitchedInTimeSlice (before task page)
    split at unchanged
    next => exact unchanged
    next => exact unchanged
  apply flag.trans
  rw [flagAfter, if_neg (by simp), same, entered]

theorem flag_keyboard {status data : Byte}
    (holds : Invariant machine created queues)
    (taken : Step layout machine (.keyboard status data) after)
    (page : IsHeapPage task) :
    taskSwitchedInTimeSlice after.mem task =
      taskSwitchedInTimeSlice machine.mem task := by
  rcases keyboard_effect holds taken with ⟨_, _, effect⟩
  have flag := congrArg Fields.taskSwitchedInTimeSlice (effect task page)
  split at flag
  next => exact flag.trans (flag_notified _ _)
  next => exact flag

theorem pages_created (holds : Invariant machine created queues) :
    ∀ task ∈ created, IsHeapPage task :=
  fun task member =>
    holds.represents.pages task (holds.perm.mem_iff.mpr member)

/-- After a sleep the caller is another task than the current one. -/
private theorem marked_sleep_iff
    (holds : Invariant machine created queues)
    (marked : OnlyCurrentMarked machine created)
    (busy : machine.currentTask ≠ 0)
    (different : after.currentTask ≠ machine.currentTask)
    (flags : ∀ task, IsHeapPage task →
      taskSwitchedInTimeSlice after.mem task =
        if task = after.currentTask then 1#8
        else taskSwitchedInTimeSlice machine.mem task) :
    OnlyCurrentMarked after created ↔
      taskSwitchedInTimeSlice machine.mem machine.currentTask = 0#8 := by
  have known : machine.currentTask ∈ created := by
    rcases holds.current with idle | ready
    · exact absurd idle busy
    · exact holds.perm.mem_iff.mp (List.mem_append_left _ ready)
  have pages := pages_created holds
  constructor
  · intro onlyCurrent
    have flag := flags _ (pages _ known)
    rw [if_neg different.symm] at flag
    exact flag.symm.trans (onlyCurrent _ known different.symm)
  · intro unmarked task member notCurrent
    rw [flags task (pages task member), if_neg notCurrent]
    by_cases same : task = machine.currentTask
    · rw [same]
      exact unmarked
    · exact marked task member same

/-- A step keeps all other tasks unmarked exactly under the condition. -/
theorem marked_step_iff (holds : Invariant machine created queues)
    (marked : OnlyCurrentMarked machine created)
    (taken : Step layout machine event after) :
    OnlyCurrentMarked after (created ++ createdBy machine event) ↔
      LeavesNoMark machine event := by
  have pages := pages_created holds
  cases event with
  | taskInit file =>
      rcases taskInit_effect holds taken with
        ⟨_, creates, current, page, fresh, effect⟩
      have flags : ∀ task, task ∈ queues.all ∨ task = newTask machine →
          taskSwitchedInTimeSlice after.mem task =
            taskSwitchedInTimeSlice machine.mem task := fun task known =>
        congrArg Fields.taskSwitchedInTimeSlice (effect task known)
      have newest : (allocatePages machine.heapAllocTable).1.task =
          newTask machine := List.head_eq_of_cons_eq creates
      have notCurrent : newTask machine ≠ machine.currentTask := by
        intro same
        rcases holds.current with idle | ready
        · exact page.ne_null (same.trans idle)
        · exact fresh (same ▸ List.mem_append_left _ ready)
      rw [creates, LeavesNoMark, newest]
      constructor
      · intro onlyCurrent
        rw [← flags _ (.inr rfl)]
        apply onlyCurrent _ (by simp)
        rw [current]
        exact notCurrent
      · intro unmarked task member other
        rw [current] at other
        rcases List.mem_append.mp member with old | new
        · rw [flags task (.inl (holds.perm.mem_iff.mpr old))]
          exact marked task old other
        · rw [List.mem_singleton.mp new, flags _ (.inr rfl)]
          exact unmarked
  | timer =>
      rw [createdBy, List.append_nil]
      refine iff_of_true (fun task member _ => ?_) trivial
      rw [flag_timer holds taken (pages task member)]
      split
      next => rfl
      next other => exact marked task member other
  | keyboard status data =>
      rcases keyboard_effect holds taken with ⟨_, current, _⟩
      rw [createdBy, List.append_nil]
      refine iff_of_true (fun task member other => ?_) trivial
      rw [flag_keyboard holds taken (pages task member)]
      exact marked task member (current ▸ other)
  | wakeupAfterMsec msec =>
      rcases queues with ⟨run, sleep, waiting⟩
      rcases sleep_effect holds taken with
        ⟨_, _, _, _, _, different, effect⟩
      rw [createdBy, List.append_nil]
      exact marked_sleep_iff holds marked taken.1 different fun task page =>
        congrArg Fields.taskSwitchedInTimeSlice (effect task page)
  | wakeupAfterEvent eventType =>
      rcases queues with ⟨run, sleep, waiting⟩
      rcases wait_effect holds taken with
        ⟨_, _, _, _, _, different, effect⟩
      rw [createdBy, List.append_nil]
      exact marked_sleep_iff holds marked taken.1 different fun task page =>
        congrArg Fields.taskSwitchedInTimeSlice (effect task page)

/-! ## The next timer interrupt -/

/-- A current task which is not marked. -/
structure Unmarked (machine : Machine) (created : List Nat) (queues : Queues)
    (task : Nat) : Prop where
  invariant : Invariant machine created queues
  current : machine.currentTask = task
  ready : task ∈ queues.run
  flag : taskSwitchedInTimeSlice machine.mem task = 0#8

theorem unmarked_of_started (holds : Invariant machine created queues)
    (marked : OnlyCurrentMarked machine created)
    (taken : Step layout machine .timer after)
    (different : after.currentTask ≠ machine.currentTask)
    (busy : after.currentTask ≠ 0) :
    ∃ created queues, Unmarked after created queues after.currentTask := by
  rcases timer_effect holds taken with ⟨_, _, _, _, _, _, _, invariant, _, _⟩
  rcases invariant.current with idle | ready
  · exact absurd idle busy
  have page := invariant.represents.run.pages _ ready
  have known : after.currentTask ∈ created :=
    invariant.perm.mem_iff.mp (List.mem_append_left _ ready)
  refine ⟨_, _, invariant, rfl, ready, ?_⟩
  rw [flag_timer holds taken page, if_neg different]
  exact marked _ known different

theorem QuietRun.unmarked {start : Machine}
    (begins : ∃ created queues, Unmarked start created queues task)
    (run : QuietRun layout start machine) :
    ∃ created queues, Unmarked machine created queues task := by
  induction run with
  | refl => exact begins
  | taskInit before taken induction =>
      rcases induction with ⟨created, queues, unmarked⟩
      rcases taskInit_effect unmarked.invariant taken with
        ⟨invariant, _, current, _, _, effect⟩
      have known : task ∈ queues.all :=
        List.mem_append_left _ unmarked.ready
      have flag :=
        congrArg Fields.taskSwitchedInTimeSlice (effect task (.inl known))
      exact ⟨_, _, invariant, current.trans unmarked.current,
        List.mem_append_left _ unmarked.ready, flag.trans unmarked.flag⟩
  | keyboard before taken induction =>
      rcases induction with ⟨created, queues, unmarked⟩
      rcases keyboard_effect unmarked.invariant taken with
        ⟨invariant, current, _⟩
      have page := unmarked.invariant.represents.run.pages _ unmarked.ready
      have flag := flag_keyboard unmarked.invariant taken page
      exact ⟨_, _, invariant, current.trans unmarked.current,
        List.mem_append_left _ unmarked.ready, flag.trans unmarked.flag⟩

/-- An unmarked task with a successor is replaced by it. -/
theorem Unmarked.replaced {iterations : Nat} {entering : Machine}
    (unmarked : Unmarked machine created queues task)
    (ran : tick iterations machine = some entering)
    (several : next entering.mem task ≠ task)
    (taken : Step layout machine .timer after) :
    after.currentTask = next entering.mem task := by
  have page := unmarked.invariant.represents.run.pages _ unmarked.ready
  rcases timer_effect unmarked.invariant taken with
    ⟨other, _, ranOther, _, entered, same, before, _, current, _⟩
  have unique := tick_unique ranOther ran
  subst unique
  have isTask : other.currentTask = task := same.trans unmarked.current
  have flag : taskSwitchedInTimeSlice other.mem task = 0#8 := by
    have unchanged :=
      congrArg Fields.taskSwitchedInTimeSlice (before task page)
    split at unchanged
    next => exact unchanged.trans unmarked.flag
    next => exact unchanged.trans unmarked.flag
  have ends : ¬KeepsSlice other .timer := by
    rintro ⟨_, _, keeps⟩
    rw [isTask] at keeps
    exact keeps flag
  have ready : task ∈ (wokenSleepers machine queues).run :=
    List.mem_append_left _ unmarked.ready
  have nonEmpty : other.runQueue.head ≠ 0 := by
    intro isEmpty
    rw [entered.represents.run.head_eq_zero_iff.mp isEmpty] at ready
    cases ready
  rw [current, turn, if_neg ends, nextTurn, if_neg nonEmpty, isTask,
    if_pos page.ne_null, if_pos several.symm]
  rfl

theorem givesWay_of_marked (holds : Invariant machine created queues)
    (marked : OnlyCurrentMarked machine created) :
    GivesWay layout machine := by
  intro started taken different busy later quiet iterations entering ran
    several after last
  have begins := unmarked_of_started holds marked taken different busy
  rcases quiet.unmarked begins with ⟨_, _, unmarked⟩
  exact unmarked.replaced ran several last

/-! ## Runs -/

theorem run_marked (run : Run layout mem LeavesNoMark machine created) :
    (∃ queues, Invariant machine created queues) ∧
      OnlyCurrentMarked machine created := by
  induction run with
  | boot =>
      refine ⟨⟨_, boot_invariant layout mem⟩, ?_⟩
      rintro task ⟨⟩
  | step before allowed taken induction =>
      rcases induction with ⟨⟨queues, holds⟩, marked⟩
      exact ⟨holds.step taken, (marked_step_iff holds marked taken).mpr allowed⟩

/--
In every run which leaves no mark behind, no task other than the current one is
marked, tasks started by a timer interrupt give way at the next one, and a
further step keeps the others unmarked exactly when it leaves no mark either.
-/
theorem onlyCurrentMarked_of_leavesNoMark
    (run : Run layout mem LeavesNoMark machine created) :
    OnlyCurrentMarked machine created ∧ GivesWay layout machine ∧
      ∀ event after, Step layout machine event after →
        (OnlyCurrentMarked after (created ++ createdBy machine event) ↔
          LeavesNoMark machine event) := by
  rcases run_marked run with ⟨⟨queues, holds⟩, marked⟩
  exact ⟨marked, givesWay_of_marked holds marked,
    fun event after taken => marked_step_iff holds marked taken⟩

end Steps

/-! ## The first tasks -/

section FirstTasks

/-- The page of the first task has been cleared by `mem_init`. -/
theorem boot_leavesNoMark (layout : Layout) (mem : Memory) (file : File) :
    LeavesNoMark (boot layout mem) (.taskInit file) := by
  have heap := (boot_invariant layout mem).heap
  have pages := (nextTaskPages_of_heapPrefix heap (by decide)).1
  have free := (boot_invariant layout mem).free (by simp)
  have cleared := memInit_zero mem 0x1c821 (by omega) (by omega)
  have untouched : (boot layout mem).mem (heapPage 2 + 132) =
      memInit mem (heapPage 2 + 132) := by
    rw [boot]
    generalize memInit mem = initial
    apply kernTaskInit_frame layout (staticMachine initial)
    rw [heapPage_eq]
    omega
  rw [LeavesNoMark, allocatePages_of_free free, pages,
    taskSwitchedInTimeSlice]
  change (boot layout mem).mem (heapPage 2 + 132) = 0#8
  have address : heapPage 2 + 132 = 0x90000 + 4 * 0x1c821 := by
    rw [heapPage_eq]
  rw [untouched, address]
  generalize memInit mem = initial at cleared ⊢
  rw [Memory.load8_eq_setWidth initial, cleared]
  rfl

/-- The first task is not marked. -/
theorem firstTask_onlyCurrentMarked :
    ∃ created, created.length = 1 ∧
      OnlyCurrentMarked
        (taskInit (boot Layout.sample fun _ => 0#8)
          { name := 0x12000, dataBaseAddr := 0x12020 }) created := by
  have first :
      Step Layout.sample (boot Layout.sample fun _ => 0#8)
        (.taskInit { name := 0x12000, dataBaseAddr := 0x12020 })
        (taskInit (boot Layout.sample fun _ => 0#8)
          { name := 0x12000, dataBaseAddr := 0x12020 }) :=
    ⟨(boot_invariant Layout.sample fun _ => 0#8).free (by simp), 0, rfl⟩
  have allowed := boot_leavesNoMark Layout.sample (fun _ => 0#8)
    { name := 0x12000, dataBaseAddr := 0x12020 }
  exact
    ⟨_, rfl, (onlyCurrentMarked_of_leavesNoMark (.step .boot allowed first)).1⟩

/-- A sleeping task marks the next one, whose sleep keeps it marked. -/
private theorem twoSleeps_marked {layout : Layout} {mem : Memory}
    {machine : Machine} {created : List Nat} {first second : Nat} (msec : Word)
    (known : Known layout mem machine created ⟨[first, second], [], []⟩)
    (busy : machine.currentTask ≠ 0) :
    ∃ middle after, Step layout machine (.wakeupAfterMsec msec) middle ∧
      Step layout middle (.wakeupAfterMsec msec) after ∧
      Reachable layout mem after created ∧
      ¬OnlyCurrentMarked after created := by
  have step : Step layout machine (.wakeupAfterMsec msec)
      (callWakeupAfterMsec layout machine msec) := ⟨busy, 0, rfl⟩
  have holds := known.invariant
  rcases sleep_effect holds step with
    ⟨front, back, split, middleHolds, current, _, effect⟩
  have several : front ++ back ≠ [] := by
    intro isEmpty
    rcases List.append_eq_nil_iff.mp isEmpty with ⟨rfl, rfl⟩
    cases split
  rw [split] at holds
  rw [if_neg several] at current
  have successor := (next_of_leaving holds.represents.run several).2.1
  rw [← current] at successor
  have page := middleHolds.represents.run.pages _ successor
  have marked : taskSwitchedInTimeSlice
      (callWakeupAfterMsec layout machine msec).mem
      (callWakeupAfterMsec layout machine msec).currentTask = 1#8 :=
    (congrArg Fields.taskSwitchedInTimeSlice (effect _ page)).trans
      (if_pos rfl)
  have again : Step layout (callWakeupAfterMsec layout machine msec)
      (.wakeupAfterMsec msec)
      (callWakeupAfterMsec layout
        (callWakeupAfterMsec layout machine msec) msec) :=
    ⟨page.ne_null, 0, rfl⟩
  have reachable : Reachable layout mem _ _ :=
    .step (.step known.reachable trivial step) trivial again
  simp only [createdBy, List.append_nil] at reachable
  refine ⟨_, _, step, again, reachable, fun onlyCurrent => ?_⟩
  rcases sleep_effect middleHolds again with ⟨_, _, _, _, _, different, last⟩
  have stays := congrArg Fields.taskSwitchedInTimeSlice (last _ page)
  have inCreated :=
    middleHolds.perm.mem_iff.mp (List.mem_append_left _ successor)
  have unmarked := onlyCurrent _ inCreated different.symm
  have kept := unmarked.symm.trans (stays.trans (if_neg different.symm))
  rw [marked] at kept
  cases kept

/--
The timer starts the first of two tasks; it goes to sleep, and so does the
second one in the same time slice.  The second task stays marked.
-/
theorem twoSleeps_not_onlyCurrentMarked :
    ∃ after created,
      Follows Layout.sample (boot Layout.sample fun _ => 0#8)
        [.taskInit { name := 0x12000, dataBaseAddr := 0x12020 },
          .taskInit { name := 0x13000, dataBaseAddr := 0x13020 },
          .timer, .wakeupAfterMsec 1000#32, .wakeupAfterMsec 1000#32] after ∧
      Reachable Layout.sample (fun _ => 0#8) after created ∧
      ¬OnlyCurrentMarked after created := by
  rcases (Known.boot Layout.sample fun _ => 0#8).creates (by simp)
    { name := 0x12000, dataBaseAddr := 0x12020 } with
    ⟨_, first, step1, known1, page, idle1⟩
  rcases known1.creates (by simp)
    { name := 0x13000, dataBaseAddr := 0x13020 } with
    ⟨_, second, step2, known2, _, idle2⟩
  rcases known2.starts (idle2.trans idle1) with
    ⟨_, step3, known3, current⟩
  rcases twoSleeps_marked 1000#32 known3 (current ▸ page.ne_null) with
    ⟨_, _, step4, step5, reachable, notOnly⟩
  exact ⟨_, _, ⟨_, step1, _, step2, _, step3, _, step4, _, step5, rfl⟩,
    reachable, notOnly⟩

end FirstTasks

end MagicalOs.Kernel.TimeSlices
